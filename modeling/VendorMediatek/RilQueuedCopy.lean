import VendorMediatek.RilDispatch

/-!
# Queued copies

A request that finds its channel busy reaches the vendor's onRequest through `my_dequeue`, with
the copy `my_enqueue` made of its first buflen bytes. Over every run of the queues, whether it
leads to the same value as the buffer itself is a question about that copy alone.
-/

namespace RilChannelQueue

open LabelledRuns

variable {β : Type}

/-- The onRequest of my_dequeue in one event. -/
def dequeuedBy (s : State β) : Event β → Option (OnRequest β)
  | .enqueue .. => none
  | .complete pRI => (rilOnRequestCompleteDone s.chan pRI).2

def dequeuedCalls (memcpy : Option β → ℕ → β) : State β → List (Event β) → List (OnRequest β)
  | _, [] => []
  | s, e :: es => (dequeuedBy s e).toList ++ dequeuedCalls memcpy (next memcpy s e) es

/-- The buffer that was enqueued for the request and the one that waits for it. -/
def CopiedFrom (memcpy : Option β → ℕ → β) (es : List (Event β)) (pRI : RequestInfo)
    (copy : Option β) : Prop :=
  ∃ request buf buflen bf, .enqueue request buf buflen bf pRI ∈ es ∧ ¬ Bypasses bf pRI ∧
    copy = queuedBuf memcpy buf buflen bf

def QueuesCopies (memcpy : Option β → ℕ → β) (es : List (Event β)) (s : State β) : Prop :=
  ∀ c slot, ∀ p ∈ s.chan.proxyCmd c slot, CopiedFrom memcpy es p.pRI p.buf

theorem queuesCopies_next {memcpy : Option β → ℕ → β} {es : List (Event β)} {s : State β}
    (h : QueuesCopies memcpy es s) {e : Event β} (he : e ∈ es) :
    QueuesCopies memcpy es (next memcpy s e) := by
  cases e with
  | enqueue request buf buflen bf pRI =>
    obtain ⟨_, hn⟩ | ⟨c, _, _, _, hn⟩ | ⟨c, p, hi, hc, ⟨hp, hbuf⟩, _, hn⟩ :=
      next_enqueue_cases memcpy s request buf buflen bf pRI
    · rw [hn]; exact h
    · rw [hn]; exact h
    · rw [hn]
      intro d slot q hq
      rw [setQueue_queue] at hq
      split at hq
      · rcases List.mem_append.mp hq with hq | hq
        · exact h c _ q hq
        · rw [List.mem_singleton.mp hq, hp]
          exact ⟨request, buf, buflen, bf, he, by simp [Bypasses, hi, hc], hbuf⟩
      · exact h d slot q hq
  | complete pRI =>
    obtain ⟨_, hn⟩ | ⟨c, _, _, hn⟩ | ⟨c, p, rest, _, hq, hn⟩ := next_complete_cases memcpy s pRI
    · rw [hn]; exact h
    · rw [hn]; exact h
    · rw [hn]
      intro d slot q hm
      simp only [setBusy_queue, setQueue_queue] at hm
      split at hm
      · exact h c _ q (hq ▸ List.mem_cons_of_mem p hm)
      · exact h d slot q hm

theorem dequeuedBy_copied {memcpy : Option β → ℕ → β} {es : List (Event β)} {s : State β}
    (h : QueuesCopies memcpy es s) {e : Event β} {q : OnRequest β} (hq : dequeuedBy s e = some q) :
    CopiedFrom memcpy es q.pRI q.buf := by
  cases e with
  | enqueue => cases hq
  | complete pRI =>
    simp only [dequeuedBy, rilOnRequestCompleteDone, myDequeue] at hq
    split at hq
    · cases hq
    · rename_i c _
      split at hq
      · cases hq
      · rename_i p rest hp
        cases hq
        rw [setBusy_queue] at hp
        exact h c _ p (hp ▸ List.mem_cons_self)

theorem dequeuedCalls_copied {memcpy : Option β → ℕ → β} {es fs : List (Event β)} {s : State β}
    (h : QueuesCopies memcpy es s) (hfs : ∀ e ∈ fs, e ∈ es) {q : OnRequest β}
    (hq : q ∈ dequeuedCalls memcpy s fs) : CopiedFrom memcpy es q.pRI q.buf := by
  induction fs generalizing s with
  | nil => cases hq
  | cons e fs ih =>
    rcases List.mem_append.mp hq with hq | hq
    · exact dequeuedBy_copied h (Option.mem_toList.mp hq)
    · have he := hfs e List.mem_cons_self
      exact ih (queuesCopies_next h he) (fun f hf => hfs f (List.mem_cons_of_mem e hf)) hq

theorem enqueued_mono (memcpy : Option β → ℕ → β) {s : State β} {r : RequestInfo}
    (h : r ∈ s.enqueued) (e : Event β) : r ∈ (next memcpy s e).enqueued := by
  cases e with
  | enqueue => exact List.mem_append_left _ h
  | complete => exact h

theorem not_enqueued_again {memcpy : Option β → ℕ → β} {s : State β} {es : List (Event β)}
    (legal : (system memcpy).Legal s es) {r : RequestInfo} (h : r ∈ s.enqueued)
    (request : ℕ) (buf : Option β) (buflen : ℕ) (bf : BufFmts) :
    Event.enqueue request buf buflen bf r ∉ es := by
  induction es generalizing s with
  | nil => exact List.not_mem_nil
  | cons e es ih =>
    intro hm
    rcases List.mem_cons.mp hm with rfl | hm
    · exact legal.1 h
    · exact ih legal.2 (enqueued_mono memcpy h e) hm

theorem enqueue_unique {memcpy : Option β → ℕ → β} {s : State β} {es : List (Event β)}
    (legal : (system memcpy).Legal s es) {r : RequestInfo} {request request' : ℕ}
    {buf buf' : Option β} {buflen buflen' : ℕ} {bf bf' : BufFmts}
    (h : .enqueue request buf buflen bf r ∈ es)
    (h' : .enqueue request' buf' buflen' bf' r ∈ es) :
    buf = buf' ∧ buflen = buflen' ∧ bf = bf' := by
  induction es generalizing s with
  | nil => cases h
  | cons e es ih =>
    have later : ∀ {request buf buflen bf}, e = .enqueue request buf buflen bf r →
        ∀ request' buf' buflen' bf', Event.enqueue request' buf' buflen' bf' r ∉ es := by
      rintro _ _ _ _ rfl
      refine not_enqueued_again legal.2 ?_
      exact List.mem_append_right _ (List.mem_singleton_self r)
    rcases List.mem_cons.mp h with he | h
    · rcases List.mem_cons.mp h' with he' | h'
      · cases he.trans he'.symm
        exact ⟨rfl, rfl, rfl⟩
      · exact absurd h' (later he.symm _ _ _ _)
    · rcases List.mem_cons.mp h' with he' | h'
      · exact absurd h (later he'.symm _ _ _ _)
      · exact ih legal.2 h h'

/-- What my_dequeue passes for a request is the copy made when it was enqueued. -/
theorem dequeued_copy {memcpy : Option β → ℕ → β} {es : List (Event β)}
    (legal : (system memcpy).Legal initial es) {request : ℕ} {buf : Option β} {buflen : ℕ}
    {bf : BufFmts} {q : OnRequest β} (he : .enqueue request buf buflen bf q.pRI ∈ es)
    (hq : q ∈ dequeuedCalls memcpy initial es) :
    ¬ Bypasses bf q.pRI ∧ q.buf = queuedBuf memcpy buf buflen bf := by
  have start : QueuesCopies memcpy es initial := by
    intro c slot p hp
    cases hp
  obtain ⟨_, _, _, _, hm, hb, hcopy⟩ := dequeuedCalls_copied start (fun _ h => h) hq
  obtain ⟨rfl, rfl, rfl⟩ := enqueue_unique legal he hm
  exact ⟨hb, hcopy⟩

end RilChannelQueue

namespace RilDispatch

open CMemory RilChannelQueue LabelledRuns

def Call.buf (call : Call) (m : Memory) : Option View := call.data.map m.deref

/-- In every run that enqueues the call's request, what a dequeue passes for it leads to the value
that my_enqueue would have passed at once. m is the memory my_enqueue is called in, m' the memory
at the dequeue: the function's stack blocks may hold anything by then. -/
def QueuedAsDirect (abi : Abi) (call : Call) (request : ℕ) (pRI : RequestInfo) : Prop :=
  ∀ (junk : View) (es : List (Event View)) (m m' : Memory),
    (system (memcpy junk)).Legal initial es → m.Holds call.frame → m'.Holds call.frame.lasting →
    .enqueue request (call.buf m) call.buflen call.bf pRI ∈ es →
    ∀ s d, (myEnqueue (memcpy junk) s request (call.buf m) call.buflen call.bf pRI).2 = some d →
    ∀ q ∈ dequeuedCalls (memcpy junk) initial es, q.pRI = pRI →
      ∃ v, ReadsData abi.pointer m call.type d.buf v ∧ ReadsData abi.pointer m' call.type q.buf v

/-- The same of the copy by itself, without the queue around it. -/
def SameValue (abi : Abi) (call : Call) : Prop :=
  ∀ (junk : View) (m m' : Memory), m.Holds call.frame → m'.Holds call.frame.lasting →
    ∃ v, ReadsData abi.pointer m call.type (call.buf m) v ∧
      ReadsData abi.pointer m' call.type
        (queuedBuf (memcpy junk) (call.buf m) call.buflen call.bf) v

theorem myEnqueue_direct {β : Type} {copy : Option β → ℕ → β} {s : ChannelState β} {request : ℕ}
    {buf : Option β} {buflen : ℕ} {bf : BufFmts} {pRI : RequestInfo} {d : OnRequest β}
    (h : (myEnqueue copy s request buf buflen bf pRI).2 = some d) : d.buf = buf := by
  simp only [myEnqueue] at h
  split at h
  · cases h; rfl
  · split at h
    · cases h; rfl
    · split at h
      · cases h
      · cases h; rfl

/-- A request of the same kind, for the same slot and channel. -/
def blocker (pRI : RequestInfo) : RequestInfo := { pRI with addr := pRI.addr + 1 }

/-- The request is enqueued behind the blocker, whose completion hands it over. -/
def blockedRun (request : ℕ) (buf : Option View) (buflen : ℕ) (bf : BufFmts)
    (pRI : RequestInfo) : List (Event View) :=
  [.enqueue request none 0 .void (blocker pRI), .enqueue request buf buflen bf pRI,
    .complete (blocker pRI)]

theorem blockedRun_dequeues (copy : Option View → ℕ → View) (request : ℕ) (buf : Option View)
    (buflen : ℕ) {bf : BufFmts} {pRI : RequestInfo} (hb : ¬ Bypasses bf pRI) :
    (system copy).Legal initial (blockedRun request buf buflen bf pRI) ∧
      ∃ q ∈ dequeuedCalls copy initial (blockedRun request buf buflen bf pRI),
        q.pRI = pRI ∧ q.buf = queuedBuf copy buf buflen bf := by
  obtain ⟨hi, hq⟩ := not_or.mp hb
  obtain ⟨c, hc⟩ := Option.ne_none_iff_exists'.mp hq
  have hcb : queuedChannel (blocker pRI).pCI.proxyId = some c := hc
  have hne : pRI ≠ blocker pRI := fun h => by
    have := congrArg RequestInfo.addr h
    simp [blocker] at this
  let busy := (initial : State View).chan.setBusy c (testedFlag c request pRI.socketId.slot) true
  have first : next copy initial (.enqueue request none 0 .void (blocker pRI)) =
      ⟨busy, [blocker pRI], [blocker pRI], [blocker pRI]⟩ := by
    simp only [next]
    rw [myEnqueue_clear copy initial.chan (by decide) hcb rfl]
    rfl
  obtain ⟨p, ⟨hp, hbuf⟩, he⟩ := myEnqueue_pending copy busy request buf buflen hi hc
    (by simp [busy])
  have second : next copy ⟨busy, [blocker pRI], [blocker pRI], [blocker pRI]⟩
      (.enqueue request buf buflen bf pRI) =
      ⟨(busy.setBusy c (testedFlag c request pRI.socketId.slot) true).setQueue c
        pRI.socketId.slot [p], [blocker pRI, pRI], [blocker pRI], [blocker pRI]⟩ := by
    simp only [next]
    rw [he]
    simp [State.hand, busy, initial]
  constructor
  · refine ⟨List.not_mem_nil, ?_, ?_, trivial⟩
    · change pRI ∉ (next copy initial (.enqueue request none 0 .void (blocker pRI))).enqueued
      rw [first]
      simpa using hne
    · change blocker pRI ∈ (next copy (next copy initial (.enqueue request none 0 .void
        (blocker pRI))) (.enqueue request buf buflen bf pRI)).inFlight
      rw [first, second]
      exact List.mem_singleton_self _
  · refine ⟨⟨p.pRI.pCI.requestNumber, p.buf, p.buflen, p.pRI⟩, ?_, hp, hbuf⟩
    simp only [blockedRun, dequeuedCalls, dequeuedBy, first, second]
    have hs : (blocker pRI).socketId.slot = pRI.socketId.slot := rfl
    simp [rilOnRequestCompleteDone, hcb, complete_slot, hs, myDequeue]

/-- The queue adds nothing: it keeps the copy as it is, and can be made to keep it. -/
theorem queuedAsDirect_iff {abi : Abi} {call : Call} {request : ℕ} {pRI : RequestInfo} :
    QueuedAsDirect abi call request pRI ↔ Bypasses call.bf pRI ∨ SameValue abi call := by
  constructor
  · intro h
    by_cases hb : Bypasses call.bf pRI
    · exact Or.inl hb
    · refine Or.inr fun junk m m' hm hm' => ?_
      obtain ⟨legal, q, hq, hpRI, hbuf⟩ := blockedRun_dequeues (memcpy junk) request (call.buf m)
        call.buflen hb
      obtain ⟨c, hc⟩ := Option.ne_none_iff_exists'.mp (not_or.mp hb).2
      have direct : (myEnqueue (memcpy junk) (initial : State View).chan request (call.buf m)
          call.buflen call.bf pRI).2 = some ⟨request, call.buf m, call.buflen, pRI⟩ :=
        congrArg Prod.snd (myEnqueue_clear (memcpy junk) _ (not_or.mp hb).1 hc rfl)
      obtain ⟨v, hv, hv'⟩ := h junk _ m m' legal hm hm' (by simp [blockedRun]) initial.chan _
        direct q hq hpRI
      exact ⟨v, hv, hbuf ▸ hv'⟩
  · rintro h junk es m m' legal hm hm' he s d hd q hq rfl
    obtain ⟨hb, hbuf⟩ := dequeued_copy legal he hq
    rw [myEnqueue_direct hd, hbuf]
    exact (h.resolve_left hb) junk m m' hm hm'

end RilDispatch
