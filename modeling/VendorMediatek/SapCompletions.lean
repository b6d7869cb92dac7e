import VendorMediatek.SapQueue

/-!
# Completions of SAP requests

dispatchRequest and onRequestComplete of RilSapSocket.cpp around the socket's queue of the requests
that wait for a response. sOnRequestComplete brings a request back to the socket that dispatched it.
The vendor completes a request that it was handed once, at any time after, and malloc returns a
block that is not allocated. What dequeues a request is the token and the id of its header, whatever
the client sends as these.
-/

namespace SapCompletions

open LabelledRuns
open SapQueue (MsgHeader SapSocketRequest)

/-- responseType is MsgType_RESPONSE, and uimFuncs tells whether the socket has vendor functions. -/
structure RilSapSocket where
  id : ℤ
  uimFuncs : Bool
  responseType : ℤ

structure Response where
  header : MsgHeader
  payload : List UInt8

/-- The requests that are allocated, those whose header is, and those that the vendor was handed and
has not completed. -/
structure State where
  pendingResponseQueue : SapQueue.State
  live : List ℕ
  headers : List ℕ
  handed : List ℕ
  responses : List Response

def initial (requests : ℕ → SapSocketRequest) : State := ⟨SapQueue.initial requests, [], [], [], []⟩

namespace State

variable (s : State)

def pending : List ℕ := s.pendingResponseQueue.pending

/-- request->curr -/
def curr (t : ℕ) : MsgHeader := (s.pendingResponseQueue.queue.requests t).curr

def Matches (t : ℕ) : ℕ → Bool :=
  s.pendingResponseQueue.queue.Matches (s.curr t).id (s.curr t).token

/-- The request that checkAndDequeue finds and frees for the header of t. -/
def found (t : ℕ) : Option ℕ :=
  (s.pendingResponseQueue.queue.checkAndDequeue s.pendingResponseQueue.enqueued.length (s.curr t).id
    (s.curr t).token).2

end State

/-- malloc returns currRequest, or 0 for none; allocated tells whether calloc has the payload of the
response. -/
inductive Event where
  | dispatchRequest (req : MsgHeader) (currRequest : ℕ)
  | onRequestComplete (t : ℕ) (e : ℤ) (response : List UInt8) (allocated : Bool)

def Enabled (s : State) : Event → Prop
  | .dispatchRequest _ currRequest => currRequest ∉ s.live
  | .onRequestComplete t _ _ _ => t ∈ s.handed

instance (s : State) (e : Event) : Decidable (Enabled s e) := by
  cases e <;> simp only [Enabled] <;> infer_instance

section Socket

variable (socket : RilSapSocket)

def dispatchRequest (s : State) (req : MsgHeader) (currRequest : ℕ) : State :=
  if currRequest = 0 then s
  else
    { s with
      pendingResponseQueue := SapQueue.next s.pendingResponseQueue
        (.enqueue currRequest ⟨req.token, req, 0, socket.id⟩)
      live := currRequest :: s.live
      headers := currRequest :: s.headers
      handed := if socket.uimFuncs then currRequest :: s.handed else s.handed }

def onRequestComplete (s : State) (t : ℕ) (e : ℤ) (response : List UInt8) (allocated : Bool) :
    State :=
  let hdr := s.curr t
  let rsp : MsgHeader := ⟨hdr.token, socket.responseType, hdr.id, e⟩
  { pendingResponseQueue := SapQueue.next s.pendingResponseQueue (.checkAndDequeue hdr.id hdr.token)
    live := s.live.diff (s.found t).toList
    headers := s.headers.erase t
    handed := s.handed.erase t
    responses := if allocated then s.responses ++ [⟨rsp, response⟩] else s.responses }

def next (s : State) : Event → State
  | .dispatchRequest req currRequest => dispatchRequest socket s req currRequest
  | .onRequestComplete t e response allocated => onRequestComplete socket s t e response allocated

def system : System State Event := ⟨Enabled, next socket⟩

instance (s : State) (e : Event) : Decidable ((system socket).Enabled s e) :=
  inferInstanceAs (Decidable (Enabled s e))

/-- The queue holds no request that was freed, and none whose header was. -/
def HoldsLive (s : State) : Prop :=
  ∀ request ∈ s.pending, request ∈ s.live ∧ request ∈ s.headers

/-- From s to s' the request t leaves the queue, and it alone, and it alone is freed. -/
structure RemovesOwn (s s' : State) (t : ℕ) : Prop where
  frees : s'.pendingResponseQueue.freed = s.pendingResponseQueue.freed ++ [t]
  removes : s'.pending = s.pending.erase t

def Exact (s : State) (e : Event) : Prop :=
  HoldsLive (next socket s e) ∧
    match e with
    | .dispatchRequest _ _ => True
    | .onRequestComplete t _ _ _ => RemovesOwn s (next socket s e) t

/-- No request that was dispatched after t and waits for its response has t's id and token. -/
def Unshadowed (s : State) : Event → Prop
  | .dispatchRequest _ _ => True
  | .onRequestComplete t _ _ _ =>
    ∀ request ∈ s.pending.takeWhile (· != t), s.Matches t request = false

instance (s : State) (e : Event) : Decidable (Unshadowed s e) := by
  cases e <;> simp only [Unshadowed] <;> infer_instance

/-! ## One step -/

/-- As long as every completion removes its own request, what is pending is allocated and was
dispatched with the token of its header, and what the vendor was handed is pending. -/
structure Waiting (s : State) (pending : List ℕ) : Prop where
  keeps : SapQueue.Keeps s.pendingResponseQueue pending
  live : ∀ request ∈ pending, request ∈ s.live ∧ request ∈ s.headers
  tokens : ∀ request ∈ pending,
    (s.pendingResponseQueue.queue.requests request).token = (s.curr request).token
  handed : ∀ request ∈ s.handed, request ∈ pending
  nodup : s.handed.Nodup

variable {socket : RilSapSocket} {s : State} {pending : List ℕ}

theorem Waiting.pending_eq (h : Waiting s pending) : s.pending = pending := h.keeps.pending_eq

theorem Waiting.holdsLive (h : Waiting s pending) : HoldsLive s := by
  rw [HoldsLive, h.pending_eq]
  exact h.live

theorem waiting_initial (requests : ℕ → SapSocketRequest) : Waiting (initial requests) [] :=
  ⟨SapQueue.keeps_initial requests, fun _ h => absurd h List.not_mem_nil,
    fun _ h => absurd h List.not_mem_nil, fun _ h => absurd h List.not_mem_nil, List.nodup_nil⟩

theorem waiting_dispatchRequest (h : Waiting s pending) (req : MsgHeader) {currRequest : ℕ}
    (hzero : currRequest ≠ 0) (hfresh : currRequest ∉ s.live) :
    Waiting (dispatchRequest socket s req currRequest) (currRequest :: pending) := by
  have hpending : currRequest ∉ pending := fun hmem => hfresh (h.live currRequest hmem).1
  have enabled : SapQueue.Enabled s.pendingResponseQueue
      (.enqueue currRequest ⟨req.token, req, 0, socket.id⟩) := by
    refine ⟨hzero, ?_⟩
    rw [h.keeps.pending_eq]
    exact hpending
  rw [dispatchRequest, if_neg hzero]
  refine ⟨SapQueue.keeps_enqueue h.keeps _ enabled, ?_, ?_, ?_, ?_⟩
  · intro request hmem
    rcases List.mem_cons.mp hmem with rfl | hmem
    · exact ⟨List.mem_cons_self, List.mem_cons_self⟩
    · obtain ⟨hlive, hheader⟩ := h.live request hmem
      exact ⟨List.mem_cons_of_mem _ hlive, List.mem_cons_of_mem _ hheader⟩
  · intro request hmem
    obtain ⟨p, fields⟩ := SapQueue.RilQueue.enqueue_requests
      (q := { s.pendingResponseQueue.queue with
        requests := Function.update s.pendingResponseQueue.queue.requests currRequest
          ⟨req.token, req, 0, socket.id⟩ }) currRequest request
    simp only [State.curr, SapQueue.next, fields]
    rcases List.mem_cons.mp hmem with rfl | hold
    · rw [Function.update_self]
    · have hne : request ≠ currRequest := by
        rintro rfl
        exact hpending hold
      rw [Function.update_of_ne hne]
      exact h.tokens request hold
  · intro request hmem
    dsimp only at hmem
    split at hmem
    · rcases List.mem_cons.mp hmem with rfl | hmem
      · exact List.mem_cons_self
      · exact List.mem_cons_of_mem _ (h.handed request hmem)
    · exact List.mem_cons_of_mem _ (h.handed request hmem)
  · dsimp only
    split
    · exact List.nodup_cons.mpr ⟨fun hmem => hpending (h.handed currRequest hmem), h.nodup⟩
    · exact h.nodup

theorem Waiting.matches_self (h : Waiting s pending) {t : ℕ} (ht : t ∈ pending) :
    s.Matches t t = true :=
  decide_eq_true ⟨(h.tokens t ht).symm, rfl⟩

theorem Waiting.found_eq (h : Waiting s pending) (t : ℕ) :
    s.found t = pending.find? (s.Matches t) :=
  (h.keeps.holds.checkAndDequeue h.keeps.length_le (s.curr t).id (s.curr t).token).1

/-- What is found is the request itself unless one of its id and token is in front of it. -/
theorem found_iff (h : Waiting s pending) {t : ℕ} (ht : t ∈ pending) :
    s.found t = some t ↔ ∀ request ∈ pending.takeWhile (· != t), s.Matches t request = false := by
  rw [h.found_eq]
  exact PointerList.find?_eq_some_iff_takeWhile ht (h.matches_self ht)

theorem waiting_onRequestComplete (h : Waiting s pending) {t : ℕ} (hfound : s.found t = some t)
    (e : ℤ) (response : List UInt8) (allocated : Bool) :
    Waiting (onRequestComplete socket s t e response allocated) (pending.erase t) := by
  have keeps := SapQueue.keeps_checkAndDequeue h.keeps (s.curr t).id (s.curr t).token
  have herase : pending.eraseP (s.Matches t) = pending.erase t :=
    PointerList.eraseP_eq_erase (h.found_eq t ▸ hfound)
  have hnodup := h.keeps.holds.nodup
  refine ⟨herase ▸ keeps, ?_, ?_, ?_, h.nodup.erase t⟩
  · intro request hmem
    obtain ⟨hne, hmem⟩ := hnodup.mem_erase_iff.mp hmem
    obtain ⟨hlive, hheader⟩ := h.live request hmem
    simp only [onRequestComplete, hfound, Option.toList_some, List.diff_cons, List.diff_nil]
    exact ⟨(List.mem_erase_of_ne hne).mpr hlive, (List.mem_erase_of_ne hne).mpr hheader⟩
  · intro request hmem
    obtain ⟨p, fields⟩ := SapQueue.RilQueue.checkAndDequeue_requests
      (q := s.pendingResponseQueue.queue) s.pendingResponseQueue.enqueued.length (s.curr t).id
      (s.curr t).token request
    simp only [State.curr, onRequestComplete, SapQueue.next]
    simp only [State.curr] at fields
    rw [fields]
    exact h.tokens request (List.mem_of_mem_erase hmem)
  · intro request hmem
    obtain ⟨hne, hmem⟩ := h.nodup.mem_erase_iff.mp hmem
    exact (List.mem_erase_of_ne hne).mpr (h.handed request hmem)

theorem removesOwn_iff (h : Waiting s pending) {t : ℕ} (e : ℤ) (response : List UInt8)
    (allocated : Bool) :
    RemovesOwn s (onRequestComplete socket s t e response allocated) t ↔ s.found t = some t := by
  constructor
  · intro own
    have freed := List.append_cancel_left own.frees
    cases hfound : s.found t with
    | none =>
      rw [State.found] at hfound
      rw [hfound] at freed
      cases freed
    | some r =>
      rw [State.found] at hfound
      rw [hfound] at freed
      cases freed
      rfl
  · intro hfound
    refine ⟨?_, ?_⟩
    · change _ ++ (s.found t).toList = _
      rw [hfound]
      rfl
    · rw [(waiting_onRequestComplete h hfound e response allocated).pending_eq, h.pending_eq]

theorem waiting_next (h : Waiting s s.pending) {e : Event} (he : Enabled s e)
    (hu : Unshadowed s e) : Waiting (next socket s e) (next socket s e).pending := by
  have waiting : ∃ pending, Waiting (next socket s e) pending := by
    cases e with
    | dispatchRequest req currRequest =>
      by_cases hzero : currRequest = 0
      · refine ⟨s.pending, ?_⟩
        rw [next, dispatchRequest, if_pos hzero]
        exact h
      · exact ⟨_, waiting_dispatchRequest h req hzero he⟩
    | onRequestComplete t e response allocated =>
      have hfound := (found_iff h (h.handed t he)).mpr hu
      exact ⟨_, waiting_onRequestComplete h hfound e response allocated⟩
  obtain ⟨pending, hpending⟩ := waiting
  rwa [hpending.pending_eq]

theorem exact_iff (h : Waiting s s.pending) {e : Event} (he : Enabled s e) :
    Exact socket s e ↔ Unshadowed s e := by
  constructor
  · rintro ⟨-, own⟩
    cases e with
    | dispatchRequest req currRequest => trivial
    | onRequestComplete t e response allocated =>
      exact (found_iff h (h.handed t he)).mp ((removesOwn_iff h e response allocated).mp own)
  · intro hu
    refine ⟨(waiting_next h he hu).holdsLive, ?_⟩
    cases e with
    | dispatchRequest req currRequest => trivial
    | onRequestComplete t e response allocated =>
      exact (removesOwn_iff h e response allocated).mpr ((found_iff h (h.handed t he)).mpr hu)

/-- In a run every completion removes and frees its own request, and the queue never holds a freed
one, exactly when no completion comes while a later request of the same id and token is pending. -/
theorem completions_exact_iff {requests : ℕ → SapSocketRequest} {es : List Event}
    (legal : (system socket).Legal (initial requests) es) :
    (system socket).Along (Exact socket) (initial requests) es ↔
      (system socket).Along Unshadowed (initial requests) es := by
  apply along_iff_guarded (system socket) (I := fun s => Waiting s s.pending)
  · exact fun s e h he hu => waiting_next h he hu
  · exact fun s e h he => exact_iff h he
  · exact waiting_initial requests
  · exact legal

end Socket

/-- Two requests of one id, completed in the order they were dispatched in. -/
def inOrder : List Event :=
  [.dispatchRequest ⟨1, 1, 2, 0⟩ 1, .dispatchRequest ⟨2, 1, 2, 0⟩ 2, .onRequestComplete 1 0 [] true,
    .onRequestComplete 2 0 [] true]

theorem completions_exact_iff_inOrder :
    (system ⟨0, true, 2⟩).Along (Exact ⟨0, true, 2⟩) (initial fun _ => ⟨0, ⟨0, 0, 0, 0⟩, 0, 0⟩)
      inOrder :=
  (completions_exact_iff (by decide)).mpr (by decide)

/-- The token of the first request comes again, and the first is completed first. -/
def repeated : List Event :=
  [.dispatchRequest ⟨1, 1, 2, 0⟩ 1, .dispatchRequest ⟨1, 1, 2, 0⟩ 2, .onRequestComplete 1 0 [] true]

theorem repeated_removes_other :
    ¬ ∀ es, (system ⟨0, true, 2⟩).Legal (initial fun _ => ⟨0, ⟨0, 0, 0, 0⟩, 0, 0⟩) es →
      (system ⟨0, true, 2⟩).Along (Exact ⟨0, true, 2⟩) (initial fun _ => ⟨0, ⟨0, 0, 0, 0⟩, 0, 0⟩)
        es := by
  intro h
  have own := (h repeated (by decide)).2.2.1.2.frees
  exact absurd own (by decide)

end SapCompletions
