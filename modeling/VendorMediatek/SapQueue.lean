import VendorMediatek.LabelledRuns
import VendorMediatek.PointerList

/-!
# SAP request queues

`Ril_queue` of rilSocketQueue.h. Each call holds the queue's mutex from its first to its last step
and is one event; a dequeue of an empty queue waits, so that it is a step only where the queue holds
a request. A request is enqueued while it is not in the queue. The requests that were enqueued, that
dequeue has returned and that checkAndDequeue has freed are kept beside the queue, which never reads
them.
-/

namespace SapQueue

open LabelledRuns PointerList

/-- type and error are those of the message. -/
structure MsgHeader where
  token : ℤ
  type : ℤ
  id : ℤ
  error : ℤ
  deriving DecidableEq, Repr

/-- curr is the header the request points to. -/
structure SapSocketRequest where
  token : ℤ
  curr : MsgHeader
  pNext : ℕ
  socketId : ℤ
  deriving DecidableEq, Repr

/-- front, and the requests by their addresses. -/
structure RilQueue where
  front : ℕ
  requests : ℕ → SapSocketRequest

namespace RilQueue

variable (q : RilQueue)

def links : Links where
  head := q.front
  next cell := (q.requests cell).pNext

def setNext (request pointer : ℕ) : RilQueue :=
  { q with
    requests := Function.update q.requests request { q.requests request with pNext := pointer } }

/-- *ppCur = pointer -/
def store (place : Place) (pointer : ℕ) : RilQueue :=
  match place with
  | .head => { q with front := pointer }
  | .next cell => q.setNext cell pointer

def empty : Bool := q.front = 0

def enqueue (request : ℕ) : RilQueue :=
  if q.front = 0 then { q with front := request }.setNext request 0
  else { q.setNext request q.front with front := request }

/-- With the request it returns. -/
def dequeue : RilQueue × ℕ :=
  let temp := q.front
  if (q.requests q.front).pNext ≠ 0 then ({ q with front := (q.requests q.front).pNext }, temp)
  else ({ q with front := 0 }, temp)

def Matches (id token : ℤ) (request : ℕ) : Bool :=
  token = (q.requests request).token ∧ id = (q.requests request).curr.id

/-- With the request it frees; it returns whether there is one. fuel bounds the loop. -/
def checkAndDequeue (fuel : ℕ) (id token : ℤ) : RilQueue × Option ℕ :=
  match q.links.findP (q.Matches id token) fuel .head with
  | none => (q, none)
  | some ppCur =>
    let temp := q.links.load ppCur
    (q.store ppCur (q.requests temp).pNext, some temp)

section Fields

variable {q : RilQueue}

theorem setNext_requests (request pointer r : ℕ) :
    ∃ p, (q.setNext request pointer).requests r = { q.requests r with pNext := p } := by
  by_cases h : r = request
  · subst h
    exact ⟨pointer, Function.update_self ..⟩
  · exact ⟨(q.requests r).pNext, Function.update_of_ne h ..⟩

theorem enqueue_requests (request r : ℕ) :
    ∃ p, (q.enqueue request).requests r = { q.requests r with pNext := p } := by
  rw [enqueue]
  split
  · exact setNext_requests (q := { q with front := request }) request 0 r
  · exact setNext_requests request q.front r

theorem checkAndDequeue_requests (fuel : ℕ) (id token : ℤ) (r : ℕ) :
    ∃ p, (q.checkAndDequeue fuel id token).1.requests r = { q.requests r with pNext := p } := by
  rw [checkAndDequeue]
  split
  · exact ⟨(q.requests r).pNext, rfl⟩
  · rename_i place _
    cases place with
    | head => exact ⟨(q.requests r).pNext, rfl⟩
    | next cell => exact setNext_requests cell _ r

end Fields

/-- The requests from the front on. -/
structure Holds (q : RilQueue) (pending : List ℕ) : Prop where
  chain : Chain q.links.next q.front pending
  nodup : pending.Nodup

/-! ### The list that the queue hangs in -/

section Lists

variable {q : RilQueue} {pending : List ℕ}

theorem links_setNext (request pointer : ℕ) :
    (q.setNext request pointer).links.next = Function.update q.links.next request pointer := by
  funext cell
  by_cases h : cell = request
  · subst h
    simp [links, setNext]
  · simp [links, setNext, h]

theorem links_store (place : Place) (pointer : ℕ) :
    (q.store place pointer).links = q.links.store place pointer := by
  cases place with
  | head => rfl
  | next cell => exact congrArg (Links.mk q.front) (links_setNext cell pointer)

theorem Holds.enqueue (h : q.Holds pending) {request : ℕ} (hzero : request ≠ 0)
    (hfresh : request ∉ pending) : (q.enqueue request).Holds (request :: pending) := by
  have hnodup := List.nodup_cons.mpr ⟨hfresh, h.nodup⟩
  have pushed := h.chain.push hzero hfresh
  rw [RilQueue.enqueue]
  split
  · rename_i hempty
    refine ⟨?_, hnodup⟩
    rw [links_setNext, ← hempty]
    exact pushed
  · refine ⟨?_, hnodup⟩
    change Chain (q.setNext request q.front).links.next request (request :: pending)
    rw [links_setNext]
    exact pushed

theorem Holds.dequeue {request : ℕ} (h : q.Holds (request :: pending)) :
    q.dequeue.2 = request ∧ q.dequeue.1.Holds pending := by
  obtain ⟨⟨hfront, hzero, hrest⟩, hnodup⟩ := h
  have hnodup := (List.nodup_cons.mp hnodup).2
  rw [RilQueue.dequeue]
  split
  · refine ⟨hfront, ?_, hnodup⟩
    rw [hfront]
    exact hrest
  · rename_i hlast
    refine ⟨hfront, ?_, hnodup⟩
    have hnull : q.links.next request = 0 := by
      rw [← hfront]
      exact not_not.mp hlast
    rw [hnull] at hrest
    exact hrest

/-- The first request of that id and token is taken out and freed, if there is one. -/
theorem Holds.checkAndDequeue (h : q.Holds pending) {fuel : ℕ} (hfuel : pending.length ≤ fuel)
    (id token : ℤ) :
    (q.checkAndDequeue fuel id token).2 = pending.find? (q.Matches id token) ∧
      (q.checkAndDequeue fuel id token).1.Holds (pending.eraseP (q.Matches id token)) := by
  have hchain : Chain q.links.next (q.links.load .head) pending := h.chain
  rw [RilQueue.checkAndDequeue]
  cases hfirst : pending.find? (q.Matches id token) with
  | none =>
    rw [findP_none hchain hfirst]
    refine ⟨rfl, ?_⟩
    rwa [List.eraseP_of_forall_not (by simpa using hfirst)]
  | some cell =>
    have hcell := List.mem_of_find?_eq_some hfirst
    obtain ⟨place, hfind, found⟩ := find_some hchain h.nodup hfuel trivial hcell
    rw [findP_eq_find hchain hfirst, hfind]
    simp only [found.points]
    refine ⟨trivial, ?_, h.nodup.sublist List.eraseP_sublist⟩
    have unlinked := found.unlinked
    rw [Links.unlink, found.points, ← eraseP_eq_erase hfirst, ← links_store] at unlinked
    exact unlinked

end Lists

end RilQueue

structure State where
  queue : RilQueue
  enqueued : List ℕ
  dequeued : List ℕ
  freed : List ℕ

def initial (requests : ℕ → SapSocketRequest) : State := ⟨⟨0, requests⟩, [], [], []⟩

/-- The loop of checkAndDequeue turns at most once for each request that was ever enqueued. -/
def State.pending (s : State) : List ℕ := s.queue.links.cells s.enqueued.length .head

inductive Event where
  | enqueue (request : ℕ) (fields : SapSocketRequest)
  | dequeue
  | checkAndDequeue (id token : ℤ)

def Enabled (s : State) : Event → Prop
  | .enqueue request _ => request ≠ 0 ∧ request ∉ s.pending
  | .dequeue => s.queue.empty = false
  | .checkAndDequeue _ _ => True

instance (s : State) (e : Event) : Decidable (Enabled s e) := by
  cases e <;> simp only [Enabled] <;> infer_instance

/-- The caller has set the fields of the request it enqueues. -/
def next (s : State) : Event → State
  | .enqueue request fields =>
    let queue := { s.queue with requests := Function.update s.queue.requests request fields }
    { s with queue := queue.enqueue request, enqueued := s.enqueued ++ [request] }
  | .dequeue =>
    { s with queue := s.queue.dequeue.1, dequeued := s.dequeued ++ [s.queue.dequeue.2] }
  | .checkAndDequeue id token =>
    let r := s.queue.checkAndDequeue s.enqueued.length id token
    { s with queue := r.1, freed := s.freed ++ r.2.toList }

def system : System State Event := ⟨Enabled, next⟩

instance (s : State) (e : Event) : Decidable (system.Enabled s e) :=
  inferInstanceAs (Decidable (Enabled s e))

/-! ## Runs -/

/-- The pending requests are those that were enqueued, the latest first, without the ones that were
dequeued or freed. -/
structure Keeps (s : State) (pending : List ℕ) : Prop where
  holds : s.queue.Holds pending
  latest : pending.Sublist s.enqueued.reverse
  accounts : s.enqueued.Perm (s.dequeued ++ s.freed ++ pending)

theorem Keeps.length_le {s : State} {pending : List ℕ} (h : Keeps s pending) :
    pending.length ≤ s.enqueued.length := by
  have := h.latest.length_le
  rwa [List.length_reverse] at this

theorem Keeps.pending_eq {s : State} {pending : List ℕ} (h : Keeps s pending) :
    s.pending = pending := cells_eq h.holds.chain h.length_le

/-- Setting the fields of a request that is not in the queue leaves the list as it is. -/
theorem holds_fields {q : RilQueue} {pending : List ℕ} (h : q.Holds pending) {request : ℕ}
    (hfresh : request ∉ pending) (fields : SapSocketRequest) :
    RilQueue.Holds { q with requests := Function.update q.requests request fields } pending := by
  refine ⟨h.chain.congr fun cell hcell => ?_, h.nodup⟩
  have hne : cell ≠ request := by
    rintro rfl
    exact hfresh hcell
  simp only [RilQueue.links, Function.update_of_ne hne]

theorem keeps_enqueue {s : State} {pending : List ℕ} (h : Keeps s pending) {request : ℕ}
    (fields : SapSocketRequest) (he : Enabled s (.enqueue request fields)) :
    Keeps (next s (.enqueue request fields)) (request :: pending) := by
  obtain ⟨hzero, hfresh⟩ := he
  rw [h.pending_eq] at hfresh
  refine ⟨(holds_fields h.holds hfresh fields).enqueue hzero hfresh, ?_, ?_⟩
  · simp only [next, List.reverse_append, List.reverse_singleton, List.singleton_append]
    exact h.latest.cons_cons request
  · have front : (s.enqueued ++ [request]).Perm (request :: s.enqueued) :=
      List.perm_append_singleton _ _
    exact front.trans ((h.accounts.cons request).trans List.perm_middle.symm)

theorem keeps_dequeue {s : State} {request : ℕ} {pending : List ℕ}
    (h : Keeps s (request :: pending)) : Keeps (next s .dequeue) pending := by
  obtain ⟨hreturns, hholds⟩ := h.holds.dequeue
  refine ⟨hholds, (List.sublist_cons_self request pending).trans h.latest, ?_⟩
  have moved : (s.dequeued ++ s.freed ++ request :: pending).Perm
      (s.dequeued ++ [request] ++ s.freed ++ pending) := by
    rw [List.append_assoc, List.append_assoc, List.append_assoc]
    exact List.perm_middle.append_left s.dequeued
  simp only [next, hreturns]
  exact h.accounts.trans moved

theorem keeps_checkAndDequeue {s : State} {pending : List ℕ} (h : Keeps s pending)
    (id token : ℤ) :
    Keeps (next s (.checkAndDequeue id token)) (pending.eraseP (s.queue.Matches id token)) := by
  obtain ⟨hfrees, hholds⟩ := h.holds.checkAndDequeue h.length_le id token
  refine ⟨hholds, List.eraseP_sublist.trans h.latest, ?_⟩
  simp only [next, hfrees]
  cases hfirst : pending.find? (s.queue.Matches id token) with
  | none =>
    rw [List.eraseP_of_forall_not (by simpa using hfirst), Option.toList_none, List.append_nil]
    exact h.accounts
  | some cell =>
    have taken : pending.Perm (cell :: pending.erase cell) :=
      List.perm_cons_erase (List.mem_of_find?_eq_some hfirst)
    rw [eraseP_eq_erase hfirst, Option.toList_some, ← List.append_assoc, List.append_assoc]
    exact h.accounts.trans (taken.append_left _)

theorem nonempty_of_not_empty {s : State} {pending : List ℕ} (h : Keeps s pending)
    (he : s.queue.empty = false) : ∃ request rest, pending = request :: rest := by
  cases pending with
  | nil =>
    have hfront : s.queue.front = 0 := h.holds.chain
    simp [RilQueue.empty, hfront] at he
  | cons request rest => exact ⟨request, rest, rfl⟩

theorem keeps_next {s : State} (h : Keeps s s.pending) {e : Event} (he : Enabled s e) :
    Keeps (next s e) (next s e).pending := by
  have kept : ∃ pending, Keeps (next s e) pending := by
    cases e with
    | enqueue request fields => exact ⟨_, keeps_enqueue h fields he⟩
    | dequeue =>
      obtain ⟨request, rest, hpending⟩ := nonempty_of_not_empty h he
      rw [hpending] at h
      exact ⟨rest, keeps_dequeue h⟩
    | checkAndDequeue id token => exact ⟨_, keeps_checkAndDequeue h id token⟩
  obtain ⟨pending, hpending⟩ := kept
  rwa [hpending.pending_eq]

theorem keeps_initial (requests : ℕ → SapSocketRequest) :
    Keeps (initial requests) (initial requests).pending :=
  ⟨⟨rfl, List.nodup_nil⟩, List.nil_sublist _, List.Perm.nil⟩

/-- What the calls do to the pending requests, and that these are the ones enqueued and not yet
dequeued or freed, the latest first. -/
structure LastInFirstOut (s : State) : Prop where
  latest : s.pending.Sublist s.enqueued.reverse
  accounts : s.enqueued.Perm (s.dequeued ++ s.freed ++ s.pending)
  enqueues : ∀ request fields, Enabled s (.enqueue request fields) →
    (next s (.enqueue request fields)).pending = request :: s.pending
  dequeues : Enabled s .dequeue →
    s.pending = s.queue.dequeue.2 :: (next s .dequeue).pending
  checks : ∀ id token,
    (s.queue.checkAndDequeue s.enqueued.length id token).2 =
      s.pending.find? (s.queue.Matches id token) ∧
    (next s (.checkAndDequeue id token)).pending = s.pending.eraseP (s.queue.Matches id token)

theorem lastInFirstOut_of_keeps {s : State} (h : Keeps s s.pending) : LastInFirstOut s where
  latest := h.latest
  accounts := h.accounts
  enqueues := fun _ fields he => (keeps_enqueue h fields he).pending_eq
  dequeues := by
    intro he
    obtain ⟨request, rest, hpending⟩ := nonempty_of_not_empty h he
    rw [hpending] at h
    rw [hpending, h.holds.dequeue.1, (keeps_dequeue h).pending_eq]
  checks := fun id token => ⟨(h.holds.checkAndDequeue h.length_le id token).1,
    (keeps_checkAndDequeue h id token).pending_eq⟩

/-- In every state a run reaches the queue is a stack of the pending requests. -/
theorem queue_last_in_first_out {requests : ℕ → SapSocketRequest} {es : List Event}
    (legal : system.Legal (initial requests) es) :
    LastInFirstOut (system.run (initial requests) es) := by
  apply lastInFirstOut_of_keeps
  exact invariant_legal system (I := fun s => Keeps s s.pending)
    (fun s e h he => keeps_next h he) (keeps_initial requests) legal

/-- Two messages of one id, with the tokens 1 and 2. -/
def message (token : ℤ) : SapSocketRequest := ⟨token, ⟨token, 0, 1, 0⟩, 0, 0⟩

def twoMessages : List Event :=
  [.enqueue 1 (message 1), .enqueue 2 (message 2), .checkAndDequeue 1 1, .enqueue 1 (message 1),
    .dequeue, .dequeue]

theorem queue_last_in_first_out_two :
    system.Legal (initial fun _ => message 0) twoMessages ∧
      LastInFirstOut (system.run (initial fun _ => message 0) twoMessages) :=
  ⟨by decide, queue_last_in_first_out (by decide)⟩

/-- A queue would return the requests in the order they were enqueued in. -/
theorem dequeue_not_first_in_first_out :
    ¬ ∀ es, system.Legal (initial fun _ => message 0) es →
      (system.run (initial fun _ => message 0) es).dequeued.Sublist
        (system.run (initial fun _ => message 0) es).enqueued := by
  intro h
  have two := h [.enqueue 1 (message 1), .enqueue 2 (message 2), .dequeue, .dequeue] (by decide)
  exact absurd two (by decide)

end SapQueue
