import VendorMediatek.RilPending
import VendorMediatek.LabelledRuns

/-!
# The lifecycle of a request

Runs of `addRequestToList`, `RIL_onRequestAck` and `RIL_onRequestComplete` in any order. A token
stands for the latest request at its address: no completion that was meant for an earlier one comes
once the address is in use again.
-/

namespace RilPending

open PointerList LabelledRuns
open RilChannelQueue (RILSocketId)
open RilCommandTable (CommandInfo sCommands)

/-! ## What a history tells of the requests -/

structure Request where
  serial : ℤ
  slotId : RILSocketId
  request : Int32
  acked : Bool
  birth : ℕ
  deriving DecidableEq, Repr

inductive Event where
  | addRequestToList (serial : ℤ) (slotId : RILSocketId) (request : Int32) (addr : ℕ)
  | rilOnRequestAck (t : ℕ)
  | rilOnRequestComplete (t : ℕ) (x : Completion)
  -- what is not a request block belongs to others
  | heapWritten (addr : ℕ) (b : RequestInfo)

/-- The requests that were added and not completed since, by their tokens, and how many were
added. -/
structure History where
  outstanding : ℕ → Option Request
  births : ℕ

namespace History

variable (h : History)

def add (serial : ℤ) (slotId : RILSocketId) (request : Int32) (addr : ℕ) : History :=
  if addr = 0 then h
  else
    let r : Request := ⟨serial, slotId, request, false, h.births⟩
    ⟨Function.update h.outstanding addr (some r), h.births + 1⟩

def ack (t : ℕ) : History :=
  let marked := (h.outstanding t).map fun r => { r with acked := true }
  { h with outstanding := Function.update h.outstanding t marked }

def complete (t : ℕ) : History :=
  { h with outstanding := Function.update h.outstanding t none }

variable {h}

theorem complete_some {t a : ℕ} {r : Request} :
    (h.complete t).outstanding a = some r ↔ a ≠ t ∧ h.outstanding a = some r := by
  by_cases ha : a = t
  · subst ha
    simp [complete]
  · simp [complete, ha]

theorem ack_some {t a : ℕ} {r : Request} :
    (h.ack t).outstanding a = some r ↔
      ∃ r', h.outstanding a = some r' ∧ r = if a = t then { r' with acked := true } else r' := by
  by_cases ha : a = t
  · subst ha
    simp [ack, eq_comm]
  · simp [ack, ha]

theorem add_some {serial : ℤ} {slotId : RILSocketId} {request : Int32} {addr a : ℕ} {r : Request}
    (haddr : addr ≠ 0) : (h.add serial slotId request addr).outstanding a = some r ↔
      (a = addr ∧ r = ⟨serial, slotId, request, false, h.births⟩) ∨
        (a ≠ addr ∧ h.outstanding a = some r) := by
  by_cases ha : a = addr
  · subst ha
    simp [add, haddr, eq_comm]
  · simp [add, haddr, ha]

variable (h)

def remember : Event → History
  | .addRequestToList serial slotId request addr => h.add serial slotId request addr
  | .rilOnRequestAck t => h.ack t
  | .rilOnRequestComplete t _ => h.complete t
  | .heapWritten _ _ => h

end History

def history (es : List Event) : History := es.foldl History.remember ⟨fun _ => none, 0⟩

/-! ## The lists and the history -/

/-- A block holds a request. -/
structure Describes (c : Config) (b : RequestInfo) (r : Request) : Prop where
  token : b.token = r.serial
  pCI : b.pCI = commandInfo c r.request
  cancelled : b.cancelled = 0
  isLocal : b.isLocal = if r.serial = -1 then 1 else 0
  socketId : b.socketId = r.slotId
  wasAckSent : b.wasAckSent = if r.acked then 1 else 0
  birth : b.birth = r.birth

/-- The lists in the heap hold the outstanding requests of their slots. -/
structure Refines (c : Config) (s : State) (h : History) (lists : RILSocketId → List ℕ) :
    Prop where
  chain : ∀ slot, Chain (s.links slot).next ((s.links slot).load .head) (lists slot)
  nodup : ∀ slot, (lists slot).Nodup
  mem : ∀ slot t, t ∈ lists slot ↔ ∃ r, h.outstanding t = some r ∧ r.slotId = slot
  block : ∀ t r, h.outstanding t = some r → Describes c (s.heap t) r
  live : ∀ t r, h.outstanding t = some r → t ∈ s.live
  births : s.births = h.births

section Blocks

variable {c : Config} {s : State} {h : History} {lists : RILSocketId → List ℕ}

theorem links_setBlock (s : State) (addr : ℕ) (b : RequestInfo) (slot : RILSocketId) :
    (s.setBlock addr b).links slot =
      ⟨s.sPendingRequests slot, Function.update (s.links slot).next addr b.pNext⟩ := by
  simp only [State.links, State.setBlock, Links.mk.injEq, true_and]
  funext cell
  by_cases hcell : cell = addr
  · subst hcell
    simp only [Function.update_self]
  · simp only [Function.update_of_ne hcell]

theorem links_store (s : State) (slot : RILSocketId) (place : Place) (pointer : ℕ) :
    (s.store slot place pointer).links slot = (s.links slot).store place pointer := by
  cases place with
  | head =>
    simp only [State.store, State.links, Links.store, Function.update_self]
  | next cell => exact links_setBlock s cell _ slot

theorem links_store_other (s : State) {slot other : RILSocketId} (hne : other ≠ slot) (place : Place)
    (pointer : ℕ) : ((s.store slot place pointer).links other).head = (s.links other).head ∧
      ((s.store slot place pointer).links other).next =
        ((s.links slot).store place pointer).next := by
  cases place with
  | head =>
    refine ⟨Function.update_of_ne hne _ _, rfl⟩
  | next cell =>
    rw [State.store, links_setBlock]
    exact ⟨rfl, rfl⟩

theorem Refines.fuel (hr : Refines c s h lists) (slot : RILSocketId) :
    (lists slot).length ≤ s.live.length := by
  apply List.Subperm.length_le
  apply (hr.nodup slot).subperm
  intro t ht
  obtain ⟨r, hout, _⟩ := (hr.mem slot t).mp ht
  exact hr.live t r hout

theorem Refines.ne_zero (hr : Refines c s h lists) {t : ℕ} {r : Request}
    (hout : h.outstanding t = some r) : t ≠ 0 :=
  (hr.chain r.slotId).ne_zero ((hr.mem r.slotId t).mpr ⟨r, hout, rfl⟩)

theorem Refines.apart (hr : Refines c s h lists) {slot other : RILSocketId} (hne : other ≠ slot) :
    ∀ t ∈ lists slot, t ∉ lists other := by
  intro t ht hother
  obtain ⟨r, hout, rfl⟩ := (hr.mem slot t).mp ht
  obtain ⟨r', hout', rfl⟩ := (hr.mem other t).mp hother
  obtain rfl := Option.some.inj (hout.symm.trans hout')
  exact hne rfl

theorem Refines.fresh (hr : Refines c s h lists) {t : ℕ} (hout : h.outstanding t = none)
    (slot : RILSocketId) : t ∉ lists slot := by
  intro hmem
  obtain ⟨r, hsome, _⟩ := (hr.mem slot t).mp hmem
  rw [hout] at hsome
  cases hsome

theorem Refines.not_outstanding (hr : Refines c s h lists) {addr : ℕ} (hfree : addr ∉ s.live) :
    h.outstanding addr = none := by
  rw [Option.eq_none_iff_forall_not_mem]
  exact fun r hout => hfree (hr.live addr r hout)

/-! ## The functions -/

/-- A token that is not outstanding is not found, whatever is read at its address. -/
theorem check_none (hr : Refines c s h lists) {t : ℕ} (hout : h.outstanding t = none)
    (isAck : Bool) : checkAndDequeueRequestInfoIfAck s t isAck = (false, s) := by
  unfold checkAndDequeueRequestInfoIfAck
  split
  · rfl
  · simp only [find_none (hr.chain _) (hr.fresh hout _)]

theorem check_ack (hr : Refines c s h lists) {t : ℕ} {r : Request}
    (hout : h.outstanding t = some r) : checkAndDequeueRequestInfoIfAck s t true =
      (true, s.setBlock t { s.heap t with wasAckSent := 1 }) := by
  have hslot := (hr.block t r hout).socketId
  obtain ⟨place, hfind, _⟩ := find_some (hr.chain r.slotId) (hr.nodup _) (hr.fuel _) trivial
    ((hr.mem r.slotId t).mpr ⟨r, hout, rfl⟩)
  unfold checkAndDequeueRequestInfoIfAck
  rw [if_neg (hr.ne_zero hout)]
  simp only [hslot, hfind, if_true]

/-- Nothing but the blocks, the heads and the allocations matters to the lists. -/
theorem Refines.congr (hr : Refines c s h lists) {s' : State} (hheap : s'.heap = s.heap)
    (hheads : s'.sPendingRequests = s.sPendingRequests) (hlive : s'.live = s.live)
    (hbirths : s'.births = s.births) : Refines c s' h lists where
  chain slot := by
    have hlinks : s'.links slot = s.links slot := by
      simp only [State.links, hheap, hheads]
    rw [hlinks]
    exact hr.chain slot
  nodup := hr.nodup
  mem := hr.mem
  block t r hout := by
    rw [hheap]
    exact hr.block t r hout
  live t r hout := by
    rw [hlive]
    exact hr.live t r hout
  births := hbirths.trans hr.births

/-- A store leaves everything but a next pointer or a head. -/
structure Stored (s s' : State) : Prop where
  block : ∀ a, ∃ pointer, s'.heap a = { s.heap a with pNext := pointer }
  live : s'.live = s.live
  deviceId : s'.deviceId = s.deviceId
  responses : s'.responses = s.responses
  acknowledged : s'.acknowledged = s.acknowledged
  grabs : s'.grabs = s.grabs
  births : s'.births = s.births
  answered : s'.answered = s.answered
  crashed : s'.crashed = s.crashed

theorem stored_store (s : State) (slot : RILSocketId) (place : Place) (pointer : ℕ) :
    Stored s (s.store slot place pointer) := by
  cases place with
  | head => exact ⟨fun a => ⟨(s.heap a).pNext, rfl⟩, rfl, rfl, rfl, rfl, rfl, rfl, rfl, rfl⟩
  | next cell =>
    refine ⟨fun a => ?_, rfl, rfl, rfl, rfl, rfl, rfl, rfl, rfl⟩
    by_cases ha : a = cell
    · subst ha
      exact ⟨pointer, Function.update_self ..⟩
    · exact ⟨(s.heap a).pNext, Function.update_of_ne ha ..⟩

theorem Stored.describes {s s' : State} (hs : Stored s s') {a : ℕ} {r : Request}
    (hd : Describes c (s.heap a) r) : Describes c (s'.heap a) r := by
  obtain ⟨pointer, hblock⟩ := hs.block a
  rw [hblock]
  exact ⟨hd.token, hd.pCI, hd.cancelled, hd.isLocal, hd.socketId, hd.wasAckSent, hd.birth⟩

/-- The lists without a request hold those outstanding after its completion. -/
theorem Refines.mem_complete (hr : Refines c s h lists) {t : ℕ} {r : Request}
    (hout : h.outstanding t = some r) (slot : RILSocketId) (a : ℕ) :
    a ∈ Function.update lists r.slotId ((lists r.slotId).erase t) slot ↔
      ∃ r', (h.complete t).outstanding a = some r' ∧ r'.slotId = slot := by
  by_cases heq : slot = r.slotId
  · subst heq
    rw [Function.update_self, (hr.nodup _).mem_erase_iff, hr.mem]
    constructor
    · rintro ⟨ha, r', hout', hslot'⟩
      exact ⟨r', History.complete_some.mpr ⟨ha, hout'⟩, hslot'⟩
    · rintro ⟨r', hout', hslot'⟩
      obtain ⟨ha, hout'⟩ := History.complete_some.mp hout'
      exact ⟨ha, r', hout', hslot'⟩
  · rw [Function.update_of_ne heq, hr.mem]
    constructor
    · rintro ⟨r', hout', rfl⟩
      refine ⟨r', History.complete_some.mpr ⟨?_, hout'⟩, rfl⟩
      rintro rfl
      exact heq (congrArg _ (Option.some.inj (hout'.symm.trans hout)))
    · rintro ⟨r', hout', hslot'⟩
      exact ⟨r', (History.complete_some.mp hout').2, hslot'⟩

theorem check_dequeue (hr : Refines c s h lists) {t : ℕ} {r : Request}
    (hout : h.outstanding t = some r) :
    ∃ s', checkAndDequeueRequestInfoIfAck s t false = (true, s') ∧ Stored s s' ∧
      Refines c s' (h.complete t)
        (Function.update lists r.slotId ((lists r.slotId).erase t)) := by
  have hslot := (hr.block t r hout).socketId
  obtain ⟨place, hfind, hfound⟩ := find_some (hr.chain r.slotId) (hr.nodup _) (hr.fuel _) trivial
    ((hr.mem r.slotId t).mpr ⟨r, hout, rfl⟩)
  have hstored := stored_store s r.slotId place
    ((s.links r.slotId).next ((s.links r.slotId).load place))
  have hlinks := links_store s r.slotId place
    ((s.links r.slotId).next ((s.links r.slotId).load place))
  refine ⟨_, ?_, hstored, ?_⟩
  · unfold checkAndDequeueRequestInfoIfAck
    rw [if_neg (hr.ne_zero hout)]
    simp only [hslot, hfind, Bool.false_eq_true, if_false]
  · constructor
    · intro slot
      by_cases heq : slot = r.slotId
      · subst heq
        rw [hlinks, Function.update_self]
        exact hfound.unlinked
      · obtain ⟨hhead, hnext⟩ := links_store_other s heq place
          ((s.links r.slotId).next ((s.links r.slotId).load place))
        rw [hnext, Function.update_of_ne heq]
        change Chain _ ((State.store s _ _ _).links slot).head _
        rw [hhead]
        exact hfound.frame (hr.chain slot) (hr.apart heq)
    · intro slot
      by_cases heq : slot = r.slotId
      · subst heq
        rw [Function.update_self]
        exact (hr.nodup _).erase _
      · rw [Function.update_of_ne heq]
        exact hr.nodup slot
    · exact hr.mem_complete hout
    · intro a r' hout'
      exact hstored.describes (hr.block a r' (History.complete_some.mp hout').2)
    · intro a r' hout'
      rw [hstored.live]
      exact hr.live a r' (History.complete_some.mp hout').2
    · rw [hstored.births]
      exact hr.births

theorem setBlock_refines (hr : Refines c s h lists) {t : ℕ} (hout : h.outstanding t = none)
    (b : RequestInfo) : Refines c (s.setBlock t b) h lists := by
  have hne : ∀ a r, h.outstanding a = some r → a ≠ t := by
    rintro a r hsome rfl
    rw [hout] at hsome
    cases hsome
  constructor
  · intro slot
    rw [links_setBlock]
    exact (hr.chain slot).update (hr.fresh hout slot) _
  · exact hr.nodup
  · exact hr.mem
  · intro a r hsome
    change Describes c (Function.update s.heap t b a) r
    rw [Function.update_of_ne (hne a r hsome)]
    exact hr.block a r hsome
  · exact hr.live
  · exact hr.births

theorem free_refines (hr : Refines c s h lists) {t : ℕ} (hout : h.outstanding t = none) :
    Refines c (free s t) h lists where
  chain := hr.chain
  nodup := hr.nodup
  mem := hr.mem
  block := hr.block
  live a r hsome := by
    apply (List.mem_erase_of_ne ?_).mpr (hr.live a r hsome)
    rintro rfl
    rw [hout] at hsome
    cases hsome
  births := hr.births

theorem setAcked_refines (hr : Refines c s h lists) {t : ℕ} {r : Request}
    (hout : h.outstanding t = some r) :
    Refines c (s.setBlock t { s.heap t with wasAckSent := 1 }) (h.ack t) lists := by
  have hlinks : ∀ slot,
      (s.setBlock t { s.heap t with wasAckSent := 1 }).links slot = s.links slot := by
    intro slot
    rw [links_setBlock]
    exact congrArg (Links.mk _) (Function.update_eq_self ..)
  constructor
  · intro slot
    rw [hlinks]
    exact hr.chain slot
  · exact hr.nodup
  · intro slot a
    rw [hr.mem]
    constructor
    · rintro ⟨r', hout', rfl⟩
      refine ⟨_, History.ack_some.mpr ⟨r', hout', rfl⟩, ?_⟩
      split <;> rfl
    · rintro ⟨r', hout', rfl⟩
      obtain ⟨r'', hout'', rfl⟩ := History.ack_some.mp hout'
      refine ⟨r'', hout'', ?_⟩
      split <;> rfl
  · intro a r' hout'
    obtain ⟨r'', hout'', rfl⟩ := History.ack_some.mp hout'
    have hd := hr.block a r'' hout''
    change Describes c (Function.update s.heap t _ a) _
    by_cases ha : a = t
    · subst ha
      rw [Function.update_self, if_pos rfl]
      exact ⟨hd.token, hd.pCI, hd.cancelled, hd.isLocal, hd.socketId, rfl, hd.birth⟩
    · rw [Function.update_of_ne ha, if_neg ha]
      exact hd
  · intro a r' hout'
    obtain ⟨r'', hout'', _⟩ := History.ack_some.mp hout'
    exact hr.live a r'' hout''
  · exact hr.births

theorem ack_refines (hr : Refines c s h lists) (t : ℕ) :
    Refines c (rilOnRequestAck s t) (h.ack t) lists := by
  unfold rilOnRequestAck
  cases hout : h.outstanding t with
  | none =>
    have hsame : h.ack t = h := by
      simp only [History.ack, hout, Option.map_none]
      rw [← hout, Function.update_eq_self]
    simp only [check_none hr hout, if_true, hsame]
    exact hr
  | some r =>
    simp only [check_ack hr hout, Bool.true_eq_false, if_false]
    split
    · exact (setAcked_refines hr hout).congr rfl rfl rfl rfl
    · exact setAcked_refines hr hout

/-- The lists with a request in front hold those outstanding after it was added. -/
theorem Refines.mem_add (hr : Refines c s h lists) (serial : ℤ) (slotId : RILSocketId)
    {request : Int32} {addr : ℕ} (haddr : addr ≠ 0) (hnone : h.outstanding addr = none)
    (slot : RILSocketId) (a : ℕ) : a ∈ Function.update lists slotId (addr :: lists slotId) slot ↔
      ∃ r, (h.add serial slotId request addr).outstanding a = some r ∧ r.slotId = slot := by
  have hold : a ∈ lists slot ↔ ∃ r, (a ≠ addr ∧ h.outstanding a = some r) ∧ r.slotId = slot := by
    rw [hr.mem]
    constructor
    · rintro ⟨r, hout, hslot⟩
      refine ⟨r, ⟨?_, hout⟩, hslot⟩
      rintro rfl
      rw [hnone] at hout
      cases hout
    · rintro ⟨r, ⟨_, hout⟩, hslot⟩
      exact ⟨r, hout, hslot⟩
  simp only [History.add_some haddr, or_and_right, exists_or, ← hold]
  by_cases heq : slot = slotId
  · subst heq
    rw [Function.update_self, List.mem_cons]
    apply or_congr_left
    constructor
    · intro ha
      exact ⟨_, ⟨ha, rfl⟩, rfl⟩
    · rintro ⟨r, ⟨ha, _⟩, _⟩
      exact ha
  · rw [Function.update_of_ne heq]
    constructor
    · exact Or.inr
    · rintro (⟨r, ⟨_, rfl⟩, hslot⟩ | hmem)
      · exact absurd hslot.symm heq
      · exact hmem

/-- The new block stands in front of the blocks of its slot, and the other slots are as before. -/
theorem Refines.chain_add (hr : Refines c s h lists) {slotId : RILSocketId} {addr : ℕ}
    (haddr : addr ≠ 0) (hfresh : ∀ slot, addr ∉ lists slot) (block : RequestInfo)
    (hnext : block.pNext = s.sPendingRequests slotId) (slot : RILSocketId) :
    Chain ((s.setBlock addr block).links slot).next
      (Function.update s.sPendingRequests slotId addr slot)
      (Function.update lists slotId (addr :: lists slotId) slot) := by
  have hrest := (hr.chain slot).update (hfresh slot) (s.sPendingRequests slotId)
  rw [links_setBlock, hnext]
  by_cases heq : slot = slotId
  · subst heq
    rw [Function.update_self, Function.update_self]
    refine ⟨rfl, haddr, ?_⟩
    dsimp only
    rw [Function.update_self]
    exact hrest
  · rw [Function.update_of_ne heq, Function.update_of_ne heq]
    exact hrest

theorem Refines.nodup_add (hr : Refines c s h lists) (slotId : RILSocketId) {addr : ℕ}
    (hfresh : ∀ slot, addr ∉ lists slot) (slot : RILSocketId) :
    (Function.update lists slotId (addr :: lists slotId) slot).Nodup := by
  by_cases heq : slot = slotId
  · subst heq
    rw [Function.update_self]
    exact List.nodup_cons.mpr ⟨hfresh slot, hr.nodup slot⟩
  · rw [Function.update_of_ne heq]
    exact hr.nodup slot

theorem add_refines (hr : Refines c s h lists) (serial : ℤ) (slotId : RILSocketId)
    {request : Int32} {addr : ℕ} (hfree : addr ∉ s.live) : ∃ lists',
      Refines c (addRequestToList c s serial slotId request addr)
        (h.add serial slotId request addr) lists' := by
  by_cases haddr : addr = 0
  · subst haddr
    exact ⟨lists, hr⟩
  have hnone := hr.not_outstanding hfree
  have hfresh := hr.fresh hnone
  have hadd : addRequestToList c s serial slotId request addr = { s.setBlock addr {
      token := serial
      pCI := commandInfo c request
      pNext := s.sPendingRequests slotId
      cancelled := 0
      isLocal := if serial = -1 then 1 else 0
      socketId := slotId
      wasAckSent := 0
      birth := s.births } with
    live := addr :: s.live
    births := s.births + 1
    sPendingRequests := Function.update s.sPendingRequests slotId addr } := if_neg haddr
  rw [hadd]
  refine ⟨Function.update lists slotId (addr :: lists slotId), ?_⟩
  constructor
  · exact fun slot => hr.chain_add haddr hfresh _ rfl slot
  · exact hr.nodup_add slotId hfresh
  · exact hr.mem_add serial slotId haddr hnone
  · intro a r hout
    rcases (History.add_some haddr).mp hout with ⟨rfl, rfl⟩ | ⟨ha, hout⟩
    · change Describes c (Function.update s.heap a _ a) _
      rw [Function.update_self]
      exact ⟨rfl, rfl, rfl, rfl, rfl, rfl, hr.births⟩
    · change Describes c (Function.update s.heap addr _ a) _
      rw [Function.update_of_ne ha]
      exact hr.block a r hout
  · intro a r hout
    rcases (History.add_some haddr).mp hout with ⟨rfl, _⟩ | ⟨_, hout⟩
    · exact List.mem_cons_self
    · exact List.mem_cons_of_mem _ (hr.live a r hout)
  · simp only [History.add, haddr, if_false, hr.births]

/-- What RIL_onRequestComplete answers to a request. -/
def answer (c : Config) (r : Request) (x : Completion) : List Response :=
  if r.serial = -1 ∨ (commandInfo c r.request).responseFunction = none then []
  else
    let identity := (commandInfo c r.request).requestNumber = rilRequestDeviceIdentity
    [{ slotId := r.slotId
       responseType := if 13 ≤ c.version ∧ r.acked = true then .solicitedAckExp else .solicited
       token := r.serial
       e := if identity then rilESuccess else x.e
       response := if identity then .deviceId r.slotId else .pointer x.response
       responselen := if identity then 4 * c.sizeofPointer else x.responselen }]

theorem responseOf_eq {b : RequestInfo} {r : Request} (hd : Describes c b r) (x : Completion)
    (hserial : r.serial ≠ -1) (hcommand : (commandInfo c r.request).responseFunction ≠ none) :
    [responseOf c b x] = answer c r x := by
  have hacked : (13 ≤ c.version ∧ b.wasAckSent = 1) ↔ (13 ≤ c.version ∧ r.acked = true) := by
    rw [hd.wasAckSent]
    cases r.acked <;> simp
  simp only [answer, hserial, hcommand, or_self, if_false, responseOf,
    responseType, hd.socketId, hd.token, hd.pCI, hacked]

theorem respond_frame (s : State) (b : RequestInfo) (x : Response) :
    (s.respond b x).heap = s.heap ∧ (s.respond b x).sPendingRequests = s.sPendingRequests ∧
      (s.respond b x).live = s.live ∧ (s.respond b x).births = s.births := by
  unfold State.respond
  split <;> exact ⟨rfl, rfl, rfl, rfl⟩

theorem completeLocal_frame (s : State) (b : RequestInfo) (response : ℕ) :
    (completeLocal s b response).heap = s.heap ∧
      (completeLocal s b response).sPendingRequests = s.sPendingRequests ∧
      (completeLocal s b response).live = s.live ∧
      (completeLocal s b response).births = s.births ∧
      (completeLocal s b response).responses = s.responses ∧
      (completeLocal s b response).answered = s.answered := by
  unfold completeLocal
  dsimp only
  split
  · exact ⟨rfl, rfl, rfl, rfl, rfl, rfl⟩
  · split <;> exact ⟨rfl, rfl, rfl, rfl, rfl, rfl⟩

/-- What a completion does: nothing for a token that is not outstanding, else the request is
answered, taken out of its list and freed. -/
theorem complete_refines (hr : Refines c s h lists) (t : ℕ) (x : Completion) :
    ∃ lists', Refines c (rilOnRequestComplete c s t x) (h.complete t) lists' := by
  unfold rilOnRequestComplete
  cases hout : h.outstanding t with
  | none =>
    have hsame : h.complete t = h := by
      simp only [History.complete]
      rw [← hout, Function.update_eq_self]
    simp only [check_none hr hout, if_true, hsame]
    exact ⟨lists, hr⟩
  | some r =>
    obtain ⟨s', hcheck, hstored, hr'⟩ := check_dequeue hr hout
    have hgone : (h.complete t).outstanding t = none := Function.update_self ..
    simp only [hcheck, Bool.true_eq_false, if_false]
    refine ⟨Function.update lists r.slotId ((lists r.slotId).erase t), ?_⟩
    split
    · obtain ⟨hheap, hheads, hlive, hbirths, _, _⟩ := completeLocal_frame s' (s'.heap t) x.response
      exact free_refines (hr'.congr hheap hheads hlive hbirths) hgone
    · split
      · obtain ⟨hheap, hheads, hlive, hbirths⟩ := respond_frame { s' with
          grabs := if responseType c (s'.heap t) = .solicitedAckExp then s'.grabs + 1 else s'.grabs }
          (s'.heap t) (responseOf c (s'.heap t) x)
        exact free_refines (hr'.congr hheap hheads hlive hbirths) hgone
      · exact free_refines hr' hgone

theorem complete_unknown (hr : Refines c s h lists) {t : ℕ} (hout : h.outstanding t = none)
    (x : Completion) : rilOnRequestComplete c s t x = s := by
  unfold rilOnRequestComplete
  simp only [check_none hr hout, if_true]

/-- A completion answers its request and no other, with what is in its block. -/
theorem complete_answers (hr : Refines c s h lists) {t : ℕ} {r : Request}
    (hout : h.outstanding t = some r) (x : Completion) :
    (rilOnRequestComplete c s t x).responses = answer c r x ++ s.responses ∧
      (rilOnRequestComplete c s t x).answered =
        (answer c r x).map (fun _ => r.birth) ++ s.answered := by
  obtain ⟨s', hcheck, hstored, _⟩ := check_dequeue hr hout
  have hd := hstored.describes (hr.block t r hout)
  unfold rilOnRequestComplete
  simp only [hcheck, Bool.true_eq_false, if_false, hd.isLocal, hd.cancelled]
  by_cases hserial : r.serial = -1
  · have hnone : answer c r x = [] := if_pos (Or.inl hserial)
    obtain ⟨_, _, _, _, hresponses, hanswered⟩ := completeLocal_frame s' (s'.heap t) x.response
    rw [if_pos hserial, if_pos Int.one_pos, hnone]
    exact ⟨hresponses.trans hstored.responses, hanswered.trans hstored.answered⟩
  · rw [if_neg hserial, if_neg (Int.lt_irrefl 0), if_pos trivial]
    unfold State.respond
    rw [hd.pCI]
    by_cases hcommand : (commandInfo c r.request).responseFunction = none
    · have hnone : answer c r x = [] := if_pos (Or.inr hcommand)
      rw [hcommand, if_neg (by decide), hnone]
      exact ⟨hstored.responses, hstored.answered⟩
    · rw [if_pos (Option.isSome_iff_ne_none.mpr hcommand), ← responseOf_eq hd x hserial hcommand]
      refine ⟨congrArg _ hstored.responses, ?_⟩
      change (s'.heap t).birth :: s'.answered = r.birth :: s.answered
      rw [hd.birth, hstored.answered]

theorem ack_responses (s : State) (t : ℕ) : (rilOnRequestAck s t).responses = s.responses ∧
    (rilOnRequestAck s t).answered = s.answered := by
  have hcheck : (checkAndDequeueRequestInfoIfAck s t true).2.responses = s.responses ∧
      (checkAndDequeueRequestInfoIfAck s t true).2.answered = s.answered := by
    unfold checkAndDequeueRequestInfoIfAck
    split
    · exact ⟨rfl, rfl⟩
    · dsimp only
      split <;> exact ⟨rfl, rfl⟩
  unfold rilOnRequestAck
  dsimp only
  split
  · exact hcheck
  · split
    · exact hcheck
    · exact hcheck

theorem add_responses (c : Config) (s : State) (serial : ℤ) (slotId : RILSocketId)
    (request : Int32) (addr : ℕ) :
    (addRequestToList c s serial slotId request addr).responses = s.responses ∧
      (addRequestToList c s serial slotId request addr).answered = s.answered := by
  unfold addRequestToList
  split <;> exact ⟨rfl, rfl⟩

end Blocks

/-! ## Runs -/

def next (c : Config) (s : State) : Event → State
  | .addRequestToList serial slotId request addr => addRequestToList c s serial slotId request addr
  | .rilOnRequestAck t => rilOnRequestAck s t
  | .rilOnRequestComplete t x => rilOnRequestComplete c s t x
  | .heapWritten addr b => s.setBlock addr b

/-- calloc comes back with a block that is not in use, and the code of a request that gets one leads
into s_commands. -/
def system (c : Config) : System State Event where
  Enabled s e := match e with
    | .addRequestToList _ _ request addr => addr ∉ s.live ∧ (addr ≠ 0 → (entry request).isSome)
    | .heapWritten addr _ => addr ∉ s.live
    | _ => True
  next := next c

/-- The cells of the list of a slot. -/
def State.pending (s : State) (slot : RILSocketId) : List ℕ :=
  (s.links slot).cells s.live.length .head

/-- What an event answers by the history before it. -/
def answers (c : Config) (h : History) : Event → List Response
  | .rilOnRequestComplete t x => (h.outstanding t).elim [] fun r => answer c r x
  | _ => []

section Runs

variable {c : Config} {s : State} {h : History} {lists : RILSocketId → List ℕ}

theorem next_refines (hr : Refines c s h lists) {e : Event} (enabled : (system c).Enabled s e) :
    ∃ lists', Refines c (next c s e) (h.remember e) lists' := by
  cases e with
  | addRequestToList serial slotId request addr => exact add_refines hr serial slotId enabled.1
  | rilOnRequestAck t => exact ⟨lists, ack_refines hr t⟩
  | rilOnRequestComplete t x => exact complete_refines hr t x
  | heapWritten addr b =>
    exact ⟨lists, setBlock_refines hr (hr.not_outstanding enabled) b⟩

theorem next_responses (hr : Refines c s h lists) (e : Event) :
    (next c s e).responses = answers c h e ++ s.responses := by
  cases e with
  | addRequestToList serial slotId request addr => exact (add_responses c s _ _ _ _).1
  | rilOnRequestAck t => exact (ack_responses s t).1
  | rilOnRequestComplete t x =>
    simp only [answers]
    cases hout : h.outstanding t with
    | none => exact congrArg _ (complete_unknown hr hout x)
    | some r => exact (complete_answers hr hout x).1
  | heapWritten addr b => rfl

theorem initial_refines (c : Config) (heap : ℕ → RequestInfo) :
    Refines c (initial heap) (history []) fun _ => [] := by
  constructor
  · exact fun _ => rfl
  · exact fun _ => List.nodup_nil
  · intro slot t
    simp [history]
  · rintro t r ⟨⟩
  · rintro t r ⟨⟩
  · rfl

theorem run_refines (c : Config) {heap : ℕ → RequestInfo} {es : List Event}
    (legal : (system c).Legal (initial heap) es) :
    ∃ lists, Refines c ((system c).run (initial heap) es) (history es) lists := by
  induction es using List.reverseRecOn with
  | nil => exact ⟨_, initial_refines c heap⟩
  | append_singleton es e ih =>
    obtain ⟨hearly, hlast⟩ := (along_append (system c) _ _ _ _).mp legal
    obtain ⟨lists, hr⟩ := ih hearly
    obtain ⟨lists', hr'⟩ := next_refines hr hlast.1
    refine ⟨lists', ?_⟩
    unfold history System.run at hr' ⊢
    rw [List.foldl_append, List.foldl_append]
    exact hr'

/-- The codes of the outstanding requests lead into s_commands. -/
def History.Entered (h : History) : Prop :=
  ∀ t r, h.outstanding t = some r → (entry r.request).isSome

theorem History.Entered.remember {h : History} (entered : h.Entered) {s : State} {e : Event}
    (enabled : (system c).Enabled s e) : (h.remember e).Entered := by
  intro t r hout
  cases e with
  | addRequestToList serial slotId request addr =>
    by_cases haddr : addr = 0
    · subst haddr
      exact entered t r hout
    · rcases (add_some haddr).mp hout with ⟨_, rfl⟩ | ⟨_, hout⟩
      · exact enabled.2 haddr
      · exact entered t r hout
  | rilOnRequestAck t' =>
    obtain ⟨r', hout', rfl⟩ := ack_some.mp hout
    rw [apply_ite Request.request, ite_self]
    exact entered t r' hout'
  | rilOnRequestComplete t' x => exact entered t r (complete_some.mp hout).2
  | heapWritten addr b => exact entered t r hout

theorem run_entered (c : Config) {heap : ℕ → RequestInfo} {es : List Event}
    (legal : (system c).Legal (initial heap) es) : (history es).Entered := by
  induction es using List.reverseRecOn with
  | nil =>
    rintro t r ⟨⟩
  | append_singleton es e ih =>
    obtain ⟨hearly, hlast⟩ := (along_append (system c) _ _ _ _).mp legal
    have hentered := (ih hearly).remember hlast.1
    unfold history at hentered ⊢
    rw [List.foldl_append]
    exact hentered

/-- The lists hold the outstanding requests, each with the entry of its code, and every event
answers what it should. -/
structure Lifecycle (c : Config) (heap : ℕ → RequestInfo) (es : List Event) : Prop where
  pending : ∀ slot t, t ∈ ((system c).run (initial heap) es).pending slot ↔
    ∃ r, (history es).outstanding t = some r ∧ r.slotId = slot
  nodup : ∀ slot, (((system c).run (initial heap) es).pending slot).Nodup
  entry : ∀ t r, (history es).outstanding t = some r →
    entry r.request = some (((system c).run (initial heap) es).heap t).pCI
  answers : ∀ early e late, es = early ++ e :: late →
    ((system c).run (initial heap) (early ++ [e])).responses =
      answers c (history early) e ++ ((system c).run (initial heap) early).responses

theorem run_snoc (c : Config) (s : State) (es : List Event) (e : Event) :
    (system c).run s (es ++ [e]) = next c ((system c).run s es) e := by
  unfold System.run
  rw [List.foldl_append]
  rfl

/-- In every run the pending lists hold just the requests that were added and not completed since,
and a completion of one that is not local is answered once, if its command has a response
function, with its own serial and slot and by whether it was acknowledged. -/
theorem requests_answered_once (c : Config) (heap : ℕ → RequestInfo) {es : List Event}
    (legal : (system c).Legal (initial heap) es) : Lifecycle c heap es := by
  obtain ⟨lists, hr⟩ := run_refines c legal
  have hpending : ∀ slot, ((system c).run (initial heap) es).pending slot = lists slot :=
    fun slot => cells_eq (hr.chain slot) (hr.fuel slot)
  constructor
  · intro slot t
    rw [hpending]
    exact hr.mem slot t
  · intro slot
    rw [hpending]
    exact hr.nodup slot
  · intro t r hout
    obtain ⟨pCI, hentry⟩ := Option.isSome_iff_exists.mp (run_entered c legal t r hout)
    rw [(hr.block t r hout).pCI, commandInfo, hentry]
    rfl
  · rintro early e late rfl
    obtain ⟨lists', hearly⟩ := run_refines c ((along_append (system c) _ _ _ _).mp legal).1
    rw [run_snoc]
    exact next_responses hearly e

end Runs

def noCommand : CommandInfo := ⟨0, none, .cmd1⟩

def android8 : Config := ⟨12, 8, fun _ => noCommand⟩

def noBlock : RequestInfo := ⟨0, noCommand, 0, 0, 0, .socket1, 0, 0⟩

theorem signal_strength_answered_once : Lifecycle android8 (fun _ => noBlock)
    [.addRequestToList 7 .socket1 19 64, .rilOnRequestComplete 64 ⟨0, 128, 48⟩] := by
  apply requests_answered_once
  exact ⟨⟨List.not_mem_nil, fun _ => by decide +kernel⟩, trivial, trivial⟩

/-- A request that is not local goes without an answer where its command has no response
function. -/
theorem imei_not_answered : ¬ ∀ (c : Config) (heap : ℕ → RequestInfo) (es : List Event) (t : ℕ)
    (x : Completion) (r : Request),
    (system c).Legal (initial heap) (es ++ [.rilOnRequestComplete t x]) →
      (history es).outstanding t = some r → r.serial ≠ -1 →
        ∃ response, ((system c).run (initial heap) (es ++ [.rilOnRequestComplete t x])).responses =
          response :: ((system c).run (initial heap) es).responses := by
  intro h
  obtain ⟨response, hresponse⟩ := h android8 (fun _ => noBlock)
    [.addRequestToList 7 .socket1 rilRequestGetImei 64] 64 ⟨0, 128, 48⟩
    ⟨7, .socket1, rilRequestGetImei, false, 0⟩
    ⟨⟨List.not_mem_nil, fun _ => by decide +kernel⟩, trivial, trivial⟩ rfl
    (by decide)
  have hnone : ((system android8).run (initial fun _ => noBlock)
      [.addRequestToList 7 .socket1 rilRequestGetImei 64,
        .rilOnRequestComplete 64 ⟨0, 128, 48⟩]).responses = [] := by
    decide +kernel
  rw [List.cons_append, List.nil_append, hnone] at hresponse
  cases hresponse

end RilPending
