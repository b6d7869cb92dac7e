import Mathlib.Data.List.Nodup
import Mathlib.Data.List.Perm.Subperm
import Mathlib.Logic.Function.Basic
import VendorMediatek.LabelledRuns

/-!
# Data call interface numbers of libril

setupDataCall, setupDataCallResponse and deactivateDataCall of ril_service.cpp with MTK_HARDWARE and
a vendor version from 4 to 14. The table dataCallCids is one for both slots. A call is told by the
number of the request that it was set up with, as the token of its response does.
-/

namespace RilDataCalls

open LabelledRuns

abbrev simCount : ℕ := 2
abbrev rilESuccess : ℤ := 0
abbrev dataCallFailCauseNone : ℤ := 0

inductive CallState where
  | beingSetUp
  | setUp (cid : ℤ)
  deriving DecidableEq, Repr

/-- A data call, with the interface number that was sent with its setup. -/
structure Call where
  request : ℕ
  slot : Fin simCount
  number : ℕ
  state : CallState
  deriving DecidableEq, Repr

structure State where
  dataCallCids : ℕ → ℤ
  calls : List Call
  requests : ℕ

def initial : State := ⟨fun _ => -1, [], 0⟩

/-- What RIL_Data_Call_Response_v11 says of the call. -/
structure DataCallResponse where
  status : ℤ
  cid : ℤ
  deriving DecidableEq, Repr

/-- The loop that all three functions make over the first four entries; 4 if none is found. -/
def findEntry (dataCallCids : ℕ → ℤ) (cid : ℤ) : ℕ :=
  ((List.range 4).find? fun i => dataCallCids i = cid).getD 4

/-- The interface number that setupDataCall sends. -/
def interfaceNumber (s : State) : ℕ :=
  let i := findEntry s.dataCallCids (-1)
  if i < 4 then i + 1 else 0

def setupDataCall (s : State) (slot : Fin simCount) : State :=
  { s with
    calls := s.calls ++ [⟨s.requests, slot, interfaceNumber s, .beingSetUp⟩]
    requests := s.requests + 1 }

/-- The cid of the call, if it is set up. -/
def setUpCid (e : ℤ) (response : Option DataCallResponse) : Option ℤ :=
  match response with
  | some r => if e = rilESuccess ∧ r.status = dataCallFailCauseNone then some r.cid else none
  | none => none

/-- receiver tells whether mRadioResponse is there; none is a response that is NULL or of another
length. -/
def storeCid (dataCallCids : ℕ → ℤ) (receiver : Bool) (response : Option DataCallResponse) : ℕ → ℤ :=
  match receiver, response with
  | true, some r => Function.update dataCallCids (findEntry dataCallCids (-1)) r.cid
  | _, _ => dataCallCids

def answerCall (calls : List Call) (request : ℕ) (cid : Option ℤ) : List Call :=
  match cid with
  | some cid => calls.map fun c => if c.request = request then { c with state := .setUp cid } else c
  | none => calls.filter fun c => c.request ≠ request

def setupDataCallResponse (s : State) (request : ℕ) (receiver : Bool) (e : ℤ)
    (response : Option DataCallResponse) : State :=
  { s with
    dataCallCids := storeCid s.dataCallCids receiver response
    calls := answerCall s.calls request (setUpCid e response) }

def Call.IsUp (c : Call) (slot : Fin simCount) (cid : ℤ) : Prop :=
  c.slot = slot ∧ c.state = .setUp cid

instance (c : Call) (slot : Fin simCount) (cid : ℤ) : Decidable (c.IsUp slot cid) :=
  inferInstanceAs (Decidable (_ ∧ _))

def clearCid (dataCallCids : ℕ → ℤ) (cid : ℤ) : ℕ → ℤ :=
  let i := findEntry dataCallCids cid
  if i < 4 then Function.update dataCallCids i (-1) else dataCallCids

def deactivateDataCall (s : State) (slot : Fin simCount) (cid : ℤ) : State :=
  { s with
    dataCallCids := clearCid s.dataCallCids cid
    calls := s.calls.filter fun c => ¬ c.IsUp slot cid }

inductive Event where
  | setupDataCall (slot : Fin simCount)
  | setupDataCallResponse (request : ℕ) (receiver : Bool) (e : ℤ)
      (response : Option DataCallResponse)
  | deactivateDataCall (slot : Fin simCount) (cid : ℤ)
  deriving DecidableEq, Repr

def next (s : State) : Event → State
  | .setupDataCall slot => setupDataCall s slot
  | .setupDataCallResponse request receiver e response =>
    setupDataCallResponse s request receiver e response
  | .deactivateDataCall slot cid => deactivateDataCall s slot cid

/-- At most four calls are set up or being set up, and a response answers a call being set up. -/
def Enabled (s : State) : Event → Prop
  | .setupDataCall _ => s.calls.length < 4
  | .setupDataCallResponse request .. =>
    ∃ c ∈ s.calls, c.request = request ∧ c.state = .beingSetUp
  | .deactivateDataCall .. => True

instance (s : State) (e : Event) : Decidable (Enabled s e) :=
  match e with
  | .setupDataCall _ => inferInstanceAs (Decidable (_ < _))
  | .setupDataCallResponse .. => inferInstanceAs (Decidable (∃ _ ∈ _, _))
  | .deactivateDataCall .. => inferInstanceAs (Decidable True)

def rild : System State Event := ⟨Enabled, next⟩

instance (s : State) (e : Event) : Decidable (rild.Enabled s e) :=
  inferInstanceAs (Decidable (Enabled s e))

/-! ## Numbers and table -/

/-- A new setup is sent with a number of its own; a deactivation frees the numbers of the calls that
it ends, and no others. -/
def NumbersOk (s : State) : Event → Prop
  | .setupDataCall _ => 1 ≤ interfaceNumber s ∧ interfaceNumber s ≤ 4 ∧
    ∀ c ∈ s.calls, c.number ≠ interfaceNumber s
  | .setupDataCallResponse .. => True
  | .deactivateDataCall slot cid => ∀ i < 4, (deactivateDataCall s slot cid).dataCallCids i =
    if ∃ c ∈ s.calls, c.number = i + 1 ∧ c.IsUp slot cid then -1 else s.dataCallCids i

/-- An entry is in use exactly if a call with its number is set up, and holds the cid of it. -/
structure TableHolds (s : State) : Prop where
  holds : ∀ c ∈ s.calls, ∀ cid, c.state = .setUp cid →
    cid ≠ -1 ∧ s.dataCallCids (c.number - 1) = cid
  only : ∀ i < 4, s.dataCallCids i ≠ -1 →
    ∃ c ∈ s.calls, c.number = i + 1 ∧ c.state = .setUp (s.dataCallCids i)

/-- The first free entry is not the one of a call being set up. A response of a call that is set up
has a receiver, a cid other than -1, and finds the entry of its call the first free one; a response
of a call that fails is not received, has no data, or has the cid -1. The slot has a call with the
deactivated cid exactly if the table has the cid, and the first entry that holds it is then the one
of the only such call. -/
def Tracked (s : State) : Event → Prop
  | .setupDataCall _ => ∀ c ∈ s.calls, c.state = .beingSetUp →
    c.number ≠ findEntry s.dataCallCids (-1) + 1
  | .setupDataCallResponse request receiver e response =>
    match setUpCid e response with
    | some cid => receiver ∧ cid ≠ -1 ∧
      ∀ c ∈ s.calls, c.request = request → c.number = findEntry s.dataCallCids (-1) + 1
    | none => receiver → ∀ r ∈ response, r.cid = -1
  | .deactivateDataCall slot cid => ∀ i < 4,
    (∃ c ∈ s.calls, c.number = i + 1 ∧ c.IsUp slot cid) ↔
      cid ≠ -1 ∧ findEntry s.dataCallCids cid = i

instance (s : State) (e : Event) : Decidable (Tracked s e) :=
  match e with
  | .setupDataCall _ => inferInstanceAs (Decidable (∀ _ ∈ _, _ → _))
  | .setupDataCallResponse request receiver e response =>
    match h : setUpCid e response with
    | some cid => decidable_of_iff (receiver ∧ cid ≠ -1 ∧ ∀ c ∈ s.calls, c.request = request →
        c.number = findEntry s.dataCallCids (-1) + 1) (by simp only [Tracked, h])
    | none => decidable_of_iff (receiver → ∀ r ∈ response, r.cid = -1) (by simp only [Tracked, h])
  | .deactivateDataCall .. => inferInstanceAs (Decidable (∀ _ < 4, _ ↔ _))

section
variable {t : ℕ → ℤ} {v : ℤ}

theorem findEntry_le_of_entry {i : ℕ} (hi : i < 4) (h : t i = v) : findEntry t v ≤ i := by
  cases hf : (List.range 4).find? fun i => t i = v with
  | none =>
    have hnot := List.find?_eq_none.mp hf i (List.mem_range.mpr hi)
    simp [h] at hnot
  | some j =>
    obtain ⟨-, -, hbefore⟩ := List.find?_range_eq_some.mp hf
    rw [findEntry, hf, Option.getD_some]
    by_contra hlt
    have hnot := hbefore i (by omega)
    simp [h] at hnot

theorem entry_findEntry (h : findEntry t v < 4) : t (findEntry t v) = v := by
  cases hf : (List.range 4).find? fun i => t i = v with
  | none =>
    rw [findEntry, hf, Option.getD_none] at h
    omega
  | some j =>
    rw [findEntry, hf, Option.getD_some]
    simpa using List.find?_some hf

end

/-- The calls have numbers from 1 to 4, each its own, and the table follows those that are set up. -/
structure Numbered (s : State) : Prop where
  table : TableHolds s
  range : ∀ c ∈ s.calls, 1 ≤ c.number ∧ c.number ≤ 4
  numbers : (s.calls.map Call.number).Nodup
  requests : (s.calls.map Call.request).Nodup
  sent : ∀ c ∈ s.calls, c.request < s.requests

theorem numbered_initial : Numbered initial := by
  refine ⟨⟨?_, ?_⟩, ?_, ?_, ?_, ?_⟩ <;> simp [initial]

variable {s : State}

theorem Numbered.eq_of_number (h : Numbered s) {c d : Call} (hc : c ∈ s.calls) (hd : d ∈ s.calls)
    (heq : c.number = d.number) : c = d := List.inj_on_of_nodup_map h.numbers hc hd heq

theorem Numbered.eq_of_request (h : Numbered s) {c d : Call} (hc : c ∈ s.calls) (hd : d ∈ s.calls)
    (heq : c.request = d.request) : c = d := List.inj_on_of_nodup_map h.requests hc hd heq

theorem Numbered.free (h : Numbered s) {c : Call} (hc : c ∈ s.calls)
    (hstate : c.state = .beingSetUp) : s.dataCallCids (c.number - 1) = -1 := by
  by_contra hne
  have hrange := h.range c hc
  obtain ⟨d, hd, hnumber, hup⟩ := h.table.only (c.number - 1) (by omega) hne
  obtain rfl := h.eq_of_number hc hd (by omega)
  rw [hstate] at hup
  cases hup

theorem Numbered.findEntry_lt (h : Numbered s) (hroom : s.calls.length < 4) :
    findEntry s.dataCallCids (-1) < 4 := by
  by_contra hfull
  have hused : ∀ i < 4, s.dataCallCids i ≠ -1 := fun i hi hfree =>
    hfull (Nat.lt_of_le_of_lt (findEntry_le_of_entry hi hfree) hi)
  have hsub : List.range' 1 4 ⊆ s.calls.map Call.number := by
    intro n hn
    obtain ⟨hlow, hhigh⟩ := List.mem_range'_1.mp hn
    obtain ⟨c, hc, hnumber, -⟩ := h.table.only (n - 1) (by omega) (hused (n - 1) (by omega))
    exact List.mem_map.mpr ⟨c, hc, by omega⟩
  have hlength := ((List.nodup_range' (s := 1) (n := 4)).subperm hsub).length_le
  rw [List.length_range', List.length_map] at hlength
  omega

theorem Numbered.interfaceNumber_eq (h : Numbered s) (hroom : s.calls.length < 4) :
    interfaceNumber s = findEntry s.dataCallCids (-1) + 1 := if_pos (h.findEntry_lt hroom)

/-! ## Setups -/

theorem numbersOk_setup_iff (h : Numbered s) (hroom : s.calls.length < 4) (slot : Fin simCount) :
    NumbersOk s (.setupDataCall slot) ↔ Tracked s (.setupDataCall slot) := by
  have hlt := h.findEntry_lt hroom
  simp only [NumbersOk, Tracked, h.interfaceNumber_eq hroom]
  constructor
  · rintro ⟨-, -, hne⟩ c hc -
    exact hne c hc
  · intro hne
    refine ⟨by omega, by omega, ?_⟩
    intro c hc heq
    cases hstate : c.state with
    | beingSetUp => exact hne c hc hstate heq
    | setUp cid =>
      obtain ⟨hcid, hentry⟩ := h.table.holds c hc cid hstate
      rw [heq, Nat.add_sub_cancel, entry_findEntry hlt] at hentry
      exact hcid hentry.symm

theorem tableHolds_setup (h : TableHolds s) (slot : Fin simCount) :
    TableHolds (setupDataCall s slot) := by
  refine ⟨?_, ?_⟩
  · intro c hc cid hstate
    rcases List.mem_append.mp hc with hc | hc
    · exact h.holds c hc cid hstate
    · rw [List.mem_singleton.mp hc] at hstate
      cases hstate
  · intro i hi hne
    obtain ⟨c, hc, hnumber, hstate⟩ := h.only i hi hne
    exact ⟨c, List.mem_append_left _ hc, hnumber, hstate⟩

theorem numbered_setup (h : Numbered s) {slot : Fin simCount}
    (hok : NumbersOk s (.setupDataCall slot)) : Numbered (setupDataCall s slot) := by
  obtain ⟨hlow, hhigh, hne⟩ := hok
  refine ⟨tableHolds_setup h.table slot, ?_, ?_, ?_, ?_⟩
  · intro c hc
    rcases List.mem_append.mp hc with hc | hc
    · exact h.range c hc
    · rw [List.mem_singleton.mp hc]
      exact ⟨hlow, hhigh⟩
  · simp only [setupDataCall, List.map_append, List.map_cons, List.map_nil]
    apply h.numbers.append (List.nodup_singleton _)
    rw [List.disjoint_singleton]
    intro hmem
    obtain ⟨c, hc, heq⟩ := List.mem_map.mp hmem
    exact hne c hc heq
  · simp only [setupDataCall, List.map_append, List.map_cons, List.map_nil]
    apply h.requests.append (List.nodup_singleton _)
    rw [List.disjoint_singleton]
    intro hmem
    obtain ⟨c, hc, heq⟩ := List.mem_map.mp hmem
    have := h.sent c hc
    omega
  · intro c hc
    rcases List.mem_append.mp hc with hc | hc
    · exact Nat.lt_succ_of_lt (h.sent c hc)
    · rw [List.mem_singleton.mp hc]
      exact Nat.lt_succ_self _

/-! ## Responses -/

theorem setUpCid_eq_some {e : ℤ} {response : Option DataCallResponse} {cid : ℤ}
    (h : setUpCid e response = some cid) : ∃ r, response = some r ∧ r.cid = cid := by
  cases response with
  | none => cases h
  | some r =>
    simp only [setUpCid] at h
    split at h
    · exact ⟨r, rfl, Option.some.inj h⟩
    · cases h

/-- A call of the answered list is one of the calls, the one that is answered with its cid. -/
theorem mem_answerCall_some {calls : List Call} {request : ℕ} {cid : ℤ} {c : Call}
    (hc : c ∈ answerCall calls request (some cid)) :
    (∃ d ∈ calls, d.request = request ∧ c = { d with state := .setUp cid }) ∨
      c ∈ calls ∧ c.request ≠ request := by
  obtain ⟨d, hd, rfl⟩ := List.mem_map.mp hc
  split
  · exact .inl ⟨d, hd, ‹_›, rfl⟩
  · exact .inr ⟨hd, ‹_›⟩

theorem mem_answerCall_other {calls : List Call} {request : ℕ} {cid : Option ℤ} {c : Call}
    (hc : c ∈ calls) (hne : c.request ≠ request) : c ∈ answerCall calls request cid := by
  cases cid with
  | none => exact List.mem_filter.mpr ⟨hc, by simpa using hne⟩
  | some cid => exact List.mem_map.mpr ⟨c, hc, if_neg hne⟩

theorem mem_answerCall_own {calls : List Call} {request : ℕ} {cid : ℤ} {c : Call}
    (hc : c ∈ calls) (heq : c.request = request) :
    { c with state := .setUp cid } ∈ answerCall calls request (some cid) :=
  List.mem_map.mpr ⟨c, hc, if_pos heq⟩

/-- The calls that are set up already keep their entries through a response. -/
theorem other_of_up (h : Numbered s) {c d : Call} (hc : c ∈ s.calls) (hd : d ∈ s.calls)
    (hstate : c.state = .beingSetUp) {cid : ℤ} (hup : d.state = .setUp cid) :
    d.request ≠ c.request := by
  intro heq
  obtain rfl := h.eq_of_request hd hc heq
  rw [hstate] at hup
  cases hup

/-- The cid of a call that is set up is kept exactly if it goes to the entry of its number. -/
theorem tableHolds_setUp_iff (h : Numbered s) {c : Call} (hc : c ∈ s.calls)
    (hstate : c.state = .beingSetUp) (receiver : Bool) (e : ℤ) (response : Option DataCallResponse)
    {cid : ℤ} (hcid : setUpCid e response = some cid) :
    TableHolds (setupDataCallResponse s c.request receiver e response) ↔
      receiver ∧ cid ≠ -1 ∧ c.number = findEntry s.dataCallCids (-1) + 1 := by
  obtain ⟨r, rfl, rfl⟩ := setUpCid_eq_some hcid
  have hrange := h.range c hc
  have hfree := h.free hc hstate
  simp only [setupDataCallResponse, hcid]
  constructor
  · intro htable
    obtain ⟨hne, hentry⟩ := htable.holds _ (mem_answerCall_own hc rfl) r.cid rfl
    cases receiver with
    | false => exact absurd (hentry.symm.trans hfree) hne
    | true =>
      refine ⟨rfl, hne, ?_⟩
      by_contra hnumber
      have hother : c.number - 1 ≠ findEntry s.dataCallCids (-1) := by omega
      simp only [storeCid, Function.update_of_ne hother, hfree] at hentry
      exact hne hentry.symm
  · rintro ⟨hreceiver, hne, hnumber⟩
    subst hreceiver
    have hown : c.number - 1 = findEntry s.dataCallCids (-1) := by omega
    refine ⟨?_, ?_⟩
    · intro d hd v hup
      rcases mem_answerCall_some hd with ⟨own, hmem, heq, rfl⟩ | ⟨hd, hother⟩
      · obtain rfl := h.eq_of_request hmem hc heq
        obtain rfl := CallState.setUp.inj hup
        simp only [storeCid, hown, Function.update_self]
        exact ⟨hne, trivial⟩
      · have hentry := h.table.holds d hd v hup
        have hdrange := h.range d hd
        have hapart : d.number - 1 ≠ findEntry s.dataCallCids (-1) := by
          intro heq
          exact hother (congrArg Call.request (h.eq_of_number hd hc (by omega)))
        simp only [storeCid, Function.update_of_ne hapart]
        exact hentry
    · intro i hi hused
      by_cases hi' : i = findEntry s.dataCallCids (-1)
      · simp only [storeCid, hi', Function.update_self]
        exact ⟨_, mem_answerCall_own hc rfl, hnumber, rfl⟩
      · simp only [storeCid, Function.update_of_ne hi'] at hused ⊢
        obtain ⟨d, hd, hnumber, hup⟩ := h.table.only i hi hused
        exact ⟨d, mem_answerCall_other hd (other_of_up h hc hd hstate hup), hnumber, hup⟩

theorem storeCid_of_free {t : ℕ → ℤ} {receiver : Bool} {response : Option DataCallResponse}
    (h : receiver → ∀ r ∈ response, r.cid = -1) {i : ℕ} (hi : i < 4) :
    storeCid t receiver response i = t i := by
  cases receiver with
  | false => rfl
  | true =>
    cases response with
    | none => rfl
    | some r =>
      simp only [storeCid, h rfl r rfl]
      by_cases heq : i = findEntry t (-1)
      · rw [heq] at hi ⊢
        rw [Function.update_self, entry_findEntry hi]
      · exact Function.update_of_ne heq ..

/-- A call that fails leaves the table as it should be exactly if no cid is stored for it. -/
theorem tableHolds_failed_iff (h : Numbered s) {c : Call} (hc : c ∈ s.calls)
    (hstate : c.state = .beingSetUp) (receiver : Bool) (e : ℤ) (response : Option DataCallResponse)
    (hcid : setUpCid e response = none) :
    TableHolds (setupDataCallResponse s c.request receiver e response) ↔
      (receiver → ∀ r ∈ response, r.cid = -1) := by
  have hrange := h.range c hc
  have hfree := h.free hc hstate
  simp only [setupDataCallResponse, hcid]
  constructor
  · intro htable hreceiver r hr
    obtain rfl := hreceiver
    obtain rfl := Option.mem_def.mp hr
    by_contra hne
    have hlt : findEntry s.dataCallCids (-1) < 4 :=
      Nat.lt_of_le_of_lt (findEntry_le_of_entry (by omega) hfree) (by omega)
    have hused := htable.only _ hlt
    simp only [storeCid, Function.update_self] at hused
    obtain ⟨d, hd, hnumber, hup⟩ := hused hne
    have hentry := h.table.holds d (List.mem_of_mem_filter hd) r.cid hup
    rw [hnumber, Nat.add_sub_cancel, entry_findEntry hlt] at hentry
    exact hentry.1 hentry.2.symm
  · intro hstored
    refine ⟨?_, ?_⟩
    · intro d hd v hup
      have hmem := List.mem_of_mem_filter hd
      have hdrange := h.range d hmem
      have hentry := h.table.holds d hmem v hup
      have hkept : storeCid s.dataCallCids receiver response (d.number - 1) = _ :=
        storeCid_of_free hstored (by omega)
      exact ⟨hentry.1, hkept.trans hentry.2⟩
    · intro i hi hused
      have hkept := storeCid_of_free (t := s.dataCallCids) hstored hi
      simp only [hkept] at hused ⊢
      obtain ⟨d, hd, hnumber, hup⟩ := h.table.only i hi hused
      exact ⟨d, mem_answerCall_other hd (other_of_up h hc hd hstate hup), hnumber, hup⟩

theorem tableHolds_response_iff (h : Numbered s) {request : ℕ} {receiver : Bool} {e : ℤ}
    {response : Option DataCallResponse}
    (he : Enabled s (.setupDataCallResponse request receiver e response)) :
    TableHolds (setupDataCallResponse s request receiver e response) ↔
      Tracked s (.setupDataCallResponse request receiver e response) := by
  obtain ⟨c, hc, rfl, hstate⟩ := he
  simp only [Tracked]
  cases hcid : setUpCid e response with
  | none => exact tableHolds_failed_iff h hc hstate receiver e response hcid
  | some cid =>
    rw [tableHolds_setUp_iff h hc hstate receiver e response hcid]
    apply and_congr_right'
    apply and_congr_right'
    constructor
    · intro hnumber d hd heq
      rw [h.eq_of_request hd hc heq]
      exact hnumber
    · intro hnumber
      exact hnumber c hc rfl

theorem map_answerCall_sublist {β : Type} {f : Call → β} (calls : List Call) (request : ℕ)
    (cid : Option ℤ) (hf : ∀ c cid, f { c with state := .setUp cid } = f c) :
    ((answerCall calls request cid).map f).Sublist (calls.map f) := by
  cases cid with
  | none => exact (List.filter_sublist).map f
  | some cid =>
    have heq : (answerCall calls request (some cid)).map f = calls.map f := by
      simp only [answerCall, List.map_map]
      apply List.map_congr_left
      intro c _
      simp only [Function.comp_apply]
      split
      · exact hf c cid
      · rfl
    rw [heq]

theorem numbered_response (h : Numbered s) {request : ℕ} {receiver : Bool} {e : ℤ}
    {response : Option DataCallResponse}
    (htable : TableHolds (setupDataCallResponse s request receiver e response)) :
    Numbered (setupDataCallResponse s request receiver e response) := by
  have hnumbers := map_answerCall_sublist (f := Call.number) s.calls request
    (setUpCid e response) fun _ _ => rfl
  have hrequests := map_answerCall_sublist (f := Call.request) s.calls request
    (setUpCid e response) fun _ _ => rfl
  refine ⟨htable, ?_, h.numbers.sublist hnumbers, h.requests.sublist hrequests, ?_⟩
  · intro c hc
    obtain ⟨d, hd, heq⟩ := List.mem_map.mp (hnumbers.subset (List.mem_map_of_mem hc))
    rw [← heq]
    exact h.range d hd
  · intro c hc
    obtain ⟨d, hd, heq⟩ := List.mem_map.mp (hrequests.subset (List.mem_map_of_mem hc))
    rw [← heq]
    exact h.sent d hd

/-! ## Deactivations -/

theorem clearCid_apply (t : ℕ → ℤ) (cid : ℤ) {i : ℕ} (hi : i < 4) :
    clearCid t cid i = if findEntry t cid = i then -1 else t i := by
  simp only [clearCid]
  by_cases heq : findEntry t cid = i
  · rw [if_pos heq, if_pos (by omega), heq, Function.update_self]
  · rw [if_neg heq]
    split
    · exact Function.update_of_ne (Ne.symm heq) ..
    · rfl

theorem numbersOk_deactivate_iff (h : Numbered s) (slot : Fin simCount) (cid : ℤ) :
    NumbersOk s (.deactivateDataCall slot cid) ↔ Tracked s (.deactivateDataCall slot cid) := by
  simp only [NumbersOk, Tracked, deactivateDataCall]
  apply forall₂_congr
  intro i hi
  rw [clearCid_apply _ _ hi]
  by_cases hup : ∃ c ∈ s.calls, c.number = i + 1 ∧ c.IsUp slot cid
  · obtain ⟨c, hc, hnumber, -, hstate⟩ := id hup
    obtain ⟨hne, hentry⟩ := h.table.holds c hc cid hstate
    rw [hnumber, Nat.add_sub_cancel] at hentry
    rw [if_pos hup, hentry]
    by_cases hfind : findEntry s.dataCallCids cid = i
    · simp [hup, hne, hfind]
    · simp [hup, hne, hfind]
  · rw [if_neg hup]
    by_cases hfind : findEntry s.dataCallCids cid = i
    · have hentry : s.dataCallCids i = cid := by
        rw [← hfind] at hi ⊢
        exact entry_findEntry hi
      simp only [hentry, hup, hfind, false_iff, and_true, not_not]
      exact eq_comm
    · simp [hup, hfind]

/-- What a deactivation leaves set up keeps its entry when only the entries of the others are
cleared. -/
theorem tableHolds_deactivate (h : Numbered s) {slot : Fin simCount} {cid : ℤ}
    (hok : NumbersOk s (.deactivateDataCall slot cid)) :
    TableHolds (deactivateDataCall s slot cid) := by
  refine ⟨?_, ?_⟩
  · intro c hc v hup
    obtain ⟨hmem, hleft⟩ := List.mem_filter.mp hc
    have hrange := h.range c hmem
    have hentry := h.table.holds c hmem v hup
    rw [hok (c.number - 1) (by omega), if_neg]
    · exact hentry
    · rintro ⟨d, hd, hnumber, hended⟩
      obtain rfl := h.eq_of_number hd hmem (by omega)
      simp [hended] at hleft
  · intro i hi hused
    rw [hok i hi] at hused ⊢
    split at hused
    · exact absurd rfl hused
    · rename_i hleft
      obtain ⟨c, hc, hnumber, hup⟩ := h.table.only i hi hused
      refine ⟨c, List.mem_filter.mpr ⟨hc, ?_⟩, hnumber, ?_⟩
      · rw [decide_eq_true_eq]
        exact fun hended => hleft ⟨c, hc, hnumber, hended⟩
      · rw [if_neg hleft]
        exact hup

theorem numbered_deactivate (h : Numbered s) {slot : Fin simCount} {cid : ℤ}
    (hok : NumbersOk s (.deactivateDataCall slot cid)) :
    Numbered (deactivateDataCall s slot cid) := by
  refine ⟨tableHolds_deactivate h hok, ?_, ?_, ?_, ?_⟩
  · exact fun c hc => h.range c (List.mem_of_mem_filter hc)
  · exact h.numbers.sublist (List.filter_sublist.map _)
  · exact h.requests.sublist (List.filter_sublist.map _)
  · exact fun c hc => h.sent c (List.mem_of_mem_filter hc)

/-! ## Runs -/

theorem ok_iff_tracked (h : Numbered s) {e : Event} (he : Enabled s e) :
    NumbersOk s e ∧ TableHolds (next s e) ↔ Tracked s e := by
  cases e with
  | setupDataCall slot =>
    rw [← numbersOk_setup_iff h he]
    exact and_iff_left (tableHolds_setup h.table slot)
  | setupDataCallResponse request receiver e response =>
    rw [← tableHolds_response_iff h he]
    exact and_iff_right trivial
  | deactivateDataCall slot cid =>
    rw [← numbersOk_deactivate_iff h]
    exact and_iff_left_of_imp (tableHolds_deactivate h)

theorem numbered_next (h : Numbered s) {e : Event} (hok : NumbersOk s e)
    (htable : TableHolds (next s e)) : Numbered (next s e) := by
  cases e with
  | setupDataCall slot => exact numbered_setup h hok
  | setupDataCallResponse request receiver e response => exact numbered_response h htable
  | deactivateDataCall slot cid => exact numbered_deactivate h hok

/-- Every setup of a run is sent with a number of its own, every deactivation frees the numbers of
the calls it ends only, and the table follows the calls, exactly if every step is tracked. -/
theorem numbers_tracked_iff (es : List Event) (legal : rild.Legal initial es) :
    (rild.Along NumbersOk initial es ∧ ∀ pre, pre <+: es → TableHolds (rild.run initial pre)) ↔
      rild.Along Tracked initial es := by
  rw [always_iff_along, and_iff_right numbered_initial.table, ← along_and]
  refine along_iff_guarded rild (I := Numbered) ?_ (fun _ _ h he => ok_iff_tracked h he)
    numbered_initial legal
  intro s e h he htracked
  obtain ⟨hok, htable⟩ := (ok_iff_tracked h he).mpr htracked
  exact numbered_next h hok htable

theorem numbers_tracked_iff_two : rild.Along NumbersOk initial [.setupDataCall 0,
    .setupDataCallResponse 0 true 0 (some ⟨0, 5⟩), .setupDataCall 1,
    .setupDataCallResponse 1 true 0 (some ⟨0, 6⟩), .deactivateDataCall 0 5] :=
  ((numbers_tracked_iff [.setupDataCall 0, .setupDataCallResponse 0 true 0 (some ⟨0, 5⟩),
    .setupDataCall 1, .setupDataCallResponse 1 true 0 (some ⟨0, 6⟩), .deactivateDataCall 0 5]
    (by decide)).mpr (by decide)).1

/-- A number is not reserved before the response: two setups in a row are sent with the same. -/
theorem two_setups_share_a_number : ¬ ∀ es, rild.Legal initial es →
    rild.Along NumbersOk initial es ∧ ∀ pre, pre <+: es → TableHolds (rild.run initial pre) := by
  intro h
  obtain ⟨-, ⟨-, -, hne⟩, -⟩ := (h [.setupDataCall 0, .setupDataCall 1] (by decide)).1
  exact hne _ (List.mem_singleton.mpr rfl) (by decide)

end RilDataCalls