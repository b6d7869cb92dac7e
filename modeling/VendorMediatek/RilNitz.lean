import Mathlib.Data.List.Pairwise
import Mathlib.Logic.Function.Basic
import VendorMediatek.LabelledRuns

/-!
# Redelivery of the network time

send_unsolResponse for RIL_UNSOL_NITZ_TIME_RECEIVED and resendLastNITZTimeData of ril.cpp, and
nitzTimeReceivedInd of ril_service.cpp. One cache, s_lastNITZTimeData, serves all slots. The NITZs
are numbered from 1 in the order in which they come.
-/

namespace RilNitz

open LabelledRuns

abbrev simCount : ℕ := 2
abbrev Slot := Fin simCount

structure Nitz where
  number : ℕ
  slot : Slot
  length : ℕ
  deriving DecidableEq, Repr

/-- A NITZ that a client has taken. -/
structure Delivery where
  slot : Slot
  nitz : Nitz
  deriving DecidableEq, Repr

/-- The variables of the code, and as histories the count of the NITZs, what has been delivered, and
the number of the last NITZ that went straight to the client of its slot, 0 if none has. -/
structure State where
  mRadioIndication : Slot → Bool
  lastNITZTimeData : Option Nitz
  received : ℕ
  delivered : List Delivery
  direct : Slot → ℕ

def initial : State := ⟨fun _ => false, none, 0, [], fun _ => 0⟩

/-- ok is retStatus.isOk(); otherwise checkReturnStatus takes the callbacks away. -/
def nitzTimeReceivedInd (s : State) (slot : Slot) (nitz : Nitz) (ok : Bool) : ℤ × State :=
  if s.mRadioIndication slot then
    if nitz.length = 0 then (0, s)
    else if ok then (0, { s with delivered := s.delivered ++ [⟨slot, nitz⟩] })
    else (0, { s with mRadioIndication := Function.update s.mRadioIndication slot false })
  else (-1, s)

/-- The client of the slot takes a NITZ of this length. -/
def State.Takes (s : State) (slot : Slot) (length : ℕ) (ok : Bool) : Prop :=
  s.mRadioIndication slot ∧ length ≠ 0 ∧ ok

instance (s : State) (slot : Slot) (length : ℕ) (ok : Bool) : Decidable (s.Takes slot length ok) :=
  inferInstanceAs (Decidable (_ ∧ _ ∧ _))

/-- timer is false when the vendor version is below 13 and the timed callback cannot be allocated;
alloc tells whether calloc gives the copy. -/
def sendUnsolResponse (s : State) (slot : Slot) (length : ℕ) (ok timer alloc : Bool) : State :=
  let nitz : Nitz := ⟨s.received + 1, slot, length⟩
  let direct := if s.Takes slot length ok then
    Function.update s.direct slot nitz.number else s.direct
  let (ret, s) := nitzTimeReceivedInd { s with received := s.received + 1, direct := direct }
    slot nitz ok
  if timer ∧ ret ≠ 0 then { s with lastNITZTimeData := if alloc then some nitz else none } else s

def resendLastNITZTimeData (s : State) (slot : Slot) (ok : Bool) : State :=
  match s.lastNITZTimeData with
  | none => s
  | some nitz =>
    let (ret, s) := nitzTimeReceivedInd s slot nitz ok
    if ret = 0 then { s with lastNITZTimeData := none } else s

/-- The two indications that go first may lose the client, which is a loss before the call. -/
def onNewCommandConnect (s : State) (slot : Slot) (ok : Bool) : State :=
  resendLastNITZTimeData s slot ok

/-- A client that is gone, as checkReturnStatus of any other indication or response finds. -/
def lose (s : State) (slot : Slot) : State :=
  { s with mRadioIndication := Function.update s.mRadioIndication slot false }

/-- The callback objects; a client may also pass none. -/
def setResponseFunctions (s : State) (slot : Slot) (indication : Bool) : State :=
  { s with mRadioIndication := Function.update s.mRadioIndication slot indication }

inductive Event where
  | nitz (slot : Slot) (length : ℕ) (ok timer alloc : Bool)
  | lose (slot : Slot)
  | setResponseFunctions (slot : Slot) (indication : Bool)
  | onNewCommandConnect (slot : Slot) (ok : Bool)
  deriving DecidableEq, Repr

def next (s : State) : Event → State
  | .nitz slot length ok timer alloc => sendUnsolResponse s slot length ok timer alloc
  | .lose slot => lose s slot
  | .setResponseFunctions slot indication => setResponseFunctions s slot indication
  | .onNewCommandConnect slot ok => onNewCommandConnect s slot ok

def rild : System State Event := ⟨fun _ _ => True, next⟩

/-! ## Deliveries -/

/-- A NITZ goes to its own slot, at most once, and to no slot after a newer one. -/
structure InOrder (s : State) : Prop where
  own : ∀ d ∈ s.delivered, d.slot = d.nitz.slot
  once : (s.delivered.map fun d => d.nitz.number).Nodup
  newer : s.delivered.Pairwise fun d e => d.slot = e.slot → d.nitz.number < e.nitz.number

/-- When a slot connects whose client takes the cached NITZ, the NITZ came on this slot, and no
later one has gone straight to the slot's client. -/
def CacheFits (s : State) : Event → Prop
  | .onNewCommandConnect slot ok => ∀ nitz ∈ s.lastNITZTimeData, s.Takes slot nitz.length ok →
    nitz.slot = slot ∧ s.direct slot < nitz.number
  | .nitz .. | .lose _ | .setResponseFunctions .. => True

/-- How the numbers of what was delivered and what is cached stand to each other. A NITZ that was
redelivered is older than the cached one. -/
structure Known (s : State) : Prop where
  delivered : ∀ d ∈ s.delivered, d.nitz.number ≤ s.received
  cached : ∀ c ∈ s.lastNITZTimeData, 0 < c.number ∧ c.number ≤ s.received ∧
    ∀ d ∈ s.delivered, d.nitz.number ≠ c.number ∧
      (d.nitz.number < c.number ∨ d.nitz.number ≤ s.direct d.slot)
  direct : ∀ slot, s.direct slot = 0 ∨
    ∃ d ∈ s.delivered, d.slot = slot ∧ d.nitz.number = s.direct slot

theorem known_initial : Known initial := by
  constructor <;> simp [initial]

theorem inOrder_initial : InOrder initial := by
  constructor <;> simp [initial]

variable {s : State} {slot : Slot} {length : ℕ} {ok timer alloc : Bool}

/-- What a step without a redelivery can do: a NITZ goes straight to the client of its slot, or
nothing is delivered and the cache keeps what it has, loses it or takes the NITZ that has just
come. -/
inductive Effect (s t : State) : Prop
  | direct (slot : Slot) (length : ℕ) (received : t.received = s.received + 1)
      (delivered : t.delivered = s.delivered ++ [⟨slot, ⟨s.received + 1, slot, length⟩⟩])
      (direct : t.direct = Function.update s.direct slot (s.received + 1))
      (cached : t.lastNITZTimeData = s.lastNITZTimeData)
  | quiet (received : s.received ≤ t.received) (delivered : t.delivered = s.delivered)
      (direct : t.direct = s.direct)
      (cached : ∀ c ∈ t.lastNITZTimeData,
        c ∈ s.lastNITZTimeData ∨ s.received < c.number ∧ c.number ≤ t.received)

theorem nitzTimeReceivedInd_takes (nitz : Nitz) (h : s.Takes slot nitz.length ok) :
    nitzTimeReceivedInd s slot nitz ok =
      (0, { s with delivered := s.delivered ++ [⟨slot, nitz⟩] }) := by
  obtain ⟨hclient, hlength, hok⟩ := h
  simp [nitzTimeReceivedInd, hclient, hlength, hok]

theorem nitzTimeReceivedInd_not_takes (nitz : Nitz) (h : ¬ s.Takes slot nitz.length ok) :
    ∃ callbacks, (nitzTimeReceivedInd s slot nitz ok).2 = { s with mRadioIndication := callbacks } := by
  simp only [nitzTimeReceivedInd]
  split
  · rename_i hclient
    split
    · exact ⟨_, rfl⟩
    · rename_i hlength
      split
      · exact absurd ⟨hclient, hlength, ‹_›⟩ h
      · exact ⟨_, rfl⟩
  · exact ⟨_, rfl⟩

theorem effect_sendUnsolResponse (s : State) (slot : Slot) (length : ℕ) (ok timer alloc : Bool) :
    Effect s (sendUnsolResponse s slot length ok timer alloc) := by
  by_cases h : s.Takes slot length ok
  · have hind := nitzTimeReceivedInd_takes (s := { s with
      received := s.received + 1
      direct := Function.update s.direct slot (s.received + 1) })
      ⟨s.received + 1, slot, length⟩ h
    simp only [sendUnsolResponse, if_pos h, hind, ne_eq, not_true_eq_false, and_false, if_false]
    exact .direct slot length rfl rfl rfl rfl
  · obtain ⟨callbacks, hind⟩ := nitzTimeReceivedInd_not_takes (s := { s with
      received := s.received + 1 }) ⟨s.received + 1, slot, length⟩ h
    simp only [sendUnsolResponse, if_neg h]
    split
    · rw [hind]
      refine .quiet (Nat.le_succ _) rfl rfl ?_
      intro c hc
      cases alloc with
      | false => cases hc
      | true =>
        obtain rfl := Option.some.inj hc
        exact .inr ⟨Nat.lt_succ_self _, le_rfl⟩
    · rw [hind]
      exact .quiet (Nat.le_succ _) rfl rfl fun c hc => .inl hc

theorem onNewCommandConnect_takes {nitz : Nitz} (hc : s.lastNITZTimeData = some nitz)
    (h : s.Takes slot nitz.length ok) : onNewCommandConnect s slot ok =
      { s with delivered := s.delivered ++ [⟨slot, nitz⟩], lastNITZTimeData := none } := by
  simp only [onNewCommandConnect, resendLastNITZTimeData, hc, nitzTimeReceivedInd_takes _ h]
  rfl

theorem effect_onNewCommandConnect (h : ∀ c ∈ s.lastNITZTimeData, ¬ s.Takes slot c.length ok) :
    Effect s (onNewCommandConnect s slot ok) := by
  simp only [onNewCommandConnect, resendLastNITZTimeData]
  cases hc : s.lastNITZTimeData with
  | none => exact .quiet le_rfl rfl rfl fun c hc => .inl hc
  | some nitz =>
    obtain ⟨callbacks, hind⟩ := nitzTimeReceivedInd_not_takes nitz (h nitz hc)
    simp only
    split
    · rw [hind]
      exact .quiet le_rfl rfl rfl nofun
    · rw [hind]
      exact .quiet le_rfl rfl rfl fun c hc => .inl hc

theorem known_of_effect {t : State} (h : Known s) (he : Effect s t) : Known t := by
  cases he with
  | direct slot length received delivered direct cached =>
    refine ⟨?_, ?_, ?_⟩
    · rw [delivered, received]
      intro d hd
      rcases List.mem_append.mp hd with hd | hd
      · exact Nat.le_succ_of_le (h.delivered d hd)
      · rw [List.mem_singleton.mp hd]
    · rw [cached, delivered, received, direct]
      intro c hc
      obtain ⟨hpos, hle, hold⟩ := h.cached c hc
      refine ⟨hpos, Nat.le_succ_of_le hle, ?_⟩
      intro d hd
      rcases List.mem_append.mp hd with hd | hd
      · refine ⟨(hold d hd).1, ?_⟩
        by_cases hslot : d.slot = slot
        · right
          rw [hslot, Function.update_self]
          exact Nat.le_succ_of_le (h.delivered d hd)
        · rw [Function.update_of_ne hslot]
          exact (hold d hd).2
      · rw [List.mem_singleton.mp hd]
        simp only [Function.update_self]
        omega
    · rw [direct, delivered]
      intro slot'
      by_cases hslot : slot' = slot
      · right
        rw [hslot, Function.update_self]
        exact ⟨_, List.mem_append_right _ (List.mem_singleton.mpr rfl), rfl, rfl⟩
      · rw [Function.update_of_ne hslot]
        apply (h.direct slot').imp_right
        rintro ⟨d, hd, hd'⟩
        exact ⟨d, List.mem_append_left _ hd, hd'⟩
  | quiet received delivered direct cached =>
    refine ⟨?_, ?_, ?_⟩
    · rw [delivered]
      exact fun d hd => (h.delivered d hd).trans received
    · rw [delivered, direct]
      intro c hc
      rcases cached c hc with hc | ⟨hnew, hle⟩
      · obtain ⟨hpos, hle, hold⟩ := h.cached c hc
        exact ⟨hpos, hle.trans received, hold⟩
      · refine ⟨by omega, hle, ?_⟩
        intro d hd
        have := h.delivered d hd
        omega
    · rw [delivered, direct]
      exact h.direct

theorem known_resend (h : Known s) {nitz : Nitz} (hc : s.lastNITZTimeData = some nitz) :
    Known { s with delivered := s.delivered ++ [⟨slot, nitz⟩], lastNITZTimeData := none } := by
  refine ⟨?_, nofun, ?_⟩
  · intro d hd
    rcases List.mem_append.mp hd with hd | hd
    · exact h.delivered d hd
    · rw [List.mem_singleton.mp hd]
      exact (h.cached nitz hc).2.1
  · intro slot'
    apply (h.direct slot').imp_right
    rintro ⟨d, hd, hd'⟩
    exact ⟨d, List.mem_append_left _ hd, hd'⟩

theorem redelivers_or_not (s : State) (slot : Slot) (ok : Bool) :
    (∃ c, s.lastNITZTimeData = some c ∧ s.Takes slot c.length ok) ∨
      ∀ c ∈ s.lastNITZTimeData, ¬ s.Takes slot c.length ok := by
  by_cases h : ∃ c, s.lastNITZTimeData = some c ∧ s.Takes slot c.length ok
  · exact .inl h
  · exact .inr fun c hc htakes => h ⟨c, hc, htakes⟩

theorem known_next (h : Known s) (e : Event) : Known (next s e) := by
  cases e with
  | nitz slot length ok timer alloc => exact known_of_effect h (effect_sendUnsolResponse ..)
  | lose slot => exact ⟨h.delivered, h.cached, h.direct⟩
  | setResponseFunctions slot indication => exact ⟨h.delivered, h.cached, h.direct⟩
  | onNewCommandConnect slot ok =>
    rcases redelivers_or_not s slot ok with ⟨c, hc, htakes⟩ | hnot
    · rw [next, onNewCommandConnect_takes hc htakes]
      exact known_resend h hc
    · exact known_of_effect h (effect_onNewCommandConnect hnot)

theorem inOrder_congr {t : State} (h : t.delivered = s.delivered) : InOrder t ↔ InOrder s := by
  constructor
  · rintro ⟨hown, honce, hnewer⟩
    rw [h] at hown honce hnewer
    exact ⟨hown, honce, hnewer⟩
  · rintro ⟨hown, honce, hnewer⟩
    rw [← h] at hown honce hnewer
    exact ⟨hown, honce, hnewer⟩

/-- One more delivery keeps the order if it goes to the slot of its NITZ, which has not been
delivered, and the slot has been given older ones only. -/
theorem inOrder_append {t : State} {d : Delivery} (h : InOrder s)
    (ht : t.delivered = s.delivered ++ [d])
    (hfresh : ∀ e ∈ s.delivered, e.nitz.number ≠ d.nitz.number) :
    InOrder t ↔ d.slot = d.nitz.slot ∧
      ∀ e ∈ s.delivered, e.slot = d.slot → e.nitz.number < d.nitz.number := by
  have hlast : d ∈ t.delivered := by
    rw [ht]
    exact List.mem_append_right _ (List.mem_singleton.mpr rfl)
  constructor
  · intro horder
    refine ⟨horder.own d hlast, ?_⟩
    intro e he
    have hnewer := horder.newer
    rw [ht, List.pairwise_append] at hnewer
    exact hnewer.2.2 e he d (List.mem_singleton.mpr rfl)
  · rintro ⟨hown, hnewer⟩
    refine ⟨?_, ?_, ?_⟩
    · rw [ht]
      intro e he
      rcases List.mem_append.mp he with he | he
      · exact h.own e he
      · rw [List.mem_singleton.mp he]
        exact hown
    · rw [ht, List.map_append, List.map_singleton, List.nodup_append]
      refine ⟨h.once, by simp, ?_⟩
      intro n hn m hm
      obtain ⟨e, he, rfl⟩ := List.mem_map.mp hn
      rw [List.mem_singleton.mp hm]
      exact hfresh e he
    · rw [ht, List.pairwise_append]
      refine ⟨h.newer, List.pairwise_singleton _ _, ?_⟩
      intro e he f hf
      rw [List.mem_singleton.mp hf]
      exact hnewer e he

/-- What goes straight to a client is newer than all that was delivered before. -/
theorem inOrder_of_effect {t : State} (hk : Known s) (h : InOrder s) (he : Effect s t) :
    InOrder t := by
  cases he with
  | direct slot length received delivered direct cached =>
    have hnew : ∀ e ∈ s.delivered, e.nitz.number < s.received + 1 := fun e he =>
      Nat.lt_succ_of_le (hk.delivered e he)
    rw [inOrder_append h delivered fun e he => (hnew e he).ne]
    exact ⟨rfl, fun e he _ => hnew e he⟩
  | quiet received delivered direct cached => exact (inOrder_congr delivered).mpr h

/-- The slot has been given older NITZs only if the last that went straight to its client is older:
those that were redelivered are. -/
theorem older_iff (hk : Known s) {c : Nitz} (hc : s.lastNITZTimeData = some c) (slot : Slot) :
    (∀ d ∈ s.delivered, d.slot = slot → d.nitz.number < c.number) ↔ s.direct slot < c.number := by
  obtain ⟨hpos, -, hcached⟩ := hk.cached c hc
  constructor
  · intro holder
    rcases hk.direct slot with hnone | ⟨d, hd, hslot, hnumber⟩
    · omega
    · rw [← hnumber]
      exact holder d hd hslot
  · rintro hdirect d hd rfl
    rcases (hcached d hd).2 with holder | holder
    · exact holder
    · omega

theorem inOrder_next_iff (hk : Known s) (h : InOrder s) (e : Event) :
    InOrder (next s e) ↔ CacheFits s e := by
  cases e with
  | nitz slot length ok timer alloc =>
    exact iff_of_true (inOrder_of_effect hk h (effect_sendUnsolResponse ..)) trivial
  | lose slot => exact iff_of_true ⟨h.own, h.once, h.newer⟩ trivial
  | setResponseFunctions slot indication => exact iff_of_true ⟨h.own, h.once, h.newer⟩ trivial
  | onNewCommandConnect slot ok =>
    rcases redelivers_or_not s slot ok with ⟨c, hc, htakes⟩ | hnot
    · have hfresh : ∀ d ∈ s.delivered, d.nitz.number ≠ c.number := fun d hd =>
        ((hk.cached c hc).2.2 d hd).1
      rw [next, onNewCommandConnect_takes hc htakes, inOrder_append h rfl hfresh,
        older_iff hk hc]
      simp only [CacheFits, hc, Option.mem_some_iff, forall_eq', htakes, forall_const]
      exact and_congr_left' eq_comm
    · refine iff_of_true (inOrder_of_effect hk h (effect_onNewCommandConnect hnot)) ?_
      exact fun c hc htakes => absurd htakes (hnot c hc)

theorem legal (s : State) (es : List Event) : rild.Legal s es :=
  (along_events _ (fun _ => True) s es).mpr fun _ _ => trivial

/-- Throughout a run each NITZ goes to its own slot, at most once and after no newer one, exactly if
the cache fits whenever a slot connects. -/
theorem inOrder_iff (es : List Event) :
    (∀ pre, pre <+: es → InOrder (rild.run initial pre)) ↔ rild.Along CacheFits initial es :=
  always_iff_guarded rild (I := Known) (fun _ e h _ => known_next h e)
    (fun _ e hk h _ => inOrder_next_iff hk h e) known_initial inOrder_initial (legal initial es)

/-- A NITZ that slot 0 could not be given goes to slot 1, which connects first. -/
theorem other_slot_is_given_the_nitz :
    ¬ ∀ es, ∀ pre, pre <+: es → InOrder (rild.run initial pre) := by
  intro h
  have horder := h [.nitz 0 20 true true true, .setResponseFunctions 1 true,
    .onNewCommandConnect 1 true] _ (List.prefix_refl _)
  exact absurd (horder.own ⟨1, ⟨1, 0, 20⟩⟩ (by decide)) (by decide)

end RilNitz
