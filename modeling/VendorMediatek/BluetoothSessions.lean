import Mathlib.Data.List.Perm.Basic
import VendorMediatek.LabelledRuns

/-!
# The clients of the Bluetooth HAL

BluetoothHci and the one VendorInterface behind it: who is told that the firmware is configured, and
what becomes of the process when a client closes or dies.
-/

namespace BluetoothSessions

open LabelledRuns

/-- The callback object of a client. -/
abbrev Callbacks := ℕ

/-- A VendorInterface: the client that waits for the firmware. -/
structure VendorInterface where
  initialize_complete_cb_ : Option Callbacks
  deriving DecidableEq

/-- The death recipient is linked to the clients in linked, once for each initialize. Who has asked,
what was answered and whose answer was lost is kept. -/
structure State where
  g_vendor_interface : Option VendorInterface
  unlink_cb_ : Option Callbacks
  has_died_ : Bool
  linked : List Callbacks
  aborted : Bool
  asked : List Callbacks
  answers : List (Callbacks × Bool)
  lost : List Callbacks

def initial (has_died_ : Bool) : State := ⟨none, none, has_died_, [], false, [], [], []⟩

def State.abort (s : State) : State := { s with aborted := true }

/-- The client that waits for the firmware. -/
def State.pending (s : State) : List Callbacks :=
  (s.g_vendor_interface.bind VendorInterface.initialize_complete_cb_).toList

/-- VendorInterface::Initialize and the answer that is given at once. Open aborts without a device. -/
def State.initializeVendor (s : State) (cb : Callbacks) (opens : Bool) : State :=
  match s.g_vendor_interface with
  | some _ => { s with answers := s.answers ++ [(cb, false)] }
  | none => if opens then { s with g_vendor_interface := some ⟨some cb⟩ } else s.abort

/-- BluetoothHci::initialize. -/
def State.initializeHci (s : State) (cb : Callbacks) (opens : Bool) : State :=
  let s := { s with has_died_ := false, linked := s.linked ++ [cb], asked := s.asked ++ [cb] }
  { s.initializeVendor cb opens with unlink_cb_ := some cb }

/-- VendorInterface::Shutdown. -/
def State.shutdown (s : State) : State :=
  match s.g_vendor_interface with
  | none => s.abort
  | some _ => { s with g_vendor_interface := none, lost := s.lost ++ s.pending }

/-- BluetoothHci::close. An empty unlink_cb_ cannot be called. -/
def State.close (s : State) : State :=
  match s.unlink_cb_ with
  | none => s.abort
  | some cb =>
    if s.has_died_ then s.shutdown else { s with linked := s.linked.erase cb }.shutdown

def State.serviceDied (s : State) (cb : Callbacks) : State :=
  { s with linked := s.linked.erase cb, has_died_ := true }.close

/-- VendorInterface::OnFirmwareConfigured. -/
def State.onFirmwareConfigured (s : State) (success : Bool) : State :=
  { s with
    g_vendor_interface := s.g_vendor_interface.map fun _ => ⟨none⟩
    answers := s.answers ++ s.pending.map fun cb => (cb, success) }

/-- An initialize with a null callback does nothing. -/
inductive Event where
  | initializes (cb : Option Callbacks) (opens : Bool)
  | close
  | serviceDied (cb : Callbacks)
  | send
  | firmwareConfigured (success : Bool)
  deriving DecidableEq

def next (s : State) : Event → State
  | .initializes none _ => s
  | .initializes (some cb) opens => s.initializeHci cb opens
  | .close => s.close
  | .serviceDied cb => s.serviceDied cb
  | .send => if s.g_vendor_interface.isSome then s else s.abort
  | .firmwareConfigured success => s.onFirmwareConfigured success

def Enabled (s : State) : Event → Prop
  | .serviceDied cb => s.aborted = false ∧ cb ∈ s.linked
  | .firmwareConfigured _ => s.aborted = false ∧ s.g_vendor_interface.isSome
  | _ => s.aborted = false

def system : System State Event := ⟨Enabled, next⟩

instance (s : State) (e : Event) : Decidable (system.Enabled s e) := by
  cases e <;> simp only [system, Enabled] <;> infer_instance

/-! ## What the calls do -/

theorem initializeVendor_cases (s : State) (cb : Callbacks) (opens : Bool) :
    s.g_vendor_interface.isSome = true ∧
        s.initializeVendor cb opens = { s with answers := s.answers ++ [(cb, false)] } ∨
      s.g_vendor_interface = none ∧
        s.initializeVendor cb opens = { s with g_vendor_interface := some ⟨some cb⟩ } ∨
      s.g_vendor_interface = none ∧ s.initializeVendor cb opens = s.abort := by
  unfold State.initializeVendor
  split
  · next hsome => exact .inl ⟨by rw [hsome]; rfl, rfl⟩
  · next hnone =>
    split
    · exact .inr (.inl ⟨hnone, rfl⟩)
    · exact .inr (.inr ⟨hnone, rfl⟩)

theorem shutdown_of_some {s : State} (h : s.g_vendor_interface.isSome = true) :
    s.shutdown = { s with g_vendor_interface := none, lost := s.lost ++ s.pending } := by
  obtain ⟨v, hv⟩ := Option.isSome_iff_exists.mp h
  simp only [State.shutdown, hv]

theorem shutdown_of_none {s : State} (h : s.g_vendor_interface = none) : s.shutdown = s.abort := by
  simp only [State.shutdown, h]

/-! ## Links and the interface -/

/-- Links have a client to unlink. An interface has one that is linked. -/
structure Inv (s : State) : Prop where
  unlink : s.linked ≠ [] → s.unlink_cb_ ≠ none
  up : s.g_vendor_interface.isSome = true →
    s.has_died_ = false ∧ ∃ cb ∈ s.unlink_cb_, cb ∈ s.linked

/-- The death of a client does not bring the process down. -/
def Defused (s : State) : Prop :=
  ∀ cb, Enabled s (.serviceDied cb) → (next s (.serviceDied cb)).aborted = false

/-- A session ends with one link. -/
def EndsAlone (s : State) : Event → Prop
  | .close | .serviceDied _ => s.g_vendor_interface.isSome = true → s.linked.length = 1
  | _ => True

instance (s : State) (e : Event) : Decidable (EndsAlone s e) := by
  cases e <;> simp only [EndsAlone] <;> infer_instance

theorem serviceDied_of_some {s : State} (h : Inv s) (hs : s.g_vendor_interface.isSome = true)
    (cb : Callbacks) : s.serviceDied cb =
      { s with
        linked := s.linked.erase cb
        has_died_ := true
        g_vendor_interface := none
        lost := s.lost ++ s.pending } := by
  obtain ⟨-, other, hother, -⟩ := h.up hs
  simp only [State.serviceDied, State.close, Option.mem_def.mp hother, if_pos]
  exact shutdown_of_some hs

theorem serviceDied_of_none {s : State} (hs : s.g_vendor_interface = none) (cb : Callbacks) :
    (s.serviceDied cb).aborted = true := by
  simp only [State.serviceDied, State.close]
  split
  · rfl
  · rw [if_pos trivial, shutdown_of_none (by exact hs)]
    rfl

theorem close_of_some {s : State} (h : Inv s) (hs : s.g_vendor_interface.isSome = true) :
    ∃ cb ∈ s.linked, s.close =
      { s with
        linked := s.linked.erase cb
        g_vendor_interface := none
        lost := s.lost ++ s.pending } := by
  obtain ⟨hdied, cb, hcb, hmem⟩ := h.up hs
  refine ⟨cb, hmem, ?_⟩
  simp only [State.close, Option.mem_def.mp hcb, hdied]
  exact shutdown_of_some hs

theorem close_of_none {s : State} (hs : s.g_vendor_interface = none) :
    s.close.aborted = true := by
  unfold State.close
  split
  · rfl
  · split
    · rw [shutdown_of_none hs]
      rfl
    · rw [shutdown_of_none (by exact hs)]
      rfl

theorem defused_iff {s : State} (h : Inv s) (hs : s.aborted = false) :
    Defused s ↔ (s.g_vendor_interface = none → s.linked = []) := by
  constructor
  · intro hdefused hnone
    refine List.eq_nil_iff_forall_not_mem.mpr fun cb hcb => ?_
    have habort : (next s (.serviceDied cb)).aborted = true := serviceDied_of_none hnone cb
    rw [hdefused cb ⟨hs, hcb⟩] at habort
    cases habort
  · intro hlinked cb he
    have hsome : s.g_vendor_interface.isSome = true := by
      by_contra hnone
      have hempty := hlinked (by simpa using hnone)
      have hmem : cb ∈ s.linked := he.2
      rw [hempty] at hmem
      cases hmem
    simp only [next, serviceDied_of_some h hsome]
    exact hs

theorem defused_of_aborted {s : State} (hs : s.aborted = true) : Defused s := by
  intro cb he
  have hrun : s.aborted = false := he.1
  rw [hs] at hrun
  cases hrun

theorem inv_initializeHci {s : State} (cb : Callbacks) (opens : Bool) :
    Inv (s.initializeHci cb opens) := by
  have hlinked : ∀ t : State, ∀ cb opens, (t.initializeVendor cb opens).linked = t.linked ∧
      (t.initializeVendor cb opens).has_died_ = t.has_died_ := by
    intro t cb opens
    rcases initializeVendor_cases t cb opens with ⟨-, heq⟩ | ⟨-, heq⟩ | ⟨-, heq⟩
    · rw [heq]
      exact ⟨rfl, rfl⟩
    · rw [heq]
      exact ⟨rfl, rfl⟩
    · rw [heq]
      exact ⟨rfl, rfl⟩
  refine ⟨fun _ => nofun, fun _ => ⟨(hlinked _ _ _).2, cb, rfl, ?_⟩⟩
  simp only [State.initializeHci, (hlinked _ _ _).1]
  exact List.mem_append_right _ List.mem_cons_self

theorem inv_of_aborted {s : State} (h : Inv s) : Inv s.abort := ⟨h.unlink, h.up⟩

theorem inv_erase {s t : State} (h : Inv s) {cb : Callbacks} (hlinked : t.linked = s.linked.erase cb)
    (hunlink : t.unlink_cb_ = s.unlink_cb_) (hvendor : t.g_vendor_interface = none) : Inv t := by
  refine ⟨fun hne => ?_, fun hsome => ?_⟩
  · rw [hunlink]
    refine h.unlink fun hempty => hne ?_
    rw [hlinked, hempty, List.erase_nil]
  · rw [hvendor] at hsome
    cases hsome

theorem inv_step (s : State) (e : Event) (h : Inv s) (he : Enabled s e) : Inv (next s e) := by
  cases e with
  | initializes cb opens =>
    cases cb with
    | none => exact h
    | some cb => exact inv_initializeHci cb opens
  | close =>
    by_cases hs : s.g_vendor_interface.isSome = true
    · obtain ⟨cb, -, heq⟩ := close_of_some h hs
      simp only [next, heq]
      exact inv_erase h rfl rfl rfl
    · have hnone : s.g_vendor_interface = none := by simpa using hs
      simp only [next, State.close]
      split
      · exact inv_of_aborted h
      · split
        · rw [shutdown_of_none hnone]
          exact inv_of_aborted h
        · rw [shutdown_of_none (by exact hnone)]
          exact inv_erase h rfl rfl hnone
  | serviceDied cb =>
    by_cases hs : s.g_vendor_interface.isSome = true
    · simp only [next, serviceDied_of_some h hs]
      exact inv_erase h rfl rfl rfl
    · have hnone : s.g_vendor_interface = none := by simpa using hs
      simp only [next, State.serviceDied, State.close]
      split
      · exact inv_erase h rfl rfl hnone
      · rw [if_pos trivial, shutdown_of_none (by exact hnone)]
        exact inv_erase h rfl rfl hnone
  | send =>
    simp only [next]
    split
    · exact h
    · exact inv_of_aborted h
  | firmwareConfigured success =>
    refine ⟨h.unlink, fun hsome => h.up ?_⟩
    simpa [next, State.onFirmwareConfigured] using hsome

/-- A session that ends with more than one link leaves a death that brings the process down. -/
theorem defused_step {s : State} {e : Event} (h : Inv s) (hd : Defused s) (he : Enabled s e) :
    Defused (next s e) ↔ EndsAlone s e := by
  have hrun : s.aborted = false := by
    cases e with
    | serviceDied cb => exact he.1
    | firmwareConfigured success => exact he.1
    | _ => exact he
  have hlinked := (defused_iff h hrun).mp hd
  have hi := inv_step s e h he
  have herase : ∀ {t : State} {cb}, Inv t → t.aborted = s.aborted → t.g_vendor_interface = none →
      t.linked = s.linked.erase cb → cb ∈ s.linked → (Defused t ↔ s.linked.length = 1) := by
    intro t cb hinv haborted hvendor hlinks hmem
    rw [defused_iff hinv (haborted.trans hrun), hlinks, hvendor, ← List.length_eq_zero_iff,
      List.length_erase_of_mem hmem]
    have hpos := List.length_pos_of_mem hmem
    exact ⟨fun hzero => by have := hzero rfl; omega, fun hone _ => by omega⟩
  cases e with
  | initializes cb opens =>
    refine iff_of_true ?_ trivial
    cases cb with
    | none => exact hd
    | some cb =>
      by_cases haborted : (next s (.initializes (some cb) opens)).aborted = true
      · exact defused_of_aborted haborted
      · refine (defused_iff hi (by simpa using haborted)).mpr fun hnone => ?_
        simp only [next, State.initializeHci] at hnone haborted
        rcases initializeVendor_cases { s with
            has_died_ := false, linked := s.linked ++ [cb], asked := s.asked ++ [cb] } cb opens with
          ⟨hsome, heq⟩ | ⟨-, heq⟩ | ⟨-, heq⟩
        · rw [heq] at hnone
          simp only at hsome hnone
          rw [hnone] at hsome
          cases hsome
        · rw [heq] at hnone
          cases hnone
        · rw [heq] at haborted
          exact absurd rfl haborted
  | close =>
    by_cases hs : s.g_vendor_interface.isSome = true
    · obtain ⟨cb, hmem, heq⟩ := close_of_some h hs
      have hnext : next s .close = _ := heq
      rw [hnext] at hi ⊢
      exact (herase hi rfl rfl rfl hmem).trans ⟨fun hone _ => hone, fun hends => hends hs⟩
    · have hnone : s.g_vendor_interface = none := by simpa using hs
      exact iff_of_true (defused_of_aborted (close_of_none hnone)) fun hsome => absurd hsome hs
  | serviceDied cb =>
    by_cases hs : s.g_vendor_interface.isSome = true
    · have hnext : next s (.serviceDied cb) = _ := serviceDied_of_some h hs cb
      rw [hnext] at hi ⊢
      exact (herase hi rfl rfl rfl he.2).trans ⟨fun hone _ => hone, fun hends => hends hs⟩
    · have hnone : s.g_vendor_interface = none := by simpa using hs
      exact iff_of_true (defused_of_aborted (serviceDied_of_none hnone cb))
        fun hsome => absurd hsome hs
  | send =>
    refine iff_of_true ?_ trivial
    simp only [next]
    split
    · exact hd
    · exact defused_of_aborted rfl
  | firmwareConfigured success =>
    refine iff_of_true ((defused_iff hi hrun).mpr fun hnone => hlinked ?_) trivial
    simpa [next, State.onFirmwareConfigured] using hnone

theorem inv_initial (has_died_ : Bool) : Inv (initial has_died_) :=
  ⟨fun hne => absurd rfl hne, nofun⟩

/-- The death of a client never brings the process down, throughout a run, exactly when no other
initialize has come during a session that ends. -/
theorem always_defused_iff {has_died_ : Bool} {es : List Event}
    (legal : system.Legal (initial has_died_) es) :
    (∀ pre, pre <+: es → Defused (system.run (initial has_died_) pre)) ↔
      system.Along EndsAlone (initial has_died_) es := by
  have hdefused : Defused (initial has_died_) :=
    (defused_iff (inv_initial has_died_) rfl).mpr fun _ => rfl
  exact always_iff_guarded system inv_step (fun _ _ h hd he => defused_step h hd he)
    (inv_initial has_died_) hdefused legal

/-- A second client is turned away, and the first is still linked when it has closed. -/
theorem always_defused_iff_turned_away :
    let es : List Event := [.initializes (some 1) true, .firmwareConfigured true,
      .initializes (some 2) true, .close]
    (∀ pre, pre <+: es → Defused (system.run (initial false) pre)) ↔
      system.Along EndsAlone (initial false) es :=
  always_defused_iff (by decide)

/-! ## Who is answered -/

/-- Each initialize has been answered, waits for the firmware, or was lost with its session. -/
def Answered (s : State) : Prop :=
  s.aborted = false → s.asked.Perm (s.answers.map Prod.fst ++ s.pending ++ s.lost)

end BluetoothSessions
