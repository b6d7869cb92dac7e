import Mathlib.Logic.Function.Basic
import VendorMediatek.LabelledRuns

/-!
# The RIL wake lock

`grabPartialWakeLock`, `releaseWakeLock` and the wake timers (ril.cpp, vendor version 13 and
later). A section under s_wakeLockCountMutex is one step; `userTimerCallback` holds no mutex, so it
reads the parameter, compares s_last_wake_timeout_info and clears it in steps of their own.
-/

namespace RilWakeLock

open LabelledRuns

/-- How far userTimerCallback has come with a timer: `called` where it has passed NULL on to the
callback, which has yet to take the mutex. -/
inductive Stage where
  | armed
  | called
  | returned
  | compared (same : Bool)
  deriving DecidableEq, Repr

/-- `userParam` says whether the pointer is not NULL. The cid is -1, below RIL_URC, and the
callback is wakeTimeoutCallback. `grab` is the number of the grab that armed the timer, which the
code does not keep. -/
structure UserCallbackInfo where
  userParam : Bool
  stage : Stage
  grab : ℕ
  deriving DecidableEq, Repr

/-- The timers by number; a freed one is none. `held` is the kernel's wake lock. -/
structure State where
  sWakelockCount : ℕ
  sLastWakeTimeoutInfo : Option ℕ
  held : Bool
  timers : ℕ → Option UserCallbackInfo
  allocated : ℕ
  grabs : ℕ

def initial : State := ⟨0, none, false, fun _ => none, 0, 0⟩

inductive Event where
  | grabPartialWakeLock (allocates : Bool)
  | releaseWakeLock
  | readUserParam (i : ℕ)
  | wakeTimeoutCallback (i : ℕ)
  | compareLast (i : ℕ)
  | clearAndFree (i : ℕ)
  deriving DecidableEq, Repr

def State.setStage (s : State) (i : ℕ) (stage : Stage) : State :=
  { s with timers := Function.update s.timers i ((s.timers i).map fun t => { t with stage := stage }) }

/-- s_last_wake_timeout_info->userParam = (void *)1, where it is not NULL. -/
def State.cancelLast (s : State) : State :=
  match s.sLastWakeTimeoutInfo with
  | none => s
  | some i =>
    { s with
      timers := Function.update s.timers i ((s.timers i).map fun t => { t with userParam := true }) }

/-- internalRequestTimedCallback, where calloc succeeds. -/
def State.armTimer (s : State) : State :=
  { s with
    timers := Function.update s.timers s.allocated (some ⟨false, .armed, s.grabs⟩)
    allocated := s.allocated + 1
    sLastWakeTimeoutInfo := some s.allocated }

def grabPartialWakeLock (s : State) (allocates : Bool) : State :=
  let s := { s with held := true, grabs := s.grabs + 1 }
  if allocates then { s with sWakelockCount := s.sWakelockCount + 1 }.cancelLast.armTimer
  else { s with held := false }

def releaseWakeLock (s : State) : State :=
  if s.sWakelockCount > 1 then { s with sWakelockCount := s.sWakelockCount - 1 }
  else { s with sWakelockCount := 0, held := false }.cancelLast

def atStage (s : State) (i : ℕ) (stage : Stage) : Prop :=
  (s.timers i).map UserCallbackInfo.stage = some stage

instance (s : State) (i : ℕ) (stage : Stage) : Decidable (atStage s i stage) :=
  inferInstanceAs (Decidable (_ = _))

def Enabled (s : State) : Event → Prop
  | .grabPartialWakeLock _ => True
  | .releaseWakeLock => True
  | .readUserParam i => atStage s i .armed
  | .wakeTimeoutCallback i => atStage s i .called
  | .compareLast i => atStage s i .returned
  | .clearAndFree i => atStage s i (.compared true) ∨ atStage s i (.compared false)

instance (s : State) (e : Event) : Decidable (Enabled s e) := by
  cases e <;> simp only [Enabled] <;> infer_instance

def next (s : State) : Event → State
  | .grabPartialWakeLock allocates => grabPartialWakeLock s allocates
  | .releaseWakeLock => releaseWakeLock s
  | .readUserParam i =>
    -- a parameter that is not NULL makes the callback return at once
    s.setStage i (if (s.timers i).any (·.userParam) then .returned else .called)
  | .wakeTimeoutCallback i => { s with sWakelockCount := 0, held := false }.setStage i .returned
  | .compareLast i => s.setStage i (.compared (s.sLastWakeTimeoutInfo = some i))
  | .clearAndFree i =>
    { s with
      sLastWakeTimeoutInfo := if atStage s i (.compared true) then none else s.sLastWakeTimeoutInfo
      timers := Function.update s.timers i none }

def system : System State Event := ⟨Enabled, next⟩

instance (s : State) (e : Event) : Decidable (system.Enabled s e) :=
  inferInstanceAs (Decidable (Enabled s e))

/-- The kernel's lock goes with the count. -/
def Accounted (s : State) : Prop := s.held = true ↔ 0 < s.sWakelockCount

instance (s : State) : Decidable (Accounted s) := inferInstanceAs (Decidable (_ ↔ _))

/-- The count is not set to 0 by a timer armed before the most recent grab. -/
def SetByLatest (s : State) : Event → Prop
  | .wakeTimeoutCallback i => ∀ t ∈ s.timers i, t.grab = s.grabs
  | _ => True

/-- A grab finds no timer that has read NULL and not yet run its section. One that arms a
timer finds none that has compared itself with s_last_wake_timeout_info and not yet cleared it, and
one whose allocation fails finds the count at 0. -/
def Settled (s : State) : Event → Prop
  | .grabPartialWakeLock allocates =>
    (∀ i, ¬ atStage s i .called) ∧
      if allocates then ∀ i, ¬ atStage s i (.compared true) else s.sWakelockCount = 0
  | _ => True

/-! ## The accounting -/

/-- A timer that can still reach the section is the last one, of the last grab. -/
structure Invariant (s : State) : Prop where
  accounted : Accounted s
  fresh : ∀ i t, s.timers i = some t → i < s.allocated
  pending : ∀ i t, s.timers i = some t → t.stage = .armed → t.userParam = false →
    s.sLastWakeTimeoutInfo = some i ∧ t.grab = s.grabs ∧ 0 < s.sWakelockCount
  called : ∀ i t, s.timers i = some t → t.stage = .called →
    s.sLastWakeTimeoutInfo = some i ∧ t.grab = s.grabs
  compared : ∀ i t, s.timers i = some t → t.stage = .compared true →
    s.sLastWakeTimeoutInfo = some i

theorem initial_invariant : Invariant initial := by
  constructor
  · decide
  · intro i t h
    cases h
  · intro i t h
    cases h
  · intro i t h
    cases h
  · intro i t h
    cases h

theorem atStage_iff {s : State} {i : ℕ} {stage : Stage} :
    atStage s i stage ↔ ∃ t, s.timers i = some t ∧ t.stage = stage := by
  simp [atStage, Option.map_eq_some_iff]

theorem setStage_timer {s : State} {i j : ℕ} {stage : Stage} {t : UserCallbackInfo}
    (h : (s.setStage i stage).timers j = some t) :
    ∃ u, s.timers j = some u ∧ t.userParam = u.userParam ∧ t.grab = u.grab ∧
      t.stage = if j = i then stage else u.stage := by
  by_cases hj : j = i
  · subst hj
    simp only [State.setStage, Function.update_self, Option.map_eq_some_iff] at h
    obtain ⟨u, hu, rfl⟩ := h
    exact ⟨u, hu, rfl, rfl, (if_pos rfl).symm⟩
  · simp only [State.setStage, Function.update_of_ne hj] at h
    exact ⟨t, h, rfl, rfl, (if_neg hj).symm⟩

/-- A timer that is at another stage than the one that is set was there before. -/
theorem setStage_timer_of_ne {s : State} {i j : ℕ} {stage : Stage} {t : UserCallbackInfo}
    (h : (s.setStage i stage).timers j = some t) (hne : t.stage ≠ stage) :
    j ≠ i ∧ s.timers j = some t := by
  by_cases hj : j = i
  · obtain ⟨u, _, _, _, hst⟩ := setStage_timer h
    rw [if_pos hj] at hst
    exact absurd hst hne
  · simp only [State.setStage, Function.update_of_ne hj] at h
    exact ⟨hj, h⟩

theorem cancelLast_timer {s : State} {j : ℕ} {t : UserCallbackInfo}
    (h : s.cancelLast.timers j = some t) :
    ∃ u, s.timers j = some u ∧ t.stage = u.stage ∧ t.grab = u.grab ∧
      (t.userParam = false → u.userParam = false ∧ s.sLastWakeTimeoutInfo ≠ some j) := by
  unfold State.cancelLast at h
  split at h
  · rename_i hl
    exact ⟨t, h, rfl, rfl, fun hp => ⟨hp, by simp [hl]⟩⟩
  · rename_i i hl
    by_cases hj : j = i
    · subst hj
      simp only [Function.update_self, Option.map_eq_some_iff] at h
      obtain ⟨u, hu, rfl⟩ := h
      exact ⟨u, hu, rfl, rfl, fun hp => absurd hp (by simp)⟩
    · simp only [Function.update_of_ne hj] at h
      refine ⟨t, h, rfl, rfl, fun hp => ⟨hp, ?_⟩⟩
      intro he
      exact hj (Option.some.inj (hl.symm.trans he)).symm

@[simp] theorem cancelLast_count (s : State) :
    s.cancelLast.sWakelockCount = s.sWakelockCount := by
  unfold State.cancelLast
  split <;> rfl

@[simp] theorem cancelLast_held (s : State) : s.cancelLast.held = s.held := by
  unfold State.cancelLast
  split <;> rfl

@[simp] theorem cancelLast_last (s : State) :
    s.cancelLast.sLastWakeTimeoutInfo = s.sLastWakeTimeoutInfo := by
  unfold State.cancelLast
  split <;> rfl

@[simp] theorem cancelLast_allocated (s : State) : s.cancelLast.allocated = s.allocated := by
  unfold State.cancelLast
  split <;> rfl

@[simp] theorem cancelLast_grabs (s : State) : s.cancelLast.grabs = s.grabs := by
  unfold State.cancelLast
  split <;> rfl

theorem armTimer_timer {s : State} {j : ℕ} {t : UserCallbackInfo}
    (h : s.armTimer.timers j = some t) :
    (j = s.allocated ∧ t = ⟨false, .armed, s.grabs⟩) ∨ (j ≠ s.allocated ∧ s.timers j = some t) := by
  by_cases hj : j = s.allocated
  · subst hj
    simp only [State.armTimer, Function.update_self, Option.some_inj] at h
    exact Or.inl ⟨rfl, h.symm⟩
  · simp only [State.armTimer, Function.update_of_ne hj] at h
    exact Or.inr ⟨hj, h⟩

/-- The grab whose allocation succeeds: every earlier timer is cancelled or past its section. -/
theorem invariant_grab_armed {s : State} (h : Invariant s) (hc : ∀ i, ¬ atStage s i .called)
    (hl : ∀ i, ¬ atStage s i (.compared true)) : Invariant (grabPartialWakeLock s true) := by
  simp only [grabPartialWakeLock, if_true]
  let b : State :=
    ⟨s.sWakelockCount + 1, s.sLastWakeTimeoutInfo, true, s.timers, s.allocated, s.grabs + 1⟩
  change Invariant b.cancelLast.armTimer
  have hold : ∀ j t, b.cancelLast.timers j = some t → ∃ u, s.timers j = some u ∧
      t.stage = u.stage ∧ (t.stage = .armed → t.userParam = true) := by
    intro j t ht
    obtain ⟨u, hu, hstage, _, hparam⟩ := cancelLast_timer ht
    refine ⟨u, hu, hstage, fun harmed => ?_⟩
    by_contra hp
    obtain ⟨hup, hne⟩ := hparam (Bool.eq_false_iff.mpr hp)
    exact hne (h.pending j u hu (hstage ▸ harmed) hup).1
  constructor
  · simp [Accounted, State.armTimer, b]
  · intro j t ht
    rcases armTimer_timer ht with ⟨rfl, _⟩ | ⟨_, ht⟩
    · exact Nat.lt_succ_self _
    · obtain ⟨u, hu, _⟩ := hold j t ht
      have hlt := h.fresh j u hu
      simp only [State.armTimer, cancelLast_allocated]
      exact Nat.lt_succ_of_lt hlt
  · intro j t ht harmed hparam
    rcases armTimer_timer ht with ⟨rfl, rfl⟩ | ⟨_, ht⟩
    · exact ⟨rfl, rfl, by simp [State.armTimer, b]⟩
    · obtain ⟨u, _, _, hcancelled⟩ := hold j t ht
      rw [hcancelled harmed] at hparam
      cases hparam
  · intro j t ht hcalled
    rcases armTimer_timer ht with ⟨rfl, rfl⟩ | ⟨_, ht⟩
    · cases hcalled
    · obtain ⟨u, hu, hstage, _⟩ := hold j t ht
      exact absurd (atStage_iff.mpr ⟨u, hu, hstage ▸ hcalled⟩) (hc j)
  · intro j t ht hcompared
    rcases armTimer_timer ht with ⟨rfl, rfl⟩ | ⟨_, ht⟩
    · cases hcompared
    · obtain ⟨u, hu, hstage, _⟩ := hold j t ht
      exact absurd (atStage_iff.mpr ⟨u, hu, hstage ▸ hcompared⟩) (hl j)

/-- The grab whose allocation fails gives back a lock that nobody else counts. -/
theorem invariant_grab_failed {s : State} (h : Invariant s) (hc : ∀ i, ¬ atStage s i .called)
    (hcount : s.sWakelockCount = 0) : Invariant (grabPartialWakeLock s false) := by
  constructor
  · simp [Accounted, grabPartialWakeLock, hcount]
  · exact h.fresh
  · intro j t ht harmed hparam
    have hpos := (h.pending j t ht harmed hparam).2.2
    omega
  · intro j t ht hcalled
    exact absurd (atStage_iff.mpr ⟨t, ht, hcalled⟩) (hc j)
  · exact h.compared

theorem invariant_release {s : State} (h : Invariant s) : Invariant (releaseWakeLock s) := by
  unfold releaseWakeLock
  split
  · rename_i hmany
    constructor
    · have := h.accounted
      simp only [Accounted] at this ⊢
      rw [this]
      omega
    · exact h.fresh
    · intro j t ht harmed hparam
      obtain ⟨hlast, hgrab, _⟩ := h.pending j t ht harmed hparam
      exact ⟨hlast, hgrab, Nat.sub_pos_of_lt hmany⟩
    · exact h.called
    · exact h.compared
  · constructor
    · simp [Accounted]
    · intro j t ht
      obtain ⟨u, hu, _⟩ := cancelLast_timer ht
      rw [cancelLast_allocated]
      exact h.fresh j u hu
    · intro j t ht harmed hparam
      obtain ⟨u, hu, hstage, _, hcancelled⟩ := cancelLast_timer ht
      obtain ⟨hup, hne⟩ := hcancelled hparam
      exact absurd (h.pending j u hu (hstage ▸ harmed) hup).1 hne
    · intro j t ht hcalled
      obtain ⟨u, hu, hstage, hgrab, _⟩ := cancelLast_timer ht
      rw [cancelLast_last, cancelLast_grabs, hgrab]
      exact h.called j u hu (hstage ▸ hcalled)
    · intro j t ht hcompared
      obtain ⟨u, hu, hstage, _⟩ := cancelLast_timer ht
      rw [cancelLast_last]
      exact h.compared j u hu (hstage ▸ hcompared)

theorem last_unique {s : State} {i j : ℕ} (hi : s.sLastWakeTimeoutInfo = some i)
    (hj : s.sLastWakeTimeoutInfo = some j) : j = i :=
  Option.some.inj (hj.symm.trans hi)

theorem invariant_read {s : State} (h : Invariant s) {i : ℕ} (he : atStage s i .armed) :
    Invariant (next s (.readUserParam i)) := by
  obtain ⟨a, ha, harmed⟩ := atStage_iff.mp he
  have hany : (s.timers i).any (·.userParam) = a.userParam := by rw [ha]; rfl
  simp only [next, hany]
  constructor
  · exact h.accounted
  · intro j t ht
    obtain ⟨u, hu, _⟩ := setStage_timer ht
    exact h.fresh j u hu
  · intro j t ht hstage hparam
    obtain ⟨-, hs⟩ := setStage_timer_of_ne ht (by rw [hstage]; split <;> decide)
    exact h.pending j t hs hstage hparam
  · intro j t ht hstage
    obtain ⟨u, hu, _, hgrab, hst⟩ := setStage_timer ht
    by_cases hj : j = i
    · subst hj
      rw [ha] at hu
      cases hu
      rw [if_pos rfl, hstage] at hst
      split at hst
      · cases hst
      · rename_i hp
        obtain ⟨hlast, hlatest, _⟩ := h.pending j a ha harmed (Bool.eq_false_iff.mpr hp)
        exact ⟨hlast, hgrab.trans hlatest⟩
    · rw [if_neg hj] at hst
      rw [hgrab]
      exact h.called j u hu (hst ▸ hstage)
  · intro j t ht hstage
    obtain ⟨-, hs⟩ := setStage_timer_of_ne ht (by rw [hstage]; split <;> decide)
    exact h.compared j t hs hstage

theorem invariant_section {s : State} (h : Invariant s) {i : ℕ} (he : atStage s i .called) :
    Invariant (next s (.wakeTimeoutCallback i)) := by
  obtain ⟨a, ha, hcalled⟩ := atStage_iff.mp he
  have hlast := (h.called i a ha hcalled).1
  constructor
  · simp [Accounted, next, State.setStage]
  · intro j t ht
    obtain ⟨u, hu, _⟩ := setStage_timer ht
    exact h.fresh j u hu
  · intro j t ht hstage hparam
    obtain ⟨hj, hs⟩ := setStage_timer_of_ne ht (by rw [hstage]; decide)
    exact absurd (last_unique hlast (h.pending j t hs hstage hparam).1) hj
  · intro j t ht hstage
    obtain ⟨hj, hs⟩ := setStage_timer_of_ne ht (by rw [hstage]; decide)
    exact absurd (last_unique hlast (h.called j t hs hstage).1) hj
  · intro j t ht hstage
    obtain ⟨-, hs⟩ := setStage_timer_of_ne ht (by rw [hstage]; decide)
    exact h.compared j t hs hstage

theorem invariant_compare {s : State} (h : Invariant s) (i : ℕ) :
    Invariant (next s (.compareLast i)) := by
  constructor
  · exact h.accounted
  · intro j t ht
    obtain ⟨u, hu, _⟩ := setStage_timer ht
    exact h.fresh j u hu
  · intro j t ht hstage hparam
    obtain ⟨-, hs⟩ := setStage_timer_of_ne ht (by rw [hstage]; exact nofun)
    exact h.pending j t hs hstage hparam
  · intro j t ht hstage
    obtain ⟨-, hs⟩ := setStage_timer_of_ne ht (by rw [hstage]; exact nofun)
    exact h.called j t hs hstage
  · intro j t ht hstage
    obtain ⟨u, hu, _, _, hst⟩ := setStage_timer ht
    by_cases hj : j = i
    · subst hj
      rw [if_pos rfl, hstage] at hst
      have hsame := Stage.compared.inj hst
      exact of_decide_eq_true hsame.symm
    · rw [if_neg hj] at hst
      exact h.compared j u hu (hst ▸ hstage)

theorem invariant_clear {s : State} (h : Invariant s) {i : ℕ}
    (he : atStage s i (.compared true) ∨ atStage s i (.compared false)) :
    Invariant (next s (.clearAndFree i)) := by
  have hother : ∀ j t, (next s (.clearAndFree i)).timers j = some t → j ≠ i ∧ s.timers j = some t := by
    intro j t ht
    by_cases hj : j = i
    · subst hj
      simp [next] at ht
    · simp only [next, Function.update_of_ne hj] at ht
      exact ⟨hj, ht⟩
  -- where the pointer is cleared it was that of the freed timer
  have hlast : ∀ j, j ≠ i → s.sLastWakeTimeoutInfo = some j →
      (next s (.clearAndFree i)).sLastWakeTimeoutInfo = some j := by
    intro j hj hl
    simp only [next]
    rw [if_neg, hl]
    intro hsame
    obtain ⟨a, ha, hcompared⟩ := atStage_iff.mp hsame
    exact hj (last_unique (h.compared i a ha hcompared) hl)
  constructor
  · exact h.accounted
  · intro j t ht
    exact h.fresh j t (hother j t ht).2
  · intro j t ht hstage hparam
    obtain ⟨hj, hs⟩ := hother j t ht
    obtain ⟨hl, hgrab, hpos⟩ := h.pending j t hs hstage hparam
    exact ⟨hlast j hj hl, hgrab, hpos⟩
  · intro j t ht hstage
    obtain ⟨hj, hs⟩ := hother j t ht
    obtain ⟨hl, hgrab⟩ := h.called j t hs hstage
    exact ⟨hlast j hj hl, hgrab⟩
  · intro j t ht hstage
    obtain ⟨hj, hs⟩ := hother j t ht
    exact hlast j hj (h.compared j t hs hstage)

theorem invariant_step (s : State) (e : Event) (h : Invariant s) (he : Enabled s e)
    (hq : Settled s e) : Invariant (next s e) := by
  cases e with
  | grabPartialWakeLock allocates =>
    obtain ⟨hcalled, hcase⟩ := hq
    cases allocates with
    | true => exact invariant_grab_armed h hcalled hcase
    | false => exact invariant_grab_failed h hcalled hcase
  | releaseWakeLock => exact invariant_release h
  | readUserParam i => exact invariant_read h he
  | wakeTimeoutCallback i => exact invariant_section h he
  | compareLast i => exact invariant_compare h i
  | clearAndFree i => exact invariant_clear h he

theorem setByLatest_of_invariant {s : State} (h : Invariant s) {e : Event} (he : Enabled s e) :
    SetByLatest s e := by
  cases e with
  | wakeTimeoutCallback i =>
    intro t ht
    obtain ⟨a, ha, hcalled⟩ := atStage_iff.mp he
    obtain rfl := Option.some.inj (ha.symm.trans ht)
    exact (h.called i a ha hcalled).2
  | grabPartialWakeLock _ => trivial
  | releaseWakeLock => trivial
  | readUserParam _ => trivial
  | compareLast _ => trivial
  | clearAndFree _ => trivial

/-- In a run that meets the guard the lock follows the count and no stale timer clears it. -/
theorem wake_lock_accounted {es : List Event} (legal : system.Legal initial es)
    (settled : system.Along Settled initial es) :
    (∀ pre, pre <+: es → Accounted (system.run initial pre)) ∧
      system.Along SetByLatest initial es := by
  constructor
  · intro pre hp
    exact (invariant_run system invariant_step initial_invariant (along_of_le system legal hp)
      (along_of_le system settled hp)).accounted
  · apply along_of_invariant system invariant_step initial_invariant legal settled
    intro s e hs he _
    exact setByLatest_of_invariant hs he

/-- A timer that fires for a lock nobody gives back. -/
theorem fired_timer_accounted :
    let es := [.grabPartialWakeLock true, .readUserParam 0, .wakeTimeoutCallback 0, .compareLast 0,
      .clearAndFree 0, .grabPartialWakeLock false]
    (∀ pre, pre <+: es → Accounted (system.run initial pre)) ∧
      system.Along SetByLatest initial es := by
  apply wake_lock_accounted (by decide)
  have hnone : ∀ i stage, ¬ atStage initial i stage := by simp [atStage, initial]
  refine ⟨⟨fun i => hnone i _, fun i => hnone i _⟩, trivial, trivial, trivial, trivial, ?_, trivial⟩
  refine ⟨fun i => ?_, rfl⟩
  simp [atStage, system, next, grabPartialWakeLock, State.cancelLast, State.armTimer, State.setStage,
    initial]

/-- A grab whose allocation fails gives back the lock that an earlier grab holds. -/
theorem failed_grab_drops_lock : ¬ ∀ es, system.Legal initial es →
    (∀ pre, pre <+: es → Accounted (system.run initial pre)) ∧
      system.Along SetByLatest initial es := by
  intro h
  have hrun := (h [.grabPartialWakeLock true, .grabPartialWakeLock false] (by decide)).1 _
    (List.prefix_refl _)
  revert hrun
  decide

/-- A timer that has read NULL before a grab clears the count behind it. -/
example :
    let es := [.grabPartialWakeLock true, .readUserParam 0, .grabPartialWakeLock true]
    let s := system.run initial es
    s.sWakelockCount = 2 ∧ (s.timers 0).map (·.grab) = some 1 ∧ s.grabs = 2 ∧
      (next s (.wakeTimeoutCallback 0)).sWakelockCount = 0 := by decide

end RilWakeLock
