import Mathlib.Data.List.Basic
import VendorMediatek.LabelledRuns

/-!
# The low-power watchdog of the Bluetooth service

VendorInterface arms a timeout of its descriptor watcher when a packet is sent to a sleeping
controller, and lets the controller sleep when a whole period was idle. Send runs on any thread,
OnFirmwareConfigured on the init thread and OnTimeout on the watcher's; they share three variables
without a lock. A step reads or writes one of them, or configures the timeout.
-/

namespace LowPowerWatchdog

open LabelledRuns

/-- The callbacks given to ConfigureTimeout: OnTimeout, and the one that should never run. -/
inductive TimeoutCallback where
  | onTimeout | zeroTimeout
  deriving DecidableEq

/-- What a Send does next: to read lpm_wake_deasserted, to read lpm_timeout_ms, to configure the
timeout that it has read, to assert wake. -/
inductive Sending where
  | reading | asserting
  | arming (timeout : ℕ)
  | waking
  deriving DecidableEq

/-- What OnTimeout does next: to read recent_activity_flag, to deassert wake, to configure no timeout,
to clear the flag. -/
inductive TimingOut where
  | reading | deasserting | disarming | clearing
  deriving DecidableEq

/-- OnFirmwareConfigured sets lpm_timeout_ms and configures the timeout. -/
inductive Configuring where
  | setting | arming
  deriving DecidableEq

structure State where
  lpm_wake_deasserted : Bool
  lpm_timeout_ms : ℕ
  recent_activity_flag : Bool
  timeout_ms_ : ℕ
  timeout_cb_ : Option TimeoutCallback
  sends : List Sending
  onTimeout : Option TimingOut
  onFirmwareConfigured : Option Configuring
  deriving DecidableEq

/-- Open: the flags are of the process, the timeout of a new watcher. -/
def opened (lpm_timeout_ms : ℕ) (recent_activity_flag : Bool) (timeout_ms_ : ℕ) : State :=
  ⟨true, lpm_timeout_ms, recent_activity_flag, timeout_ms_, none, [], none, none⟩

/-- A Send begins with the flag; its other steps go by its place among those that have begun. The
watcher finds its timeout expired and calls back. -/
inductive Event where
  | send
  | sends (i : ℕ)
  | expires
  | timesOut
  | configured
  | configures
  deriving DecidableEq

def State.configureTimeout (s : State) (timeout : ℕ) (callback : TimeoutCallback) : State :=
  { s with timeout_ms_ := timeout, timeout_cb_ := some callback }

def State.goes (s : State) (i : ℕ) (sending : Sending) : State :=
  { s with sends := s.sends.set i sending }

/-- The rest of a Send, with the packet, is no matter of the watchdog. -/
def State.leaves (s : State) (i : ℕ) : State := { s with sends := s.sends.eraseIdx i }

def sendNext (s : State) (i : ℕ) : Sending → State
  | .reading => if s.lpm_wake_deasserted then s.goes i .asserting else s.leaves i
  | .asserting => s.goes i (.arming s.lpm_timeout_ms)
  | .arming timeout => (s.configureTimeout timeout .onTimeout).goes i .waking
  | .waking => { s.leaves i with lpm_wake_deasserted := false }

def onTimeoutNext (s : State) : TimingOut → State
  | .reading =>
    { s with onTimeout := some (if s.recent_activity_flag then .clearing else .deasserting) }
  | .deasserting => { s with lpm_wake_deasserted := true, onTimeout := some .disarming }
  | .disarming => { s.configureTimeout 0 .zeroTimeout with onTimeout := some .clearing }
  | .clearing => { s with recent_activity_flag := false, onTimeout := none }

def firmwareNext (s : State) : Configuring → State
  | .setting => { s with lpm_timeout_ms := 5000, onFirmwareConfigured := some .arming }
  | .arming => { s.configureTimeout s.lpm_timeout_ms .onTimeout with onFirmwareConfigured := none }

def next (s : State) : Event → State
  | .send => { s with recent_activity_flag := true, sends := s.sends ++ [.reading] }
  | .sends i => (s.sends[i]?.map (sendNext s i)).getD s
  | .expires =>
    match s.timeout_cb_ with
    | some .onTimeout => { s with onTimeout := some .reading }
    | _ => s
  | .timesOut => (s.onTimeout.map (onTimeoutNext s)).getD s
  | .configured => { s with onFirmwareConfigured := some .setting }
  | .configures => (s.onFirmwareConfigured.map (firmwareNext s)).getD s

def Enabled (s : State) : Event → Prop
  | .send => True
  | .sends i => i < s.sends.length
  | .expires => s.onTimeout = none ∧ 0 < s.timeout_ms_
  | .timesOut => s.onTimeout ≠ none
  | .configured => s.onFirmwareConfigured = none
  | .configures => s.onFirmwareConfigured ≠ none

def system : System State Event := ⟨Enabled, next⟩

instance (s : State) (e : Event) : Decidable (system.Enabled s e) := by
  cases e <;> simp only [system, Enabled] <;> infer_instance

/-! ## The zero timeout -/

/-- The watcher does not call the callback of the zero timeout. -/
def NoZeroTimeout (s : State) (e : Event) : Prop :=
  e = .expires → s.timeout_cb_ ≠ some .zeroTimeout

def ZeroDisarmed (s : State) : Prop := s.timeout_cb_ = some .zeroTimeout → s.timeout_ms_ = 0

/-- The timeout after a step is the one before, or one of the two that are configured. -/
theorem timer_step (s : State) (e : Event) :
    (next s e).timeout_cb_ = s.timeout_cb_ ∧ (next s e).timeout_ms_ = s.timeout_ms_ ∨
      (next s e).timeout_cb_ = some .onTimeout ∨
      (next s e).timeout_cb_ = some .zeroTimeout ∧ (next s e).timeout_ms_ = 0 := by
  cases e with
  | sends i =>
    cases hi : s.sends[i]? with
    | none => simp [next, hi]
    | some sending =>
      simp only [next, hi, Option.map_some, Option.getD_some]
      cases sending with
      | reading =>
        simp only [sendNext]
        split <;> exact .inl ⟨rfl, rfl⟩
      | arming timeout => exact .inr (.inl rfl)
      | _ => exact .inl ⟨rfl, rfl⟩
  | expires =>
    simp only [next]
    split <;> exact .inl ⟨rfl, rfl⟩
  | timesOut =>
    cases hi : s.onTimeout with
    | none => simp [next, hi]
    | some timingOut =>
      simp only [next, hi, Option.map_some, Option.getD_some]
      cases timingOut with
      | disarming => exact .inr (.inr ⟨rfl, rfl⟩)
      | _ => exact .inl ⟨rfl, rfl⟩
  | configures =>
    cases hi : s.onFirmwareConfigured with
    | none => simp [next, hi]
    | some configuring =>
      simp only [next, hi, Option.map_some, Option.getD_some]
      cases configuring with
      | arming => exact .inr (.inl rfl)
      | setting => exact .inl ⟨rfl, rfl⟩
  | _ => exact .inl ⟨rfl, rfl⟩

theorem zeroDisarmed_step {s : State} (e : Event) (h : ZeroDisarmed s) : ZeroDisarmed (next s e) := by
  intro hzero
  rcases timer_step s e with ⟨hcb, hms⟩ | hcb | ⟨-, hms⟩
  · rw [hms]
    exact h (hcb ▸ hzero)
  · rw [hcb] at hzero
    cases hzero
  · exact hms

/-- The zero timeout never happens, however the threads interleave. -/
theorem along_noZeroTimeout {lpm_timeout_ms timeout_ms_ : ℕ} {recent_activity_flag : Bool}
    {es : List Event}
    (legal : system.Legal (opened lpm_timeout_ms recent_activity_flag timeout_ms_) es) :
    system.Along NoZeroTimeout (opened lpm_timeout_ms recent_activity_flag timeout_ms_) es := by
  refine along_of_invariant (I := ZeroDisarmed) system (fun _ e h _ _ => zeroDisarmed_step e h)
    nofun legal legal ?_
  intro s e h he _ hexpires hzero
  subst hexpires
  exact absurd he.2 (by rw [h hzero]; exact Nat.lt_irrefl 0)

/-- A Send arms the timer again while OnTimeout is about to clear it. -/
theorem along_noZeroTimeout_rearmed :
    system.Along NoZeroTimeout (opened 5000 false 0) [.configured, .configures, .configures, .expires,
      .timesOut, .timesOut, .send, .sends 0, .timesOut, .sends 0, .sends 0, .timesOut, .expires] :=
  along_noZeroTimeout (by decide)

/-! ## Awake and armed -/

/-- Wake is asserted, or a Send is about to assert it. -/
def State.Awake (s : State) : Prop := s.lpm_wake_deasserted = false ∨ .waking ∈ s.sends

def State.Armed (s : State) : Prop := 0 < s.timeout_ms_ ∧ s.timeout_cb_ = some .onTimeout

/-- An awake controller has a timeout that will put it to sleep. -/
def Watched (s : State) : Prop := s.Awake → s.Armed

/-- OnTimeout configures no timeout only while the controller sleeps. -/
def DisarmsAsleep (s : State) (e : Event) : Prop :=
  e = .timesOut → s.onTimeout = some .disarming → ¬s.Awake

/-- A period is configured, also where a Send has read it. -/
structure Ready (s : State) : Prop where
  period : 0 < s.lpm_timeout_ms
  arming : ∀ timeout, .arming timeout ∈ s.sends → 0 < timeout

theorem mem_goes {s : State} {i : ℕ} {a b : Sending} (h : a ∈ (s.goes i b).sends) :
    a ∈ s.sends ∨ a = b := List.mem_or_eq_of_mem_set h

theorem mem_leaves {s : State} {i : ℕ} {a : Sending} (h : a ∈ (s.leaves i).sends) : a ∈ s.sends :=
  List.mem_of_mem_eraseIdx h

theorem ready_sendNext {s : State} (h : Ready s) (i : ℕ) (sending : Sending) :
    Ready (sendNext s i sending) := by
  cases sending with
  | reading =>
    simp only [sendNext]
    split
    · refine ⟨h.period, fun timeout hmem => ?_⟩
      rcases mem_goes hmem with hold | hnew
      · exact h.arming timeout hold
      · cases hnew
    · exact ⟨h.period, fun timeout hmem => h.arming timeout (mem_leaves hmem)⟩
  | asserting =>
    refine ⟨h.period, fun timeout hmem => ?_⟩
    rcases mem_goes hmem with hold | hnew
    · exact h.arming timeout hold
    · cases hnew
      exact h.period
  | arming timeout =>
    refine ⟨h.period, fun timeout' hmem => ?_⟩
    rcases mem_goes hmem with hold | hnew
    · exact h.arming timeout' hold
    · cases hnew
  | waking => exact ⟨h.period, fun timeout hmem => h.arming timeout (mem_leaves hmem)⟩

theorem ready_step (s : State) (e : Event) (h : Ready s) (_ : Enabled s e) : Ready (next s e) := by
  cases e with
  | send =>
    refine ⟨h.period, fun timeout hmem => ?_⟩
    rcases List.mem_append.mp hmem with hold | hnew
    · exact h.arming timeout hold
    · cases List.mem_singleton.mp hnew
  | sends i =>
    cases hi : s.sends[i]? with
    | none => simpa [next, hi] using h
    | some sending =>
      simp only [next, hi, Option.map_some, Option.getD_some]
      exact ready_sendNext h i sending
  | expires =>
    simp only [next]
    split <;> exact ⟨h.period, h.arming⟩
  | timesOut =>
    cases hi : s.onTimeout with
    | none => simpa [next, hi] using h
    | some timingOut =>
      simp only [next, hi, Option.map_some, Option.getD_some]
      cases timingOut <;> exact ⟨h.period, h.arming⟩
  | configured => exact ⟨h.period, h.arming⟩
  | configures =>
    cases hi : s.onFirmwareConfigured with
    | none => simpa [next, hi] using h
    | some configuring =>
      simp only [next, hi, Option.map_some, Option.getD_some]
      cases configuring with
      | setting => exact ⟨Nat.succ_pos _, h.arming⟩
      | arming => exact ⟨h.period, h.arming⟩

theorem watched_sendNext {s : State} {i : ℕ} {sending : Sending} (h : Ready s) (hw : Watched s)
    (hi : s.sends[i]? = some sending) : Watched (sendNext s i sending) := by
  have hmem : sending ∈ s.sends := List.mem_of_getElem? hi
  cases sending with
  | reading =>
    simp only [sendNext]
    split
    · rintro (hlpm | hwaking)
      · exact hw (.inl hlpm)
      · rcases mem_goes hwaking with hold | hnew
        · exact hw (.inr hold)
        · cases hnew
    · rintro (hlpm | hwaking)
      · exact hw (.inl hlpm)
      · exact hw (.inr (mem_leaves hwaking))
  | asserting =>
    rintro (hlpm | hwaking)
    · exact hw (.inl hlpm)
    · rcases mem_goes hwaking with hold | hnew
      · exact hw (.inr hold)
      · cases hnew
  | arming timeout => exact fun _ => ⟨h.arming timeout hmem, rfl⟩
  | waking => exact fun _ => hw (.inr hmem)

/-- A step keeps the watchdog over an awake controller unless it takes its timeout away. -/
theorem watched_step {s : State} {e : Event} (h : Ready s) (hw : Watched s) :
    Watched (next s e) ↔ DisarmsAsleep s e := by
  cases e with
  | send =>
    refine iff_of_true ?_ nofun
    rintro (hlpm | hwaking)
    · exact hw (.inl hlpm)
    · rcases List.mem_append.mp hwaking with hold | hnew
      · exact hw (.inr hold)
      · cases List.mem_singleton.mp hnew
  | sends i =>
    refine iff_of_true ?_ nofun
    cases hi : s.sends[i]? with
    | none => simpa [next, hi] using hw
    | some sending =>
      simp only [next, hi, Option.map_some, Option.getD_some]
      exact watched_sendNext h hw hi
  | expires =>
    refine iff_of_true ?_ nofun
    simp only [next]
    split <;> exact hw
  | timesOut =>
    cases hi : s.onTimeout with
    | none => exact iff_of_true (by simpa [next, hi] using hw) fun _ h => absurd h (by simp [hi])
    | some timingOut =>
      simp only [next, hi, Option.map_some, Option.getD_some]
      cases timingOut with
      | disarming =>
        constructor
        · intro hnext _ _ hawake
          exact absurd (hnext hawake).1 (Nat.lt_irrefl 0)
        · intro hasleep hawake
          exact absurd hawake (hasleep rfl hi)
      | deasserting =>
        refine iff_of_true ?_ fun _ h => absurd h (by simp [hi])
        rintro (hlpm | hwaking)
        · cases hlpm
        · exact hw (.inr hwaking)
      | reading => exact iff_of_true hw fun _ h => absurd h (by simp [hi])
      | clearing => exact iff_of_true hw fun _ h => absurd h (by simp [hi])
  | configured => exact iff_of_true hw nofun
  | configures =>
    refine iff_of_true ?_ nofun
    cases hi : s.onFirmwareConfigured with
    | none => simpa [next, hi] using hw
    | some configuring =>
      simp only [next, hi, Option.map_some, Option.getD_some]
      cases configuring with
      | setting => exact hw
      | arming => exact fun _ => ⟨h.period, rfl⟩

/-- From any point of a session at which a period is configured and the controller is watched, it
stays so as long as it is awake exactly when OnTimeout never takes the timeout away after a Send has
asserted wake, or is about to. -/
theorem always_watched_iff {s : State} {es : List Event} (hready : Ready s) (hwatched : Watched s)
    (legal : system.Legal s es) :
    (∀ pre, pre <+: es → Watched (system.run s pre)) ↔ system.Along DisarmsAsleep s es :=
  always_iff_guarded system ready_step (fun _ _ h hw _ => watched_step h hw) hready hwatched legal

/-- A second session. While OnTimeout puts the controller to sleep, a Send wakes it. -/
theorem always_watched_iff_overtaken :
    let es : List Event := [.configured, .configures, .configures, .expires, .timesOut, .timesOut,
      .send, .sends 0, .sends 0, .sends 0, .timesOut]
    (∀ pre, pre <+: es → Watched (system.run (opened 5000 false 0) pre)) ↔
      system.Along DisarmsAsleep (opened 5000 false 0) es := by
  have hready : Ready (opened 5000 false 0) := ⟨by decide, nofun⟩
  have hwatched : Watched (opened 5000 false 0) := by
    rintro (hlpm | hwaking)
    · cases hlpm
    · cases hwaking
  exact always_watched_iff hready hwatched (by decide)

/-! ## Awake for good -/

/-- The controller is awake with no timeout, and OnTimeout is not on its way. -/
structure Stuck (s : State) : Prop where
  awake : s.lpm_wake_deasserted = false
  disarmed : s.timeout_ms_ = 0
  idle : s.onTimeout = none

instance (s : State) : Decidable (Stuck s) :=
  decidable_of_iff (s.lpm_wake_deasserted = false ∧ s.timeout_ms_ = 0 ∧ s.onTimeout = none)
    ⟨fun ⟨ha, hd, hi⟩ => ⟨ha, hd, hi⟩, fun ⟨ha, hd, hi⟩ => ⟨ha, hd, hi⟩⟩

/-- A Send that has found the controller asleep configures the timeout, or OnFirmwareConfigured. -/
def Rearms (s : State) : Event → Prop
  | .sends i => ∃ timeout, s.sends[i]? = some (.arming timeout)
  | .configures => s.onFirmwareConfigured = some .arming
  | _ => False

/-- No Send is on its way that has found the controller asleep and not yet configured the timeout. -/
def Passing (s : State) : Prop := ∀ sending ∈ s.sends, sending = .reading ∨ sending = .waking

instance (s : State) : Decidable (Passing s) :=
  inferInstanceAs (Decidable (∀ sending ∈ s.sends, _ ∨ _))

def KeepsTimer (s : State) (e : Event) : Prop :=
  e = .configures → s.onFirmwareConfigured ≠ some .arming

theorem stuck_sendNext {s : State} (hready : Ready s) (h : Stuck s) {i : ℕ} {sending : Sending}
    (hi : s.sends[i]? = some sending) :
    Stuck (sendNext s i sending) ↔ ∀ timeout, sending ≠ .arming timeout := by
  cases sending with
  | reading =>
    rw [sendNext, if_neg (by rw [h.awake]; nofun)]
    exact iff_of_true ⟨h.awake, h.disarmed, h.idle⟩ nofun
  | asserting => exact iff_of_true ⟨h.awake, h.disarmed, h.idle⟩ nofun
  | arming timeout =>
    have hpos := hready.arming timeout (List.mem_of_getElem? hi)
    exact iff_of_false (fun hstuck => hpos.ne' hstuck.disarmed) fun hne => hne timeout rfl
  | waking => exact iff_of_true ⟨rfl, h.disarmed, h.idle⟩ nofun

theorem stuck_step {s : State} {e : Event} (hready : Ready s) (h : Stuck s) (he : Enabled s e) :
    Stuck (next s e) ↔ ¬ Rearms s e := by
  cases e with
  | send => exact iff_of_true ⟨h.awake, h.disarmed, h.idle⟩ id
  | sends i =>
    obtain ⟨sending, hi⟩ : ∃ sending, s.sends[i]? = some sending := ⟨_, List.getElem?_eq_getElem he⟩
    simp only [next, hi, Option.map_some, Option.getD_some]
    rw [stuck_sendNext hready h hi, Rearms, hi]
    simp
  | expires => exact absurd he.2 (by rw [h.disarmed]; exact Nat.lt_irrefl 0)
  | timesOut => exact absurd h.idle he
  | configured => exact iff_of_true ⟨h.awake, h.disarmed, h.idle⟩ id
  | configures =>
    cases hi : s.onFirmwareConfigured with
    | none => exact absurd hi he
    | some configuring =>
      simp only [next, hi, Option.map_some, Option.getD_some]
      cases configuring with
      | setting =>
        exact iff_of_true ⟨h.awake, h.disarmed, h.idle⟩ fun hrearms => by
          cases hi.symm.trans hrearms
      | arming =>
        exact iff_of_false (fun hstuck => hready.period.ne' hstuck.disarmed) fun hnot => hnot hi

theorem passing_step {s : State} {e : Event} (h : Stuck s) (hpassing : Passing s)
    (he : Enabled s e) : Passing (next s e) := by
  cases e with
  | send =>
    intro sending hmem
    rcases List.mem_append.mp hmem with hold | hnew
    · exact hpassing sending hold
    · exact .inl (List.mem_singleton.mp hnew)
  | sends i =>
    obtain ⟨sending, hi⟩ : ∃ sending, s.sends[i]? = some sending := ⟨_, List.getElem?_eq_getElem he⟩
    simp only [next, hi, Option.map_some, Option.getD_some]
    have hleaves : Passing (s.leaves i) := fun sending hmem => hpassing sending (mem_leaves hmem)
    rcases hpassing sending (List.mem_of_getElem? hi) with rfl | rfl
    · rw [sendNext, if_neg (by rw [h.awake]; nofun)]
      exact hleaves
    · exact hleaves
  | expires =>
    simp only [next]
    split <;> exact hpassing
  | timesOut => exact absurd h.idle he
  | configured => exact hpassing
  | configures =>
    cases hi : s.onFirmwareConfigured with
    | none => exact absurd hi he
    | some configuring =>
      simp only [next, hi, Option.map_some, Option.getD_some]
      cases configuring <;> exact hpassing

theorem not_rearms {s : State} {e : Event} (hpassing : Passing s) (hkeeps : KeepsTimer s e) :
    ¬ Rearms s e := by
  intro hrearms
  cases e with
  | sends i =>
    obtain ⟨timeout, hi⟩ := hrearms
    rcases hpassing _ (List.mem_of_getElem? hi) with heq | heq <;> cases heq
  | configures => exact hkeeps rfl hrearms
  | _ => exact hrearms

/-- Once the controller is awake with no timeout it stays so, and OnTimeout does not run, exactly
until a Send that has found it asleep before, or OnFirmwareConfigured, configures the timeout. No
Send that begins later does: if none of them is on its way, it is kept awake whatever is sent. -/
theorem always_stuck_iff {s : State} {es : List Event} (hready : Ready s) (hstuck : Stuck s)
    (legal : system.Legal s es) :
    ((∀ pre, pre <+: es → Stuck (system.run s pre)) ↔ system.Along (fun s e => ¬ Rearms s e) s es) ∧
      (Passing s → system.Along KeepsTimer s es →
        system.Along (fun s e => Stuck s ∧ e ≠ .expires) s es) := by
  refine ⟨always_iff_guarded system ready_step (fun _ _ hr h he => stuck_step hr h he) hready hstuck
    legal, fun hpassing hkeeps => ?_⟩
  refine along_of_invariant (I := fun s => Ready s ∧ Stuck s ∧ Passing s) system ?_
    ⟨hready, hstuck, hpassing⟩ legal hkeeps ?_
  · rintro t e ⟨hr, h, hp⟩ he hk
    exact ⟨ready_step t e hr he, (stuck_step hr h he).mpr (not_rearms hp hk), passing_step h hp he⟩
  · rintro t e ⟨-, h, -⟩ he -
    refine ⟨h, ?_⟩
    rintro rfl
    exact absurd he.2 (by rw [h.disarmed]; exact Nat.lt_irrefl 0)

/-- A Send that OnTimeout has overtaken leads there. -/
theorem always_stuck_iff_overtaken :
    let s := system.run (opened 5000 false 0) [.configured, .configures, .configures, .expires,
      .timesOut, .timesOut, .send, .sends 0, .sends 0, .sends 0, .timesOut, .sends 0, .timesOut]
    let es := [Event.send, .send, .sends 0, .sends 0]
    ((∀ pre, pre <+: es → Stuck (system.run s pre)) ↔ system.Along (fun s e => ¬ Rearms s e) s es) ∧
      (Passing s → system.Along KeepsTimer s es →
        system.Along (fun s e => Stuck s ∧ e ≠ .expires) s es) := by
  refine always_stuck_iff ⟨by decide, ?_⟩ (by decide) (by decide)
  have hnone : (system.run (opened 5000 false 0) [.configured, .configures, .configures, .expires,
      .timesOut, .timesOut, .send, .sends 0, .sends 0, .sends 0, .timesOut, .sends 0,
      .timesOut]).sends = [] := by decide
  intro timeout hmem
  rw [hnone] at hmem
  cases hmem

end LowPowerWatchdog
