import VendorMediatek.RankedRuns

/-!
# The start of the event loop

RIL_startEventLoop of ril.cpp makes the thread of eventLoop and waits until this has set s_started.
Other threads of the daemon may ask for timers from the first, through ril_timer_add and triggerEvLoop.
-/

namespace RilStartup

open LabelledRuns

/-- Where RIL_startEventLoop is, and in the end whether pthread_create succeeded. -/
inductive Starter where
  | idle | locking | creating | storing | checking | waiting | relocking
  | unlocking (created : Bool)
  | returned (created : Bool)
  deriving DecidableEq

/-- Where eventLoop is. In select it knows the timers that its time limit was calculated for, and
behind it whether the wakeup pipe was readable. -/
inductive Loop where
  | absent | initialising | locking | starting | broadcasting | unlocking
  | piping | opened | adding | triggering | calculating
  | selecting (seen : ℕ)
  | woken (readable : Bool)
  | ended
  deriving DecidableEq

/-- The starter holds s_startupMutex. -/
def Starter.holds : Starter → Bool
  | .creating | .storing | .checking | .unlocking _ => true
  | _ => false

def Loop.holds : Loop → Bool
  | .starting | .broadcasting | .unlocking => true
  | _ => false

/-- initialised and crashed are history: ril_event_init has run, and a timer was added before it,
through a timer_list that is still zero. timers counts those that have been added since, and
triggering the threads on their way to triggerEvLoop. A wakeup byte is astray when it is written
before the descriptor of the pipe is known. -/
structure State where
  starter : Starter
  loop : Loop
  s_started : Bool
  s_tid_dispatch : Bool
  initialised : Bool
  timers : ℕ
  s_fdWakeupWrite : Bool
  pipe : ℕ
  astray : ℕ
  triggering : ℕ
  crashed : Bool

def initial : State := ⟨.idle, .absent, false, false, false, 0, false, 0, 0, 0, false⟩

/-- starts and begins are the steps of the handshake, and runs those of the loop behind it. wakes is a
spurious wakeup. -/
inductive Event where
  | start
  | starts (created : Bool)
  | wakes
  | begins
  | runs (piped : Bool)
  | request
  | trigger
  deriving DecidableEq

/-- The write of triggerEvLoop. -/
def State.write (s : State) : State :=
  if s.s_fdWakeupWrite then { s with pipe := s.pipe + 1 } else { s with astray := s.astray + 1 }

def nextStarter (s : State) (created : Bool) : State :=
  match s.starter with
  | .locking => { s with starter := .creating }
  | .creating =>
    if created then { s with starter := .storing, loop := .initialising }
    else { s with starter := .unlocking false }
  | .storing => { s with starter := .checking, s_tid_dispatch := true }
  | .checking => { s with starter := if s.s_started then .unlocking true else .waiting }
  | .relocking => { s with starter := .checking }
  | .unlocking created => { s with starter := .returned created }
  | _ => s

def nextBegin (s : State) : State :=
  match s.loop with
  | .initialising => { s with loop := .locking, initialised := true, timers := 0 }
  | .locking => { s with loop := .starting }
  | .starting => { s with loop := .broadcasting, s_started := true }
  | .broadcasting =>
    { s with loop := .unlocking, starter := if s.starter = .waiting then .relocking else s.starter }
  | .unlocking => { s with loop := .piping }
  | _ => s

def nextRun (s : State) (piped : Bool) : State :=
  match s.loop with
  | .piping => { s with loop := if piped then .opened else .ended }
  | .opened => { s with loop := .adding, s_fdWakeupWrite := true }
  | .adding => { s with loop := .triggering }
  | .triggering => { (if s.s_tid_dispatch then s else s.write) with loop := .calculating }
  | .calculating => { s with loop := .selecting s.timers }
  | .selecting _ => { s with loop := .woken (0 < s.pipe) }
  | .woken readable => { s with loop := .calculating, pipe := if readable then 0 else s.pipe }
  | _ => s

def next (s : State) : Event → State
  | .start => { s with starter := .locking, s_started := false }
  | .starts created => nextStarter s created
  | .wakes => { s with starter := .relocking }
  | .begins => nextBegin s
  | .runs piped => nextRun s piped
  | .request =>
    if s.initialised then { s with timers := s.timers + 1, triggering := s.triggering + 1 }
    else { s with crashed := true }
  | .trigger => { s.write with triggering := s.triggering - 1 }

/-- The starter has a next step of its own, and the mutex for it. -/
def StarterRuns (s : State) : Prop :=
  match s.starter with
  | .idle | .waiting | .returned _ => False
  | .locking | .relocking => s.loop.holds = false
  | _ => True

def LoopBegins (s : State) : Prop :=
  match s.loop with
  | .locking => s.starter.holds = false
  | .initialising | .starting | .broadcasting | .unlocking => True
  | _ => False

def LoopRuns (s : State) : Prop :=
  match s.loop with
  | .piping | .opened | .adding | .triggering | .calculating | .selecting _ | .woken _ => True
  | _ => False

def Enabled (s : State) (e : Event) : Prop :=
  s.crashed = false ∧
    match e with
    | .start => s.starter = .idle
    | .starts _ => StarterRuns s
    | .wakes => s.starter = .waiting
    | .begins => LoopBegins s
    | .runs _ => LoopRuns s
    | .request => True
    | .trigger => 0 < s.triggering

instance (s : State) : Decidable (StarterRuns s) := by
  unfold StarterRuns
  cases s.starter <;> infer_instance

instance (s : State) : Decidable (LoopBegins s) := by
  unfold LoopBegins
  cases s.loop <;> infer_instance

instance (s : State) : Decidable (LoopRuns s) := by
  unfold LoopRuns
  cases s.loop <;> infer_instance

def system : System State Event := ⟨Enabled, next⟩

instance (s : State) (e : Event) : Decidable (system.Enabled s e) := by
  change Decidable (_ ∧ _)
  cases e <;> infer_instance

/-! ## What each thread knows of the other -/

/-- The starter is behind pthread_create, and this has stored its identifier. -/
def Starter.named : Starter → Bool
  | .checking | .waiting | .relocking | .unlocking true | .returned true => true
  | _ => false

def Loop.initialised : Loop → Bool
  | .absent | .initialising => false
  | _ => true

def Loop.started : Loop → Bool
  | .absent | .initialising | .locking | .starting => false
  | _ => true

/-- The loop knows its wakeup pipe. -/
def Loop.piped : Loop → Bool
  | .adding | .triggering | .calculating | .selecting _ | .woken _ => true
  | _ => false

/-- Where the loop can be while the starter is there. -/
def Fits : Starter → Loop → Prop
  | .idle, l | .locking, l | .creating, l | .unlocking false, l | .returned false, l => l = .absent
  | .storing, l => l = .initialising ∨ l = .locking
  | .checking, l => l ≠ .absent ∧ l.holds = false
  | .waiting, l => l ≠ .absent ∧ (l.started = true → l = .broadcasting)
  | .relocking, l => l ≠ .absent
  | .unlocking true, l => l.started = true ∧ l.holds = false
  | .returned true, l => l.started = true

structure Invariant (s : State) : Prop where
  fits : Fits s.starter s.loop
  started : s.s_started = s.loop.started
  named : s.s_tid_dispatch = s.starter.named
  initialised : s.initialised = s.loop.initialised
  piped : s.loop.piped = true → s.s_fdWakeupWrite = true
  seen : ∀ seen, s.loop = .selecting seen → seen = s.timers ∨ 0 < s.pipe ∨ 0 < s.triggering
  unharmed : s.crashed = true → s.initialised = false

theorem invariant_initial : Invariant initial :=
  ⟨rfl, rfl, rfl, rfl, Bool.noConfusion, nofun, Bool.noConfusion⟩

theorem Fits.excluded {starter : Starter} {loop : Loop} (h : Fits starter loop)
    (holds : starter.holds = true) : loop.holds = false := by
  cases starter with
  | creating => exact h ▸ rfl
  | storing =>
    rcases h with rfl | rfl
    · rfl
    · rfl
  | checking => exact h.2
  | unlocking created =>
    cases created with
    | false => exact h ▸ rfl
    | true => exact h.2
  | _ => cases holds

theorem invariant_starts {s : State} {created : Bool} (h : Invariant s) (hr : StarterRuns s) :
    Invariant (nextStarter s created) := by
  obtain ⟨starter, loop, s_started, _⟩ := s
  cases starter with
  | locking => exact { h with }
  | creating =>
    cases created with
    | false => exact { h with }
    | true =>
      obtain rfl : loop = .absent := h.fits
      exact ⟨.inl rfl, h.started, h.named, h.initialised, Bool.noConfusion, nofun, h.unharmed⟩
  | storing =>
    have hfits : loop ≠ .absent ∧ loop.holds = false :=
      ⟨by rcases h.fits with rfl | rfl <;> nofun, h.fits.excluded rfl⟩
    exact { h with fits := hfits, named := rfl }
  | checking =>
    cases hs : loop.started with
    | false =>
      have hmore : s_started = false := h.started.trans hs
      subst hmore
      exact { h with fits := ⟨h.fits.1, fun hl => Bool.noConfusion (hs.symm.trans hl)⟩ }
    | true =>
      have hmore : s_started = true := h.started.trans hs
      subst hmore
      exact { h with fits := ⟨hs, h.fits.2⟩ }
  | relocking => exact { h with fits := ⟨h.fits, hr⟩ }
  | unlocking created =>
    cases created with
    | false => exact { h with }
    | true => exact { h with fits := h.fits.1 }
  | _ => exact hr.elim

/-- Behind the handshake the starter has the loop's thread, and does not sleep. -/
theorem Fits.settled {starter : Starter} {loop loop' : Loop} (h : Fits starter loop)
    (hs : loop.started = true) (hb : loop ≠ .broadcasting) (hs' : loop'.started = true)
    (hh : loop'.holds = false) : Fits starter loop' := by
  have ha : loop' ≠ .absent := by
    rintro rfl
    exact Bool.noConfusion hs'
  cases starter with
  | storing => rcases h with rfl | rfl <;> cases hs
  | checking => exact ⟨ha, hh⟩
  | waiting => exact absurd (h.2 hs) hb
  | relocking => exact ha
  | unlocking created =>
    cases created with
    | false => exact absurd hs (by rw [h]; nofun)
    | true => exact ⟨hs', hh⟩
  | returned created =>
    cases created with
    | false => exact absurd hs (by rw [h]; nofun)
    | true => exact hs'
  | _ => exact absurd hs (by rw [h]; nofun)

/-- Before the handshake a starter that holds the mutex keeps the loop in front of it. -/
theorem Fits.unstarted {starter : Starter} {loop loop' : Loop} (h : Fits starter loop)
    (ha : loop ≠ .absent) (hs : loop.started = false) (ha' : loop' ≠ .absent)
    (hw : loop'.started = true → loop' = .broadcasting)
    (hh : starter.holds = true → loop' = .locking) : Fits starter loop' := by
  cases starter with
  | storing => exact .inr (hh rfl)
  | checking => exact ⟨ha', hh rfl ▸ rfl⟩
  | waiting => exact ⟨ha', hw⟩
  | relocking => exact ha'
  | unlocking created =>
    cases created with
    | false => exact absurd h ha
    | true => exact Bool.noConfusion (hs.symm.trans h.1)
  | returned created =>
    cases created with
    | false => exact absurd h ha
    | true => exact Bool.noConfusion (hs.symm.trans h)
  | _ => exact absurd h ha

theorem Fits.broadcast {starter : Starter} (h : Fits starter .broadcasting) :
    Fits (if starter = .waiting then .relocking else starter) .unlocking := by
  have hholds : starter.holds = false := by
    by_contra hn
    exact Bool.noConfusion (h.excluded (eq_true_of_ne_false hn))
  cases starter with
  | waiting => exact nofun
  | relocking => exact nofun
  | returned created =>
    cases created with
    | false => cases h
    | true => exact rfl
  | storing => cases hholds
  | checking => cases hholds
  | unlocking created => cases hholds
  | _ => cases h

theorem named_broadcast (starter : Starter) :
    (if starter = .waiting then Starter.relocking else starter).named = starter.named := by
  split
  next h => exact h ▸ rfl
  next => rfl

theorem invariant_begins {s : State} (h : Invariant s) (hr : LoopBegins s)
    (hc : s.crashed = false) : Invariant (nextBegin s) := by
  have free : s.loop.holds = true → s.starter.holds = true → ∀ {P : Prop}, P := fun hl hs =>
    Bool.noConfusion ((h.fits.excluded hs).symm.trans hl)
  obtain ⟨starter, loop, s_started, _⟩ := s
  cases loop with
  | initialising =>
    have hfits : Fits starter .locking :=
      h.fits.unstarted nofun rfl nofun Bool.noConfusion fun _ => rfl
    exact ⟨hfits, h.started, h.named, rfl, Bool.noConfusion, nofun,
      fun hd => Bool.noConfusion (hc.symm.trans hd)⟩
  | locking =>
    have hfits : Fits starter .starting :=
      h.fits.unstarted nofun rfl nofun Bool.noConfusion fun hs => Bool.noConfusion (hs.symm.trans hr)
    exact { h with fits := hfits, piped := Bool.noConfusion, seen := nofun }
  | starting =>
    have hfits : Fits starter .broadcasting :=
      h.fits.unstarted nofun rfl nofun (fun _ => rfl) fun hs => free rfl hs
    exact { h with fits := hfits, started := rfl, piped := Bool.noConfusion, seen := nofun }
  | broadcasting =>
    exact ⟨h.fits.broadcast, h.started, h.named.trans (named_broadcast starter).symm,
      h.initialised, Bool.noConfusion, nofun, h.unharmed⟩
  | unlocking =>
    exact { h with fits := h.fits.settled rfl nofun rfl rfl, piped := Bool.noConfusion, seen := nofun }
  | _ => exact hr.elim

theorem invariant_trigger {s : State} (h : Invariant s) : Invariant (next s .trigger) := by
  obtain ⟨starter, loop, s_started, s_tid_dispatch, initialised, timers, s_fdWakeupWrite, _⟩ := s
  cases s_fdWakeupWrite with
  | true => exact { h with seen := fun _ _ => .inr (.inl (Nat.succ_pos _)) }
  | false =>
    have hseen : ∀ seen, loop ≠ .selecting seen := by
      rintro seen rfl
      exact Bool.noConfusion (h.piped rfl)
    exact { h with seen := fun seen he => absurd he (hseen seen) }

theorem invariant_runs {s : State} {piped : Bool} (h : Invariant s) (hr : LoopRuns s) :
    Invariant (nextRun s piped) := by
  obtain ⟨starter, loop, s_started, s_tid_dispatch, initialised, timers, s_fdWakeupWrite, _⟩ := s
  cases loop with
  | piping =>
    cases piped with
    | false =>
      exact { h with
        fits := h.fits.settled rfl nofun rfl rfl, piped := Bool.noConfusion, seen := nofun }
    | true =>
      exact { h with
        fits := h.fits.settled rfl nofun rfl rfl, piped := Bool.noConfusion, seen := nofun }
  | opened =>
    exact { h with fits := h.fits.settled rfl nofun rfl rfl, piped := fun _ => rfl, seen := nofun }
  | adding =>
    exact { h with fits := h.fits.settled rfl nofun rfl rfl, seen := nofun }
  | triggering =>
    have hw : s_fdWakeupWrite = true := h.piped rfl
    cases s_tid_dispatch with
    | true => exact { h with fits := h.fits.settled rfl nofun rfl rfl, seen := nofun }
    | false =>
      subst hw
      exact { h with fits := h.fits.settled rfl nofun rfl rfl, seen := nofun }
  | calculating =>
    have hseen : ∀ seen, Loop.selecting timers = .selecting seen → seen = timers := fun _ he =>
      (Loop.selecting.inj he).symm
    exact { h with fits := h.fits.settled rfl nofun rfl rfl, seen := fun seen he => .inl (hseen seen he) }
  | selecting seen =>
    exact { h with fits := h.fits.settled rfl nofun rfl rfl, seen := nofun }
  | woken readable =>
    exact { h with fits := h.fits.settled rfl nofun rfl rfl, seen := nofun }
  | _ => exact hr.elim

theorem invariant_step (s : State) (e : Event) (h : Invariant s) (he : Enabled s e) :
    Invariant (next s e) := by
  obtain ⟨hc, he⟩ := he
  cases e with
  | start =>
    have ha : s.loop = .absent := by
      have hfits := h.fits
      rwa [show s.starter = .idle from he] at hfits
    exact { h with
      fits := ha
      started := by rw [show (next s .start).loop = _ from ha]; rfl
      named := h.named.trans (by rw [show s.starter = .idle from he]; rfl) }
  | starts created => exact invariant_starts h he
  | wakes =>
    have hfits := h.fits
    rw [show s.starter = .waiting from he] at hfits
    exact { h with
      fits := hfits.1
      named := h.named.trans (by rw [show s.starter = .waiting from he]; rfl) }
  | begins => exact invariant_begins h he hc
  | runs piped => exact invariant_runs h he
  | request =>
    by_cases hi : s.initialised = true
    · rw [show next s .request = _ from if_pos hi]
      exact { h with seen := fun _ _ => .inr (.inr (Nat.succ_pos _)) }
    · rw [show next s .request = _ from if_neg hi]
      exact { h with unharmed := fun _ => eq_false_of_ne_true hi }
  | trigger => exact invariant_trigger h

theorem invariant_run {es : List Event} (legal : system.Legal initial es) :
    Invariant (system.run initial es) :=
  invariant_legal system invariant_step invariant_initial legal

theorem Loop.initialised_of_started {loop : Loop} (h : loop.started = true) :
    loop.initialised = true := by
  cases loop with
  | absent => cases h
  | initialising => cases h
  | _ => rfl

/-- Once RIL_startEventLoop has returned with a thread, timer_list is initialised, no request has gone
through it before that, and the identifier of the thread is known. -/
theorem started_ready {es : List Event} {s : State} (legal : system.Legal initial es)
    (hs : system.run initial es = s) (hreturned : s.starter = .returned true) :
    s.initialised = true ∧ s.crashed = false ∧ s.s_started = true ∧ s.s_tid_dispatch = true := by
  have h : Invariant s := hs ▸ invariant_run legal
  have hfits := h.fits
  have hnamed := h.named
  rw [hreturned] at hfits hnamed
  have hinit : s.initialised = true := h.initialised.trans (Loop.initialised_of_started hfits)
  have hcrashed : s.crashed = false :=
    eq_false_of_ne_true fun hc => Bool.noConfusion (hinit.symm.trans (h.unharmed hc))
  exact ⟨hinit, hcrashed, h.started.trans hfits, hnamed⟩

/-- The starter sleeps before the loop has begun, and requests come once it has returned. -/
def startRun : List Event :=
  [.start, .starts true, .starts true, .starts true, .starts true, .begins, .begins, .begins, .begins,
    .begins, .starts true, .starts true, .starts true]

theorem started_ready_asleep :
    let s := system.run initial startRun
    s.initialised = true ∧ s.crashed = false ∧ s.s_started = true ∧ s.s_tid_dispatch = true :=
  started_ready (by decide) rfl rfl

theorem Fits.named {starter : Starter} {loop : Loop} (h : Fits starter loop)
    (hl : loop.started = true) : starter.named = true := by
  cases starter with
  | storing => rcases h with rfl | rfl <;> cases hl
  | checking => rfl
  | waiting => rfl
  | relocking => rfl
  | unlocking created =>
    cases created with
    | false => exact Bool.noConfusion (hl.symm.trans (congrArg Loop.started h))
    | true => rfl
  | returned created =>
    cases created with
    | false => exact Bool.noConfusion (hl.symm.trans (congrArg Loop.started h))
    | true => rfl
  | _ => exact Bool.noConfusion (hl.symm.trans (congrArg Loop.started h))

/-- The loop knows itself when it asks whether it has to be woken, and a timer is never slept past,
though bytes go astray before the pipe is known: in select the loop knows all timers, or is woken, or
will be by a thread that is about to. -/
theorem wakeups_reach_loop {es : List Event} {s : State} (legal : system.Legal initial es)
    (hs : system.run initial es = s) :
    (s.loop = .triggering → s.s_tid_dispatch = true) ∧
      ∀ seen, s.loop = .selecting seen → seen = s.timers ∨ 0 < s.pipe ∨ 0 < s.triggering := by
  have h : Invariant s := hs ▸ invariant_run legal
  exact ⟨fun hl => h.named.trans (h.fits.named (hl ▸ rfl)), h.seen⟩

/-- The first request's byte goes astray, and the second one's is still to come. -/
theorem wakeups_reach_loop_astray :
    let es : List Event := startRun ++ [.request, .trigger, .runs true, .runs true, .runs true,
      .runs true, .runs true, .request]
    let s := system.run initial es
    (s.loop = .triggering → s.s_tid_dispatch = true) ∧
      ∀ seen, s.loop = .selecting seen → seen = s.timers ∨ 0 < s.pipe ∨ 0 < s.triggering :=
  wakeups_reach_loop (by decide) rfl

/-! ## The handshake comes to its end -/

def Event.ofHandshake : Event → Bool
  | .starts _ | .begins => true
  | _ => false

def Event.spurious : Event → Bool
  | .wakes => true
  | _ => false

/-- How many steps of the handshake the starter has left. Making the thread gives it its own. -/
def Starter.left (s_started : Bool) : Starter → ℕ
  | .locking => 12
  | .creating => 11
  | .storing => 5
  | .checking => if s_started then 2 else 4
  | .waiting => 3
  | .relocking => if s_started then 3 else 5
  | .unlocking _ => 1
  | .idle | .returned _ => 0

def Loop.left : Loop → ℕ
  | .initialising => 5
  | .locking => 4
  | .starting => 3
  | .broadcasting => 2
  | .unlocking => 1
  | _ => 0

def State.left (s : State) : ℕ := s.starter.left s.s_started + s.loop.left

theorem left_le {s : State} (h : Invariant s) : s.left ≤ 12 := by
  have hloop : s.loop.left ≤ 5 := by cases s.loop <;> simp [Loop.left]
  have hfits := h.fits
  cases hs : s.starter with
  | locking =>
    rw [hs] at hfits
    rw [State.left, hs, show s.loop = .absent from hfits]
    exact le_rfl
  | creating =>
    rw [hs] at hfits
    rw [State.left, hs, show s.loop = .absent from hfits]
    exact Nat.le_succ 11
  | _ =>
    have hstarter : s.starter.left s.s_started ≤ 5 := by
      rw [hs]
      cases s.s_started <;> simp [Starter.left]
    exact (Nat.add_le_add hstarter hloop).trans (by decide)

theorem left_starts {s : State} {created : Bool} (h : Invariant s) (hr : StarterRuns s) :
    (nextStarter s created).left < s.left := by
  obtain ⟨starter, loop, s_started, _⟩ := s
  cases starter with
  | locking => exact Nat.add_lt_add_right (Nat.lt_succ_self 11) _
  | creating =>
    obtain rfl : loop = .absent := h.fits
    cases created with
    | false => exact show 1 < 11 by decide
    | true => exact Nat.lt_succ_self 10
  | storing =>
    have hle : Starter.checking.left s_started < 5 := by cases s_started <;> decide
    exact Nat.add_lt_add_right hle _
  | checking =>
    cases s_started with
    | false => exact Nat.add_lt_add_right (Nat.lt_succ_self 3) _
    | true => exact Nat.add_lt_add_right (Nat.lt_succ_self 1) _
  | relocking =>
    have hle : Starter.checking.left s_started < Starter.relocking.left s_started := by
      cases s_started <;> decide
    exact Nat.add_lt_add_right hle _
  | unlocking created => exact Nat.add_lt_add_right Nat.one_pos _
  | _ => exact hr.elim

theorem Starter.left_started (starter : Starter) (s_started : Bool) :
    starter.left true ≤ starter.left s_started := by
  cases starter <;> cases s_started <;> simp [Starter.left]

theorem left_begins {s : State} (h : Invariant s) (hr : LoopBegins s) :
    (nextBegin s).left < s.left := by
  obtain ⟨starter, loop, s_started, _⟩ := s
  cases loop with
  | initialising => exact Nat.add_lt_add_left (Nat.lt_succ_self 4) _
  | locking => exact Nat.add_lt_add_left (Nat.lt_succ_self 3) _
  | starting => exact Nat.add_lt_add_of_le_of_lt (starter.left_started s_started) (Nat.lt_succ_self 2)
  | broadcasting =>
    have hstarted : s_started = true := h.started
    have hle : (if starter = .waiting then Starter.relocking else starter).left s_started ≤
        starter.left s_started := by
      rw [hstarted]
      split
      next hw => exact hw ▸ le_rfl
      next => exact le_rfl
    exact Nat.add_lt_add_of_le_of_lt hle (Nat.lt_succ_self 1)
  | unlocking => exact Nat.add_lt_add_left Nat.one_pos _
  | _ => exact hr.elim

@[simp] theorem write_starter (s : State) : s.write.starter = s.starter := by
  unfold State.write
  split <;> rfl

@[simp] theorem write_loop (s : State) : s.write.loop = s.loop := by
  unfold State.write
  split <;> rfl

@[simp] theorem write_s_started (s : State) : s.write.s_started = s.s_started := by
  unfold State.write
  split <;> rfl

theorem handshake_runs {s : State} {piped : Bool} (hr : LoopRuns s) :
    (nextRun s piped).starter = s.starter ∧ (nextRun s piped).left = s.left := by
  obtain ⟨starter, loop, s_started, s_tid_dispatch, _⟩ := s
  cases loop with
  | piping => cases piped <;> exact ⟨rfl, rfl⟩
  | triggering => cases s_tid_dispatch <;> simp [nextRun, State.left, Loop.left]
  | opened => exact ⟨rfl, rfl⟩
  | adding => exact ⟨rfl, rfl⟩
  | calculating => exact ⟨rfl, rfl⟩
  | selecting seen => exact ⟨rfl, rfl⟩
  | woken readable => exact ⟨rfl, rfl⟩
  | _ => exact hr.elim

/-- The start has been asked for. -/
structure Begun (s : State) : Prop where
  invariant : Invariant s
  starter : s.starter ≠ .idle

theorem begun_step (s : State) (e : Event) (h : Begun s) (he : Enabled s e) : Begun (next s e) := by
  refine ⟨invariant_step s e h.invariant he, ?_⟩
  have hne := h.starter
  cases e with
  | start => exact absurd he.2 hne
  | starts created =>
    have hr : StarterRuns s := he.2
    simp only [next, nextStarter]
    unfold StarterRuns at hr
    split <;> simp_all
    all_goals split <;> simp
  | wakes => exact nofun
  | begins =>
    simp only [next, nextBegin]
    split <;> simp_all
    split <;> simp_all
  | runs piped => exact (handshake_runs he.2).1.trans_ne hne
  | request =>
    simp only [next]
    split <;> exact hne
  | trigger => exact (write_starter s).trans_ne hne

theorem left_step (s : State) (e : Event) (h : Begun s) (he : Enabled s e) :
    (next s e).left + (if e.ofHandshake = true then 1 else 0) ≤
      s.left + (if e.spurious = true then 2 else 0) := by
  cases e with
  | start => exact absurd he.2 h.starter
  | starts created => exact left_starts h.invariant he.2
  | wakes =>
    have hs : s.starter = .waiting := he.2
    have hle : Starter.relocking.left s.s_started ≤ s.starter.left s.s_started + 2 := by
      rw [hs]
      cases s.s_started <;> decide
    have hsum := Nat.add_le_add_right hle s.loop.left
    rwa [Nat.add_right_comm] at hsum
  | begins => exact left_begins h.invariant he.2
  | runs piped => exact le_of_eq (handshake_runs he.2).2
  | request =>
    simp only [next]
    split <;> exact le_rfl
  | trigger => simp [next, State.left, Event.ofHandshake, Event.spurious]

theorem handshake_goes_on {s : State} (h : Begun s) (hc : s.crashed = false) :
    (∃ created, s.starter = .returned created) ∨ ∃ e, e.ofHandshake = true ∧ Enabled s e := by
  have hfits := h.invariant.fits
  by_cases hbegins : LoopBegins s
  · exact .inr ⟨.begins, rfl, hc, hbegins⟩
  have runs : StarterRuns s → ∃ e, e.ofHandshake = true ∧ Enabled s e := fun hr =>
    ⟨.starts true, rfl, hc, hr⟩
  unfold StarterRuns at runs
  unfold LoopBegins at hbegins
  cases hs : s.starter with
  | idle => exact absurd hs h.starter
  | waiting =>
    rw [hs] at hfits
    obtain ⟨habsent, hstarted⟩ := hfits
    cases hl : s.loop <;> simp_all [Starter.holds, Loop.started]
  | returned created => exact .inl ⟨created, rfl⟩
  | locking =>
    rw [hs] at hfits runs
    exact .inr (runs (by rw [show s.loop = .absent from hfits]; rfl))
  | relocking =>
    rw [hs] at runs
    refine .inr (runs ?_)
    cases hl : s.loop <;> simp_all [Loop.holds]
  | _ =>
    rw [hs] at runs
    exact .inr (runs trivial)

/-- Whatever the other threads and the scheduler do, RIL_startEventLoop returns: it and the new thread
take at most twelve steps, and two for each spurious wakeup, and until then one of them can go on. -/
theorem start_returns {es more : List Event} {s : State} (legal : system.Legal initial es)
    (hs : system.run initial es = s) (hstarter : s.starter ≠ .idle)
    (legalMore : system.Legal s more) :
    more.countP Event.ofHandshake ≤ 12 + 2 * more.countP Event.spurious ∧
      ((system.run s more).crashed = true ∨
        (∃ created, (system.run s more).starter = .returned created) ∨
        ∃ e, e.ofHandshake = true ∧ Enabled (system.run s more) e) := by
  have h : Begun s := ⟨hs ▸ invariant_run legal, hstarter⟩
  constructor
  · have hle := countP_add_rank_le system (Q := fun _ _ => True) (k := 2)
      (fun s e h he _ => begun_step s e h he) (fun s e h he _ => left_step s e h he) h legalMore
      ((along_events system (fun _ => True) s more).mpr fun _ _ => trivial)
    have hleft := left_le h.invariant
    omega
  · by_cases hc : (system.run s more).crashed = true
    · exact .inl hc
    · exact .inr (handshake_goes_on (invariant_legal system begun_step h legalMore)
        (eq_false_of_ne_true hc))

theorem start_returns_woken :
    let s := system.run initial [.start, .starts true, .starts true]
    let more : List Event := [.begins, .starts true, .starts true, .wakes, .starts true, .starts true,
      .begins, .begins]
    more.countP Event.ofHandshake ≤ 12 + 2 * more.countP Event.spurious ∧
      ((system.run s more).crashed = true ∨
        (∃ created, (system.run s more).starter = .returned created) ∨
        ∃ e, e.ofHandshake = true ∧ Enabled (system.run s more) e) := by
  have legal : system.Legal initial [.start, .starts true, .starts true] := by decide
  exact start_returns legal rfl (by decide) (by decide)

end RilStartup
