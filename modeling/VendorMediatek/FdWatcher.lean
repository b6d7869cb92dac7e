import Mathlib.Algebra.Group.Nat.Defs
import VendorMediatek.LabelledRuns
import VendorMediatek.SortedMaps

/-!
# The thread that watches descriptors

`AsyncFdWatcher` of the Bluetooth service. One thread waits in select for the watched descriptors
and for its notification pipe. ConfigureTimeout may be called from any thread, also from the
callbacks; one thread starts to watch and stops again. A step reads or writes what one lock, one
system call or one atomic covers.
-/

namespace FdWatcher

open LabelledRuns

abbrev Fd := ℕ

/-- Callbacks by number. -/
abbrev ReadCallback := ℕ
abbrev TimeoutCallback := ℕ

/-- Where ThreadRoutine is. In a callback it may be between the two halves of a ConfigureTimeout of
its own. -/
inductive Stage where
  | top
  | looping
  | filled (read_fds : List Fd)
  | selecting (read_fds : List Fd) (timeout : Option ℤ)
  | timedOut
  | inTimeout (callback : TimeoutCallback) (owes : Bool)
  | ready (read_fds : List Fd)
  | calling (read_fds : List Fd) (rest : List (Fd × ReadCallback))
  | inRead (owes : Bool) (read_fds : List Fd) (rest : List (Fd × ReadCallback))
  | finished
  deriving DecidableEq

/-- Where a stopThread that has found the thread running is. -/
inductive Stopping where
  | notifying | joining | clearingFds | clearingTimeout
  deriving DecidableEq

/-- The bytes in the notification pipe, the thread until it is joined, and how many threads are
between the lock and the write of ConfigureTimeout. -/
structure State where
  running_ : Bool
  watched_fds_ : List (Fd × ReadCallback)
  timeout_ms_ : ℤ
  timeout_cb_ : Option TimeoutCallback
  pipe : ℕ
  thread : Option Stage
  notifying : ℕ
  stopping : Option Stopping
  deriving DecidableEq

/-- timeout_ms_ has no value of its own at first. -/
def initial (timeout_ms_ : ℤ) : State := ⟨false, [], timeout_ms_, none, 0, none, 0, none⟩

def pipeCapacity : ℕ := 65536

/-- A write into the pipe, which does not wait for room. -/
def State.notifyThread (s : State) : State := { s with pipe := min (s.pipe + 1) pipeCapacity }

def State.enter (s : State) (stage : Stage) : State := { s with thread := some stage }

def limit (timeout_ms_ : ℤ) : Option ℤ := if 0 < timeout_ms_ then some timeout_ms_ else none

/-- What select returns: an error, a timeout, the notification pipe among the ready descriptors, or
these without it. -/
inductive SelectResult where
  | fails
  | timesOut
  | notified
  | ready (read_fds : List Fd)
  deriving DecidableEq

inductive CallbackStep where
  | configures (timeout : ℤ) (callback : TimeoutCallback)
  | notifies
  | returns
  deriving DecidableEq

/-- The last three are steps of the thread: in its own code, in select and in a callback. started
says whether the pipe and the thread could be made. -/
inductive Event where
  | watch (fd : Fd) (callback : ReadCallback) (started : Bool)
  | configure (timeout : ℤ) (callback : TimeoutCallback)
  | notify
  | stop
  | stopNotify
  | join
  | clearFds
  | clearTimeout
  | runs
  | selects (result : SelectResult)
  | callback (step : CallbackStep)
  deriving DecidableEq

/-- WatchFdForNonBlockingReads and tryStartThread. -/
def watchNext (s : State) (fd : Fd) (callback : ReadCallback) (started : Bool) : State :=
  let watched := { s with watched_fds_ := SortedMaps.put fd callback s.watched_fds_ }
  if s.running_ then watched
  else if started then { watched with running_ := true, pipe := 0, thread := some .top }
  else { watched with running_ := true }

/-- The first half of ConfigureTimeout, under timeout_mutex_. -/
def State.setTimeout (s : State) (timeout : ℤ) (callback : TimeoutCallback) : State :=
  { s with timeout_ms_ := timeout, timeout_cb_ := some callback }

/-- The callback of a timeout, as it stands under timeout_mutex_. -/
def State.savedCallback (s : State) : Option TimeoutCallback :=
  if 0 < s.timeout_ms_ then s.timeout_cb_ else none

/-- Where the thread goes after a timeout. -/
def State.timeoutStage (s : State) : Stage :=
  match s.savedCallback with
  | some callback => .inTimeout callback false
  | none => .top

/-- The callbacks of the descriptors that select has found ready, in the order of the map. -/
def State.callsFor (s : State) (read_fds : List Fd) : List (Fd × ReadCallback) :=
  s.watched_fds_.filter fun p => p.1 ∈ read_fds

/-- ThreadRoutine outside select and the callbacks. -/
def runStep (s : State) : Stage → Option State
  | .top => some (s.enter (if s.running_ then .looping else .finished))
  | .looping => some (s.enter (.filled (s.watched_fds_.map Prod.fst)))
  | .filled fds => some (s.enter (.selecting fds (limit s.timeout_ms_)))
  | .timedOut => some (s.enter s.timeoutStage)
  | .ready fds => some (s.enter (.calling fds (s.callsFor fds)))
  | .calling fds (_ :: rest) => some (s.enter (.inRead false fds rest))
  | .calling _ [] => some (s.enter .top)
  | .selecting _ _ | .inTimeout _ _ | .inRead _ _ _ | .finished => none

/-- select waits while there is nothing in the pipe and nothing to read. It finds ready what it was
given. A byte is read from the pipe before anything else is looked at. -/
def selectStep (s : State) (read_fds : List Fd) (timeout : Option ℤ) : SelectResult → Option State
  | .fails => some (s.enter .top)
  | .timesOut => if timeout ≠ none ∧ s.pipe = 0 then some (s.enter .timedOut) else none
  | .notified => if 0 < s.pipe then some { s with pipe := s.pipe - 1, thread := some .top } else none
  | .ready found =>
    if s.pipe = 0 ∧ found ≠ [] ∧ ∀ fd ∈ found, fd ∈ read_fds then some (s.enter (.ready found))
    else none

/-- A callback returns or calls ConfigureTimeout. -/
def callbackStep (s : State) (stage : Bool → Stage) (after : Stage) :
    Bool → CallbackStep → Option State
  | false, .returns => some (s.enter after)
  | false, .configures timeout callback =>
    some ((s.setTimeout timeout callback).enter (stage true))
  | true, .notifies => some (s.notifyThread.enter (stage false))
  | _, _ => none

/-- A step of the thread, where it can take it. -/
def threadStep (s : State) (stage : Stage) : Event → Option State
  | .runs => runStep s stage
  | .selects result =>
    match stage with
    | .selecting fds timeout => selectStep s fds timeout result
    | _ => none
  | .callback step =>
    match stage with
    | .inTimeout callback owes => callbackStep s (.inTimeout callback) .top owes step
    | .inRead owes fds rest =>
      callbackStep s (fun owes => .inRead owes fds rest) (.calling fds rest) owes step
    | _ => none
  | _ => none

def next (s : State) : Event → State
  | .watch fd callback started => watchNext s fd callback started
  | .configure timeout callback =>
    { s.setTimeout timeout callback with notifying := s.notifying + 1 }
  | .notify => { s.notifyThread with notifying := s.notifying - 1 }
  | .stop =>
    if s.running_ then { s with running_ := false, stopping := some .notifying } else s
  | .stopNotify => { s.notifyThread with stopping := some .joining }
  | .join => { s with thread := none, stopping := some .clearingFds }
  | .clearFds => { s with watched_fds_ := [], stopping := some .clearingTimeout }
  | .clearTimeout => { s with timeout_cb_ := none, stopping := none }
  | e => (s.thread.bind fun stage => threadStep s stage e).getD s

def Stage.locked : Stage → Bool
  | .calling _ _ | .inRead _ _ _ => true
  | _ => false

def State.Unlocked (s : State) : Prop := ∀ stage ∈ s.thread, stage.locked = false

/-- The thread that watches and stops does one at a time. A stop returns when it has joined the
thread and cleared what it watched. -/
def Enabled (s : State) : Event → Prop
  | .watch _ _ _ => s.stopping = none ∧ s.Unlocked
  | .configure _ _ => True
  | .notify => 0 < s.notifying
  | .stop => s.stopping = none
  | .stopNotify => s.stopping = some .notifying
  | .join => s.stopping = some .joining ∧ s.thread = some .finished
  | .clearFds => s.stopping = some .clearingFds
  | .clearTimeout => s.stopping = some .clearingTimeout
  | e => ∃ stage ∈ s.thread, (threadStep s stage e).isSome

def system : System State Event := ⟨Enabled, next⟩

instance (s : State) : Decidable s.Unlocked :=
  inferInstanceAs (Decidable (∀ stage ∈ s.thread, stage.locked = false))

instance (s : State) (e : Event) : Decidable (Enabled s e) := by
  cases e <;> simp only [Enabled] <;> infer_instance

instance (s : State) (e : Event) : Decidable (system.Enabled s e) :=
  inferInstanceAs (Decidable (Enabled s e))

/-- ThreadRoutine is on its way into select, or in it. -/
def Stage.waits : Stage → Bool
  | .looping | .filled _ | .selecting _ _ => true
  | _ => false

/-- What select has found ready, and the calls still to make. -/
def Stage.round : Stage → Option (List Fd × List (Fd × ReadCallback))
  | .calling fds rest | .inRead _ fds rest => some (fds, rest)
  | _ => none

/-- What holds of the shared state where the thread is: a byte for a stop that wants to join it, a
byte or a writer for a time limit that has changed since, the callbacks left to call among those of
the map as it stands. -/
structure At (s : State) (stage : Stage) : Prop where
  woken : s.stopping = some .joining → stage.waits = true → 0 < s.pipe
  current : ∀ fds timeout, stage = .selecting fds timeout →
    timeout = limit s.timeout_ms_ ∨ 0 < s.pipe ∨ 0 < s.notifying
  calls : ∀ fds rest, stage.round = some (fds, rest) → rest <:+ s.callsFor fds

/-- What every step keeps. -/
structure Invariant (s : State) : Prop where
  sorted : SortedMaps.Sorted s.watched_fds_
  stopped : s.stopping ≠ none → s.running_ = false
  owned : s.thread ≠ none → s.running_ = true ∨ s.stopping = some .notifying ∨
    s.stopping = some .joining
  placed : ∀ stage ∈ s.thread, At s stage

@[simp] theorem notifyThread_running (s : State) : s.notifyThread.running_ = s.running_ := rfl
@[simp] theorem notifyThread_watched (s : State) :
    s.notifyThread.watched_fds_ = s.watched_fds_ := rfl
@[simp] theorem notifyThread_thread (s : State) : s.notifyThread.thread = s.thread := rfl
@[simp] theorem notifyThread_stopping (s : State) : s.notifyThread.stopping = s.stopping := rfl

theorem notifyThread_pipe_pos (s : State) : 0 < s.notifyThread.pipe :=
  lt_min (Nat.succ_pos _) (by decide)

theorem invariant_initial (timeout_ms_ : ℤ) : Invariant (initial timeout_ms_) := by
  refine ⟨SortedMaps.sorted_nil, fun h => absurd rfl h, fun h => absurd rfl h, ?_⟩
  rintro stage ⟨⟩

theorem locked_of_round {stage : Stage} {round : List Fd × List (Fd × ReadCallback)}
    (h : stage.round = some round) : stage.locked = true := by
  cases stage <;> first | rfl | cases h

/-- A stage outside the wait and the calls asks nothing of the shared state. -/
theorem At.of_plain {s : State} {stage : Stage} (hw : stage.waits = false)
    (hl : stage.locked = false) : At s stage := by
  refine ⟨fun _ h => absurd h (by simp [hw]), ?_, fun fds rest h => ?_⟩
  · rintro fds timeout rfl
    cases hw
  · rw [locked_of_round h] at hl
    cases hl

theorem At.of_round {s t : State} {stage stage' : Stage} (h : At s stage)
    (hmap : t.watched_fds_ = s.watched_fds_) (hw : stage'.waits = false)
    (hr : ∀ round, stage'.round = some round → stage.round = some round) : At t stage' := by
  refine ⟨fun _ h => absurd h (by simp [hw]), ?_, fun fds rest heq => ?_⟩
  · rintro fds timeout rfl
    cases hw
  · rw [State.callsFor, hmap]
    exact h.calls fds rest (hr _ heq)

/-- What another thread does leaves the thread where it was, if the map stays or is not gone
through, if a changed time limit has a writer and a joined thread a byte. -/
theorem At.of_other {s t : State} {stage : Stage} (h : At s stage)
    (hmap : stage.locked = true → t.watched_fds_ = s.watched_fds_)
    (hlimit : t.timeout_ms_ = s.timeout_ms_ ∧ (0 < s.notifying → 0 < t.pipe ∨ 0 < t.notifying) ∨
      0 < t.pipe ∨ 0 < t.notifying)
    (hpipe : 0 < s.pipe → 0 < t.pipe)
    (hjoin : t.stopping = some .joining → s.stopping = some .joining ∨ 0 < t.pipe) :
    At t stage := by
  refine ⟨fun ht hw => ?_, fun fds timeout heq => ?_, fun fds rest heq => ?_⟩
  · rcases hjoin ht with hs | hp
    · exact hpipe (h.woken hs hw)
    · exact hp
  · rcases hlimit with ⟨hms, hn⟩ | hp
    · rcases h.current fds timeout heq with hc | hp | hp
      · exact .inl (by rw [hms, hc])
      · exact .inr (.inl (hpipe hp))
      · exact .inr (hn hp)
    · exact .inr hp
  · have hmem := h.calls fds rest heq
    rwa [State.callsFor, hmap (locked_of_round heq)]

/-- What a step of the thread leaves alone, and where it arrives. -/
structure Moves (s t : State) (stage stage' : Stage) : Prop where
  running : t.running_ = s.running_
  watched : t.watched_fds_ = s.watched_fds_
  stopping : t.stopping = s.stopping
  notifying : t.notifying = s.notifying
  thread : t.thread = some stage'
  placed : At s stage → At t stage'

theorem Moves.enter {s : State} {stage stage' : Stage} (h : At s stage → At (s.enter stage') stage') :
    Moves s (s.enter stage') stage stage' :=
  ⟨rfl, rfl, rfl, rfl, rfl, h⟩

theorem runStep_moves {s t : State} {stage : Stage}
    (hwake : s.running_ = true → s.stopping ≠ some .joining) (h : runStep s stage = some t) :
    ∃ stage', Moves s t stage stage' := by
  cases stage with
  | top =>
    cases h
    refine ⟨_, .enter fun _ => ?_⟩
    split
    · next hr => exact ⟨fun hj => absurd hj (hwake hr), by rintro _ _ ⟨⟩, by rintro _ _ ⟨⟩⟩
    · exact .of_plain rfl rfl
  | looping =>
    cases h
    exact ⟨_, .enter fun ha => ⟨fun hj _ => ha.woken hj rfl, by rintro _ _ ⟨⟩,
      by rintro _ _ ⟨⟩⟩⟩
  | filled fds =>
    cases h
    refine ⟨_, .enter fun ha => ⟨fun hj _ => ha.woken hj rfl, ?_, by rintro _ _ ⟨⟩⟩⟩
    rintro _ _ ⟨⟩
    exact .inl rfl
  | timedOut =>
    cases h
    refine ⟨_, .enter fun _ => ?_⟩
    rw [State.timeoutStage]
    split <;> exact .of_plain rfl rfl
  | ready fds =>
    cases h
    refine ⟨_, .enter fun _ => ⟨fun _ hw => Bool.noConfusion hw, by rintro _ _ ⟨⟩, ?_⟩⟩
    rintro _ _ ⟨⟩
    exact List.suffix_rfl
  | calling fds rest =>
    cases rest with
    | nil =>
      cases h
      exact ⟨_, .enter fun _ => .of_plain rfl rfl⟩
    | cons p rest =>
      cases h
      refine ⟨_, .enter fun ha => ⟨fun _ hw => Bool.noConfusion hw, by rintro _ _ ⟨⟩, ?_⟩⟩
      rintro _ _ ⟨⟩
      exact (List.suffix_cons p rest).trans (ha.calls fds _ rfl)
  | selecting fds timeout => cases h
  | inTimeout callback owes => cases h
  | inRead owes fds rest => cases h
  | finished => cases h

theorem selectStep_moves {s t : State} {read_fds : List Fd} {timeout : Option ℤ}
    {result : SelectResult} (h : selectStep s read_fds timeout result = some t) :
    ∃ stage', stage'.waits = false ∧ Moves s t (.selecting read_fds timeout) stage' := by
  cases result with
  | fails =>
    cases h
    exact ⟨_, rfl, .enter fun _ => .of_plain rfl rfl⟩
  | timesOut =>
    obtain ⟨-, h⟩ := Option.ite_some_none_eq_some.mp h
    subst h
    exact ⟨_, rfl, .enter fun _ => .of_plain rfl rfl⟩
  | notified =>
    obtain ⟨-, h⟩ := Option.ite_some_none_eq_some.mp h
    subst h
    exact ⟨_, rfl, rfl, rfl, rfl, rfl, rfl, fun _ => .of_plain rfl rfl⟩
  | ready found =>
    obtain ⟨-, h⟩ := Option.ite_some_none_eq_some.mp h
    subst h
    exact ⟨_, rfl, .enter fun _ => .of_plain rfl rfl⟩

theorem callbackStep_moves {s t : State} {stage : Bool → Stage} {after : Stage} {owes : Bool}
    {step : CallbackStep} (h : callbackStep s stage after owes step = some t)
    (hw : ∀ owes, (stage owes).waits = false) (hafter : after.waits = false)
    (hround : ∀ o o', (stage o).round = (stage o').round)
    (hr : ∀ round, after.round = some round → (stage owes).round = some round) :
    (step = .returns ∧ Moves s t (stage owes) after) ∨
      (step ≠ .returns ∧ Moves s t (stage owes) (stage !owes)) := by
  cases owes with
  | false =>
    cases step with
    | configures timeout callback =>
      cases h
      exact .inr ⟨nofun, rfl, rfl, rfl, rfl, rfl, fun ha =>
        ha.of_round rfl (hw true) fun round hn => (hround false true).trans hn⟩
    | notifies => cases h
    | returns =>
      cases h
      exact .inl ⟨rfl, .enter fun ha => ha.of_round rfl hafter hr⟩
  | true =>
    cases step with
    | configures timeout callback => cases h
    | notifies =>
      cases h
      exact .inr ⟨nofun, rfl, rfl, rfl, rfl, rfl, fun ha =>
        ha.of_round rfl (hw false) fun round hn => (hround true false).trans hn⟩
    | returns => cases h

theorem threadStep_moves {s t : State} {stage : Stage} {e : Event}
    (hwake : s.running_ = true → s.stopping ≠ some .joining) (h : threadStep s stage e = some t) :
    ∃ stage', Moves s t stage stage' ∧ (stage'.waits = true → runStep s stage = some t) := by
  cases e with
  | runs =>
    obtain ⟨stage', hm⟩ := runStep_moves hwake h
    exact ⟨stage', hm, fun _ => h⟩
  | selects result =>
    cases stage with
    | selecting fds timeout =>
      obtain ⟨stage', hw, hm⟩ := selectStep_moves h
      exact ⟨stage', hm, fun hn => absurd hn (by simp [hw])⟩
    | _ => cases h
  | callback step =>
    cases stage with
    | inTimeout callback owes =>
      have hstep : callbackStep s (.inTimeout callback) .top owes step = some t := h
      rcases callbackStep_moves hstep (fun _ => rfl) rfl (fun _ _ => rfl) (by rintro _ ⟨⟩) with
        ⟨-, hm⟩ | ⟨-, hm⟩
      · exact ⟨_, hm, nofun⟩
      · exact ⟨_, hm, nofun⟩
    | inRead owes fds rest =>
      have hstep : callbackStep s (fun owes => .inRead owes fds rest) (.calling fds rest) owes step =
        some t := h
      rcases callbackStep_moves hstep (fun _ => rfl) rfl (fun _ _ => rfl) (fun _ hn => hn) with
        ⟨-, hm⟩ | ⟨-, hm⟩
      · exact ⟨_, hm, nofun⟩
      · exact ⟨_, hm, nofun⟩
    | _ => cases h
  | _ => cases h

def Event.ofThread : Event → Bool
  | .runs | .selects _ | .callback _ => true
  | _ => false

theorem next_of_thread {s : State} {e : Event} (he : e.ofThread = true) (h : Enabled s e) :
    ∃ stage, s.thread = some stage ∧ threadStep s stage e = some (next s e) := by
  cases e <;> try cases he
  all_goals
    obtain ⟨stage, hs, hstep⟩ := h
    obtain ⟨t, ht⟩ := Option.isSome_iff_exists.mp hstep
    exact ⟨stage, hs, by simp [next, Option.mem_def.mp hs, ht]⟩

theorem Invariant.not_joining {s : State} (h : Invariant s) (hr : s.running_ = true) :
    s.stopping ≠ some .joining := by
  intro hj
  have hstop := h.stopped (by rw [hj]; nofun)
  rw [hr] at hstop
  cases hstop

theorem invariant_thread {s : State} {e : Event} (h : Invariant s) (he : e.ofThread = true)
    (hen : Enabled s e) : Invariant (next s e) := by
  obtain ⟨stage, hs, hstep⟩ := next_of_thread he hen
  obtain ⟨stage', hm, -⟩ := threadStep_moves h.not_joining hstep
  refine ⟨?_, ?_, fun _ => ?_, ?_⟩
  · rw [hm.watched]
    exact h.sorted
  · rw [hm.stopping, hm.running]
    exact h.stopped
  · rw [hm.stopping, hm.running]
    exact h.owned (by rw [hs]; nofun)
  · intro stage'' hin
    rw [hm.thread] at hin
    cases hin
    exact hm.placed (h.placed stage hs)

theorem Invariant.thread_none {s : State} (h : Invariant s) (hr : s.running_ ≠ true)
    (hn : s.stopping ≠ some .notifying) (hj : s.stopping ≠ some .joining) : s.thread = none := by
  by_contra hne
  rcases h.owned hne with hrun | hs | hs
  · exact hr hrun
  · exact hn hs
  · exact hj hs

theorem placed_of_none {s t : State} (h : s.thread = none) : ∀ stage ∈ s.thread, At t stage := by
  intro stage hs
  rw [h] at hs
  cases hs

theorem invariant_step (s : State) (e : Event) (h : Invariant s) (he : Enabled s e) :
    Invariant (next s e) := by
  cases e with
  | watch fd callback started =>
    obtain ⟨hnone, hfree⟩ := he
    have hsorted := h.sorted.put fd callback
    simp only [next, watchNext]
    split
    · next hr =>
      refine ⟨hsorted, h.stopped, h.owned, fun stage hs => ?_⟩
      refine (h.placed stage hs).of_other (fun hl => ?_) (.inl ⟨rfl, .inr⟩) id .inl
      rw [hfree stage hs] at hl
      cases hl
    · next hr =>
      have hthread := h.thread_none hr (by rw [hnone]; nofun) (by rw [hnone]; nofun)
      split
      · refine ⟨hsorted, fun hs => absurd hnone hs, fun _ => .inl rfl, ?_⟩
        rintro stage ⟨⟩
        exact .of_plain rfl rfl
      · exact ⟨hsorted, fun hs => absurd hnone hs, fun _ => .inl rfl, placed_of_none hthread⟩
  | configure timeout callback =>
    refine ⟨h.sorted, h.stopped, h.owned, fun stage hs => ?_⟩
    exact (h.placed stage hs).of_other (fun _ => rfl) (.inr (.inr (Nat.succ_pos _))) id .inl
  | notify =>
    refine ⟨h.sorted, h.stopped, h.owned, fun stage hs => ?_⟩
    have hp := notifyThread_pipe_pos s
    exact (h.placed stage hs).of_other (fun _ => rfl) (.inr (.inl hp)) (fun _ => hp) .inl
  | stop =>
    simp only [next]
    split
    · next hr =>
      refine ⟨h.sorted, fun _ => rfl, fun _ => .inr (.inl rfl), fun stage hs => ?_⟩
      exact (h.placed stage hs).of_other (fun _ => rfl) (.inl ⟨rfl, .inr⟩) id nofun
    · exact h
  | stopNotify =>
    refine ⟨h.sorted, fun _ => h.stopped (by rw [he]; nofun), fun _ => .inr (.inr rfl), ?_⟩
    intro stage hs
    have hp := notifyThread_pipe_pos s
    exact (h.placed stage hs).of_other (fun _ => rfl) (.inr (.inl hp)) (fun _ => hp)
      fun _ => .inr hp
  | join =>
    refine ⟨h.sorted, fun _ => h.stopped (by rw [he.1]; nofun), fun hn => absurd rfl hn, ?_⟩
    rintro stage ⟨⟩
  | clearFds =>
    have hstopped := h.stopped (by rw [he]; nofun)
    have hthread := h.thread_none (by rw [hstopped]; nofun) (by rw [he]; nofun) (by rw [he]; nofun)
    exact ⟨SortedMaps.sorted_nil, fun _ => hstopped, fun hn => absurd hthread hn,
      placed_of_none hthread⟩
  | clearTimeout =>
    have hstopped := h.stopped (by rw [he]; nofun)
    have hthread := h.thread_none (by rw [hstopped]; nofun) (by rw [he]; nofun) (by rw [he]; nofun)
    exact ⟨h.sorted, fun hn => absurd rfl hn, fun hn => absurd hthread hn,
      placed_of_none hthread⟩
  | runs => exact invariant_thread h rfl he
  | selects result => exact invariant_thread h rfl he
  | callback step => exact invariant_thread h rfl he

theorem invariant_run {timeout_ms_ : ℤ} {es : List Event}
    (legal : system.Legal (initial timeout_ms_) es) :
    Invariant (system.run (initial timeout_ms_) es) :=
  invariant_legal system invariant_step (invariant_initial timeout_ms_) legal

end FdWatcher
