import Mathlib.Algebra.Group.Nat.Defs
import VendorMediatek.FdWatcher

/-!
# What the watching thread waits for and calls

Over whole runs: the wake-ups that are on their way to a select, the descriptors it was given, and
the callbacks that a round calls.
-/

namespace FdWatcher

open LabelledRuns

/-- No wake-up is lost. While the thread is in select, a time limit that is no longer the configured
one has a byte in the pipe or a writer on its way to it; and so has a stop. -/
theorem wakeup_pending {timeout_ms_ : ℤ} {es : List Event} {s : State} {read_fds : List Fd}
    {timeout : Option ℤ} (legal : system.Legal (initial timeout_ms_) es)
    (hs : system.run (initial timeout_ms_) es = s)
    (hselect : s.thread = some (.selecting read_fds timeout)) :
    (timeout = limit s.timeout_ms_ ∨ 0 < s.pipe ∨ 0 < s.notifying) ∧
      (s.running_ = true ∨ s.stopping = some .notifying ∨ 0 < s.pipe) := by
  have hinv : Invariant s := hs ▸ invariant_run legal
  have hat := hinv.placed _ hselect
  refine ⟨hat.current _ _ rfl, ?_⟩
  rcases hinv.owned (by rw [hselect]; nofun) with hr | hn | hj
  · exact .inl hr
  · exact .inr (.inl hn)
  · exact .inr (.inr (hat.woken hj rfl))

theorem wakeup_pending_configured :
    let s : State := ⟨true, [(3, 7)], 200, some 9, 0, some (.selecting [3] none), 1, none⟩
    (none = limit 200 ∨ 0 < s.pipe ∨ 0 < s.notifying) ∧
      (s.running_ = true ∨ s.stopping = some .notifying ∨ 0 < s.pipe) := by
  have legal : system.Legal (initial 0) [.watch 3 7 true, .runs, .runs, .runs, .configure 200 9] := by
    decide
  exact wakeup_pending legal rfl rfl

/-! ## The calls -/

/-- Histories: what ConfigureTimeout has been given last, until a stop, and the calls that the
thread has made for what select has found. -/
structure Calls where
  configured : Option (ℤ × TimeoutCallback)
  called : List (Fd × ReadCallback)

def configuredAfter (configured : Option (ℤ × TimeoutCallback)) :
    Event → Option (ℤ × TimeoutCallback)
  | .configure timeout callback => some (timeout, callback)
  | .callback (.configures timeout callback) => some (timeout, callback)
  | .clearTimeout => none
  | _ => configured

/-- The calls begin anew when the thread turns to what select has found. -/
def calledAfter (s : State) (called : List (Fd × ReadCallback)) : Event → List (Fd × ReadCallback)
  | .runs =>
    match s.thread with
    | some (.ready _) => []
    | some (.calling _ (p :: _)) => called ++ [p]
    | _ => called
  | _ => called

def observe (s : State) (h : Calls) (e : Event) : Calls :=
  ⟨configuredAfter h.configured e, calledAfter s h.called e⟩

def observed : System (State × Calls) Event := system.observed observe

/-- When the thread goes on from its calls it has made one for each watched descriptor that select
has found ready, in the order of the map, and no other. -/
def CallsAll (s : State) (called : List (Fd × ReadCallback)) (e : Event) : Prop :=
  ∀ read_fds, s.thread = some (.calling read_fds []) → e = .runs →
    (next s e).thread = some .top ∧ called = s.callsFor read_fds

/-- Each call is for a watched descriptor that select has found ready, to the callback that the map
holds for it. -/
def CallsCurrent (s : State) (e : Event) : Prop :=
  ∀ read_fds p rest, s.thread = some (.calling read_fds (p :: rest)) → e = .runs →
    SortedMaps.get p.1 s.watched_fds_ = some p.2 ∧ p.1 ∈ read_fds

/-- After a timeout the thread calls what ConfigureTimeout has been given last, if the time limit
given with it is positive, and else nothing. -/
def CallsConfigured (s : State) (configured : Option (ℤ × TimeoutCallback)) (e : Event) : Prop :=
  s.thread = some .timedOut → e = .runs →
    ((next s e).thread = some .top ∨ ∃ callback, (next s e).thread = some (.inTimeout callback false)) ∧
      ∀ callback, (next s e).thread = some (.inTimeout callback false) ↔
        ∃ timeout, configured = some (timeout, callback) ∧ 0 < timeout

/-- The histories fit the state: the limit and the callback are those of the last configuration, and
the calls made and those still to make are those for what select has found. -/
structure Tells (s : State) (h : Calls) : Prop where
  invariant : Invariant s
  callback : s.timeout_cb_ = h.configured.map Prod.snd
  limit : ∀ p ∈ h.configured, s.timeout_ms_ = p.1
  called : ∀ stage ∈ s.thread, ∀ read_fds rest, stage.round = some (read_fds, rest) →
    h.called ++ rest = s.callsFor read_fds

/-- What another thread does leaves the calls as they are, if the map stays while they are made. -/
theorem Tells.of_other {s t : State} {h : Calls} (ht : Tells s h)
    (hthread : ∀ stage ∈ t.thread, stage ∈ s.thread)
    (hmap : ∀ stage ∈ t.thread, stage.locked = true → t.watched_fds_ = s.watched_fds_) :
    ∀ stage ∈ t.thread, ∀ read_fds rest, stage.round = some (read_fds, rest) →
      h.called ++ rest = t.callsFor read_fds := by
  intro stage hs read_fds rest hround
  rw [State.callsFor, hmap stage hs (locked_of_round hround)]
  exact ht.called stage (hthread stage hs) read_fds rest hround

theorem Tells.current {s : State} {h : Calls} (ht : Tells s h) (e : Event) : CallsCurrent s e := by
  intro read_fds p rest hs _
  have hcalls := ht.called _ hs read_fds (p :: rest) rfl
  have hmem : p ∈ s.callsFor read_fds := by
    rw [← hcalls]
    exact List.mem_append_right _ List.mem_cons_self
  obtain ⟨hmap, hready⟩ := List.mem_filter.mp hmem
  exact ⟨(SortedMaps.get_eq_some_iff ht.invariant.sorted).mpr hmap, by simpa using hready⟩

theorem Tells.all {s : State} {h : Calls} (ht : Tells s h) (e : Event) :
    CallsAll s h.called e := by
  rintro read_fds hs rfl
  have hcalls := ht.called _ hs read_fds [] rfl
  rw [List.append_nil] at hcalls
  refine ⟨?_, hcalls⟩
  simp [next, hs, threadStep, runStep, State.enter]

theorem Tells.savedCallback {s : State} {h : Calls} (ht : Tells s h) (callback : TimeoutCallback) :
    s.savedCallback = some callback ↔
      ∃ timeout, h.configured = some (timeout, callback) ∧ 0 < timeout := by
  rw [State.savedCallback, ht.callback]
  constructor
  · intro hsaved
    obtain ⟨hpos, hcb⟩ := Option.ite_none_right_eq_some.mp hsaved
    obtain ⟨p, hp, rfl⟩ := Option.map_eq_some_iff.mp hcb
    exact ⟨p.1, hp, ht.limit p hp ▸ hpos⟩
  · rintro ⟨timeout, hconfigured, hpos⟩
    rw [if_pos (ht.limit _ hconfigured ▸ hpos), hconfigured]
    rfl

theorem Tells.configured {s : State} {h : Calls} (ht : Tells s h) (e : Event) :
    CallsConfigured s h.configured e := by
  rintro hs rfl
  have hnext : (next s .runs).thread = some s.timeoutStage := by
    simp [next, hs, threadStep, runStep, State.enter]
  simp only [hnext, ← ht.savedCallback, State.timeoutStage]
  cases s.savedCallback with
  | none => exact ⟨.inl rfl, fun callback => ⟨by rintro ⟨⟩, by rintro ⟨⟩⟩⟩
  | some saved => exact ⟨.inr ⟨saved, rfl⟩, fun callback => by simp⟩

/-- The descriptors select is given, from when they are copied. -/
def Stage.waitsFor : Stage → Option (List Fd)
  | .filled fds | .selecting fds _ => some fds
  | _ => none

/-- Every watched descriptor is waited for while the thread is in select or about to be. -/
def State.WaitsForAll (s : State) : Prop :=
  ∀ stage ∈ s.thread, ∀ fds, stage.waitsFor = some fds → ∀ p ∈ s.watched_fds_, p.1 ∈ fds

/-- The step does not add a descriptor that the thread, on its way into select, has not copied. -/
def SeesWatch (s : State) : Event → Prop
  | .watch fd _ _ => ∀ stage ∈ s.thread, ∀ fds, stage.waitsFor = some fds → fd ∈ fds
  | _ => True

/-- The descriptors that the thread waits for after a step of its own are those it waited for
before, or all that are watched. -/
theorem waitsFor_runStep {s t : State} {stage stage' : Stage} {fds : List Fd}
    (h : runStep s stage = some t) (ht : t.thread = some stage')
    (hfds : stage'.waitsFor = some fds) :
    stage.waitsFor = some fds ∨ fds = s.watched_fds_.map Prod.fst := by
  cases stage with
  | top =>
    cases h
    cases ht
    split at hfds <;> cases hfds
  | looping =>
    cases h
    cases ht
    cases hfds
    exact .inr rfl
  | filled fds =>
    cases h
    cases ht
    exact .inl hfds
  | timedOut =>
    cases h
    cases ht
    rw [State.timeoutStage] at hfds
    split at hfds <;> cases hfds
  | ready found =>
    cases h
    cases ht
    cases hfds
  | calling found rest =>
    cases rest <;> cases h <;> cases ht <;> cases hfds
  | _ => cases h

theorem waits_of_waitsFor {stage : Stage} {fds : List Fd} (h : stage.waitsFor = some fds) :
    stage.waits = true := by
  cases stage <;> first | rfl | cases h

theorem waitsForAll_thread {s : State} {e : Event} (h : Invariant s) (hall : s.WaitsForAll)
    (he : e.ofThread = true) (hen : Enabled s e) : (next s e).WaitsForAll := by
  obtain ⟨stage, hs, hstep⟩ := next_of_thread he hen
  obtain ⟨stage', hm, hruns⟩ := threadStep_moves h.not_joining hstep
  intro stage'' hin fds hfds p hp
  rw [hm.thread] at hin
  cases hin
  rw [hm.watched] at hp
  rcases waitsFor_runStep (hruns (waits_of_waitsFor hfds)) hm.thread hfds with hold | heq
  · exact hall stage hs fds hold p hp
  · rw [heq]
    exact List.mem_map_of_mem hp

/-- A step other than the thread's that leaves the thread where it is and adds nothing to the map. -/
theorem waitsForAll_other {s t : State} (hall : s.WaitsForAll) (hthread : t.thread = s.thread)
    (hmap : ∀ p ∈ t.watched_fds_, p ∈ s.watched_fds_) : t.WaitsForAll := by
  intro stage hs fds hfds p hp
  exact hall stage (by rwa [← hthread]) fds hfds p (hmap p hp)

theorem waitsForAll_watch {s : State} {fd : Fd} {callback : ReadCallback} {started : Bool}
    (h : Invariant s) (hall : s.WaitsForAll) (hen : Enabled s (.watch fd callback started)) :
    (next s (.watch fd callback started)).WaitsForAll ↔ SeesWatch s (.watch fd callback started) := by
  have hput : ∀ p, p ∈ SortedMaps.put fd callback s.watched_fds_ ↔
      p = (fd, callback) ∨ p.1 ≠ fd ∧ p ∈ s.watched_fds_ := fun p => SortedMaps.mem_put_iff h.sorted
  simp only [next, watchNext]
  split
  · refine ⟨fun hnext stage hs fds hfds => ?_, fun hsees stage hs fds hfds p hp => ?_⟩
    · exact hnext stage hs fds hfds (fd, callback) ((hput _).mpr (.inl rfl))
    · rcases (hput p).mp hp with rfl | ⟨-, hmem⟩
      · exact hsees stage hs fds hfds
      · exact hall stage hs fds hfds p hmem
  · next hr =>
    have hthread := h.thread_none hr (by simp [hen.1]) (by simp [hen.1])
    have hsees : SeesWatch s (.watch fd callback started) := by
      intro stage hs
      rw [hthread] at hs
      cases hs
    refine iff_of_true ?_ hsees
    split
    · intro stage hs fds hfds
      cases hs
      cases hfds
    · intro stage hs
      exact absurd hs (by simp [hthread])

theorem waitsForAll_step {s : State} {e : Event} (h : Invariant s) (hall : s.WaitsForAll)
    (he : Enabled s e) : (next s e).WaitsForAll ↔ SeesWatch s e := by
  cases e with
  | watch fd callback started => exact waitsForAll_watch h hall he
  | runs => exact iff_of_true (waitsForAll_thread h hall rfl he) trivial
  | selects result => exact iff_of_true (waitsForAll_thread h hall rfl he) trivial
  | callback step => exact iff_of_true (waitsForAll_thread h hall rfl he) trivial
  | configure timeout callback =>
    exact iff_of_true (waitsForAll_other hall rfl fun _ hp => hp) trivial
  | notify => exact iff_of_true (waitsForAll_other hall rfl fun _ hp => hp) trivial
  | stop =>
    refine iff_of_true ?_ trivial
    simp only [next]
    split
    · exact waitsForAll_other hall rfl fun _ hp => hp
    · exact hall
  | stopNotify => exact iff_of_true (waitsForAll_other hall rfl fun _ hp => hp) trivial
  | join =>
    refine iff_of_true (fun stage hs => ?_) trivial
    cases hs
  | clearFds =>
    exact iff_of_true (waitsForAll_other hall rfl fun _ hp => absurd hp List.not_mem_nil) trivial
  | clearTimeout => exact iff_of_true (waitsForAll_other hall rfl fun _ hp => hp) trivial

/-- A new watch wakes nobody: the thread waits for all that is watched, throughout a run, exactly
when no descriptor is added between its copy of the descriptors and the end of select. -/
theorem always_waitsForAll_iff {timeout_ms_ : ℤ} {es : List Event}
    (legal : system.Legal (initial timeout_ms_) es) :
    (∀ pre, pre <+: es → (system.run (initial timeout_ms_) pre).WaitsForAll) ↔
      system.Along SeesWatch (initial timeout_ms_) es :=
  always_iff_guarded system invariant_step (fun _ _ h hall he => waitsForAll_step h hall he)
    (invariant_initial timeout_ms_) (by rintro stage ⟨⟩) legal

/-- A device with two channels is opened, and the thread is in select before the second descriptor
is added. -/
theorem always_waitsForAll_iff_late :
    (∀ pre, pre <+: [.watch 3 1 true, .runs, .runs, .runs, .watch 5 2 true] →
      (system.run (initial 0) pre).WaitsForAll) ↔
    system.Along SeesWatch (initial 0) [.watch 3 1 true, .runs, .runs, .runs, .watch 5 2 true] :=
  always_waitsForAll_iff (by decide)

end FdWatcher
