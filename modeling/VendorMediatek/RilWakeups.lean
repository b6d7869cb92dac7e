import VendorMediatek.RilEventTimers

/-!
# Waking the event loop for a timer

internalRequestTimedCallback of ril.cpp adds a timer from any thread; where that is not the loop's
own, triggerEvLoop writes a byte into the wakeup pipe, which the loop watches. The steps of the loop
and of the other calls are those of ril_event.cpp.
-/

namespace RilWakeups

open LabelledRuns CircularList TimerQueue
open RilEventLoop hiding Event State Enabled WellUsed step next

/-- The bytes in the wakeup pipe and the threads between ril_timer_add and the write of
triggerEvLoop. The clock of the last calcNextTimeout is history. -/
structure State where
  loop : RilEventLoop.State
  pipe : ℕ
  triggering : ℕ
  start : TimeVal

inductive Event where
  | step (e : RilEventLoop.Event)
  | request (ev : ℕ) (tv : TimeVal)
  | requestInLoop (ev : ℕ) (tv : TimeVal)
  | trigger
  | processWakeupCallback

/-- What an event is for ril_event.cpp. -/
def Event.inner : Event → Option RilEventLoop.Event
  | .step e => some e
  | .request ev tv | .requestInLoop ev tv => some (.rilTimerAdd ev (some tv))
  | .trigger | .processWakeupCallback => none

def initial (clock : TimeVal) : State := ⟨rilEventInit clock, 0, 0, clock⟩

def next (s : State) (e : Event) : State :=
  let s' := { s with loop := (e.inner.map (RilEventLoop.next s.loop)).getD s.loop }
  match e with
  | .step .calcNextTimeout => { s' with start := s.loop.clock }
  | .request _ _ => { s' with triggering := s.triggering + 1 }
  | .trigger => { s' with pipe := s.pipe + 1, triggering := s.triggering - 1 }
  | .processWakeupCallback => { s' with pipe := 0 }
  | _ => s'

/-- Timers come from internalRequestTimedCallback alone. In the loop it runs only within a callback,
and processWakeupCallback is one. -/
def Enabled (s : State) (e : Event) : Prop :=
  (∀ inner ∈ e.inner, RilEventLoop.Enabled s.loop inner ∧ RilEventLoop.WellUsed s.loop inner) ∧
  match e with
  | .step (.rilTimerAdd _ _) => False
  | .requestInLoop _ _ | .processWakeupCallback => ∃ after, s.loop.phase = .calling after
  | .trigger => 0 < s.triggering
  | _ => True

def system : System State Event := ⟨Enabled, next⟩

/-- The loop in select is woken in time for a timer. -/
def State.InTime (s : State) (tv : Option TimeVal) (deadline : TimeVal) : Prop :=
  (∃ t ∈ tv, s.start.micros + t.micros ≤ max s.start.micros deadline.micros) ∨
    0 < s.pipe ∨ 0 < s.triggering

def Watchful (s : State) (timers pending : List ℕ) : Prop :=
  ∀ tv, s.loop.phase = .selecting tv →
    ∀ t ∈ (queue s.loop timers pending).waiting, s.InTime tv t.deadline

structure Inv (s : State) (timers pending : List ℕ) : Prop where
  sound : Sound s.loop timers pending
  normal : Normal (queue s.loop timers pending)
  watchful : Watchful s timers pending

theorem rilEventDel_phase (s : RilEventLoop.State) (ev : ℕ) : (rilEventDel s ev).phase = s.phase := by
  simp only [rilEventDel]
  split
  · simp only [removeWatch]
    split <;> rfl
  · rfl

theorem rilEventAdd_phase (s : RilEventLoop.State) (ev : ℕ) : (rilEventAdd s ev).phase = s.phase := by
  simp only [rilEventAdd]
  split
  · rfl
  · split <;> rfl

theorem rilTimerAdd_phase {s u : RilEventLoop.State} {ev : ℕ} {tv : TimeVal}
    (h : rilTimerAdd s ev (some tv) = some u) : u.phase = s.phase := by
  obtain ⟨list, -, hrest⟩ := Option.bind_eq_some_iff.mp h
  obtain ⟨place, -, hrest⟩ := Option.bind_eq_some_iff.mp hrest
  obtain ⟨links, -, heq⟩ := Option.bind_eq_some_iff.mp hrest
  cases heq
  rfl

/-- The loop comes into select by calcNextTimeout alone, and no other step that stays there takes a
timer away. -/
theorem selecting_step {s u : RilEventLoop.State} {e : RilEventLoop.Event}
    (hstep : RilEventLoop.step s e = some u) (hcalc : e ≠ .calcNextTimeout)
    (hadd : ∀ ev tv, e ≠ .rilTimerAdd ev tv) {tv : Option TimeVal} (hu : u.phase = .selecting tv) :
    s.phase = .selecting tv ∧ (op s e = .idle ∨ ∃ now, op s e = .advance now) := by
  cases e with
  | rilEventSet ev fd persist func param =>
    cases hstep
    exact ⟨hu, .inl rfl⟩
  | rilEventAdd ev =>
    cases hstep
    exact ⟨(rilEventAdd_phase s ev).symm.trans hu, .inl rfl⟩
  | rilTimerAdd ev tv => exact absurd rfl (hadd ev tv)
  | rilEventDel ev =>
    cases hstep
    exact ⟨(rilEventDel_phase s ev).symm.trans hu, .inl rfl⟩
  | clock now =>
    cases hstep
    exact ⟨hu, .inr ⟨now, rfl⟩⟩
  | calcNextTimeout => exact absurd rfl hcalc
  | interrupted =>
    cases hstep
    cases hu
  | processTimeouts =>
    obtain ⟨tev, -, hrest⟩ := Option.bind_eq_some_iff.mp hstep
    obtain ⟨links, -, heq⟩ := Option.bind_eq_some_iff.mp hrest
    cases heq
    cases hu
  | processReadReadies rfds n =>
    obtain ⟨v, -, hrest⟩ := Option.bind_eq_some_iff.mp hstep
    obtain ⟨node, -, heq⟩ := Option.bind_eq_some_iff.mp hrest
    cases heq
    cases hu
  | firePending ev =>
    obtain ⟨node, -, hrest⟩ := Option.bind_eq_some_iff.mp hstep
    obtain ⟨links, -, heq⟩ := Option.bind_eq_some_iff.mp hrest
    cases heq
    cases hu
  | callbackReturns =>
    simp only [RilEventLoop.step] at hstep
    split at hstep
    · cases hstep
      cases hu
    · cases hstep
  | endOfPass =>
    cases hstep
    cases hu

variable {s : State} {e : Event} {timers pending : List ℕ}

theorem next_step {inner : RilEventLoop.Event} (h : inner ≠ .calcNextTimeout) :
    next s (.step inner) = { s with loop := RilEventLoop.next s.loop inner } := by
  cases inner <;> first | rfl | exact absurd rfl h

/-- What calcNextTimeout gives to select is in time for the timers of the list. -/
theorem watchful_calc (h : Inv s timers pending) {timers' pending' : List ℕ}
    (hqueue : queue (RilEventLoop.next s.loop .calcNextTimeout) timers' pending' =
      queue s.loop timers pending) :
    Watchful (next s (.step .calcNextTimeout)) timers' pending' := by
  intro tv hselecting t ht
  have hsleeps := sleeps_to_earliest h.sound h.normal
  have hphase : (RilEventLoop.next s.loop .calcNextTimeout).phase = .selecting tv := hselecting
  have hwaiting : t ∈ (queue (RilEventLoop.next s.loop .calcNextTimeout) timers' pending').waiting :=
    ht
  rw [hqueue] at hwaiting
  obtain ⟨ev, hev, rfl⟩ := List.mem_map.mp hwaiting
  rw [Sleeps, hphase] at hsleeps
  cases tv with
  | none =>
    rw [show timers = [] from hsleeps] at hev
    cases hev
  | some tv => exact .inl ⟨tv, rfl, hsleeps.2.2 ev hev⟩

theorem watchful_step (h : Inv s timers pending) {inner : RilEventLoop.Event}
    (hadd : ∀ ev tv, inner ≠ .rilTimerAdd ev tv) (hfails : ¬Fails s.loop inner)
    {timers' pending' : List ℕ}
    (hqueue : queue (RilEventLoop.next s.loop inner) timers' pending' =
      (queue s.loop timers pending).next (op s.loop inner)) :
    Watchful (next s (.step inner)) timers' pending' := by
  by_cases hcalc : inner = .calcNextTimeout
  · subst hcalc
    exact watchful_calc h hqueue
  · obtain ⟨u, hstep⟩ := Option.ne_none_iff_exists'.mp hfails
    have hnext : RilEventLoop.next s.loop inner = u := by simp [RilEventLoop.next, hstep]
    rw [next_step hcalc]
    intro tv hselecting t ht
    rw [hnext] at hselecting
    obtain ⟨hbefore, hop⟩ := selecting_step hstep hcalc hadd hselecting
    refine h.watchful tv hbefore t ?_
    have hwaiting : t ∈ (queue (RilEventLoop.next s.loop inner) timers' pending').waiting := ht
    rw [hqueue] at hwaiting
    rcases hop with hop | ⟨now, hop⟩
    · rwa [hop] at hwaiting
    · rwa [hop] at hwaiting

theorem inv_inner (h : Inv s timers pending) {inner : RilEventLoop.Event}
    (hloop : (next s e).loop = RilEventLoop.next s.loop inner)
    (he : RilEventLoop.Enabled s.loop inner) (hu : RilEventLoop.WellUsed s.loop inner)
    (hwatchful : ∀ timers' pending', ¬Fails s.loop inner →
      queue (RilEventLoop.next s.loop inner) timers' pending' =
        (queue s.loop timers pending).next (op s.loop inner) →
      Watchful (next s e) timers' pending') :
    ∃ timers' pending', Inv (next s e) timers' pending' := by
  obtain ⟨timers', pending', hsound, hfails, hqueue, -⟩ := sound_next h.sound he hu
  refine ⟨timers', pending', ?_, ?_, hwatchful _ _ hfails hqueue⟩
  · rw [hloop]
    exact hsound
  · rw [hloop, hqueue]
    exact normal_next h.normal he

theorem watchful_of_calling (hcalling : ∃ after, (next s e).loop.phase = .calling after)
    (timers pending : List ℕ) : Watchful (next s e) timers pending := by
  intro tv hselecting
  obtain ⟨after, hcalling⟩ := hcalling
  rw [hcalling] at hselecting
  cases hselecting

theorem inv_step (h : Inv s timers pending) (he : Enabled s e) :
    ∃ timers' pending', Inv (next s e) timers' pending' := by
  cases e with
  | step inner =>
    obtain ⟨hen, hused⟩ := he.1 inner rfl
    have hadd : ∀ ev tv, inner ≠ .rilTimerAdd ev tv := by
      rintro ev tv rfl
      exact he.2
    have hloop : (next s (.step inner)).loop = RilEventLoop.next s.loop inner := by
      by_cases hcalc : inner = .calcNextTimeout
      · rw [hcalc]
        rfl
      · rw [next_step hcalc]
    exact inv_inner h hloop hen hused fun _ _ hfails => watchful_step h hadd hfails
  | request ev tv =>
    obtain ⟨hen, hused⟩ := he.1 _ rfl
    exact inv_inner h rfl hen hused fun _ _ _ _ _ _ _ _ => .inr (.inr (Nat.succ_pos _))
  | requestInLoop ev tv =>
    obtain ⟨hen, hused⟩ := he.1 _ rfl
    refine inv_inner h rfl hen hused fun timers' pending' hfails _ => ?_
    obtain ⟨u, hstep⟩ := Option.ne_none_iff_exists'.mp hfails
    have hnext : RilEventLoop.next s.loop (.rilTimerAdd ev (some tv)) = u := by
      simp [RilEventLoop.next, hstep]
    obtain ⟨after, hcalling⟩ := he.2
    refine watchful_of_calling (s := s) (e := .requestInLoop ev tv) ⟨after, ?_⟩ timers' pending'
    exact (congrArg _ hnext).trans ((rilTimerAdd_phase hstep).trans hcalling)
  | trigger =>
    exact ⟨timers, pending, h.sound, h.normal, fun _ _ _ _ => .inr (.inl (Nat.succ_pos _))⟩
  | processWakeupCallback =>
    have hcalling : ∃ after, (next s .processWakeupCallback).loop.phase = .calling after := he.2
    exact ⟨timers, pending, h.sound, h.normal, watchful_of_calling hcalling timers pending⟩

theorem inv_initial {clock : TimeVal} (hclock : clock.Normalised) :
    Inv (initial clock) [] [] :=
  ⟨sound_init clock, ⟨hclock, by rintro d ⟨⟩⟩, nofun⟩

/-- However the requests of other threads fall between the steps of the loop, a timer is not slept
past: while the loop is in select, for every timer of the list select returns by its deadline, or
there is a byte in the wakeup pipe, or a thread on its way to write one. -/
theorem timer_wakes_loop {clock : TimeVal} (hclock : clock.Normalised) {es : List Event}
    (legal : system.Legal (initial clock) es) {tv : Option TimeVal}
    (hselecting : (system.run (initial clock) es).loop.phase = .selecting tv) :
    ∃ timers : List ℕ,
      Ring (system.run (initial clock) es).loop.links .timerList (timers.map Node.event) ∧
      ∀ ev ∈ timers, (system.run (initial clock) es).InTime tv
        ((system.run (initial clock) es).loop.event ev).timeout := by
  have hinv : ∃ timers pending, Inv (system.run (initial clock) es) timers pending :=
    invariant_legal (I := fun s => ∃ timers pending, Inv s timers pending) system
      (fun _ _ ⟨_, _, h⟩ he => inv_step h he) ⟨[], [], inv_initial hclock⟩ legal
  obtain ⟨timers, pending, h⟩ := hinv
  exact ⟨timers, h.sound.represents.timerRing, fun ev hev =>
    h.watchful tv hselecting _ (List.mem_map_of_mem hev)⟩

/-- Another thread asks for a timer of one second while the loop sleeps without a limit. -/
theorem timer_wakes_loop_asleep :
    let s := system.run (initial ⟨0, 0⟩) [.step .calcNextTimeout, .request 1 ⟨1, 0⟩, .trigger]
    ∃ timers : List ℕ, Ring s.loop.links .timerList (timers.map Node.event) ∧
      ∀ ev ∈ timers, s.InTime none (s.loop.event ev).timeout := by
  have legal : system.Legal (initial ⟨0, 0⟩) [.step .calcNextTimeout, .request 1 ⟨1, 0⟩, .trigger] := by
    refine ⟨⟨?_, trivial⟩, ⟨?_, trivial⟩, ⟨nofun, by decide⟩, trivial⟩
    · rintro inner ⟨⟩
      exact ⟨rfl, trivial⟩
    · rintro inner ⟨⟩
      exact ⟨by rintro t ⟨⟩; decide, by decide⟩
  exact timer_wakes_loop (by decide) legal rfl

end RilWakeups
