import VendorMediatek.RilEventFires

/-!
# Timers over whole runs

Every run of the loop is a run of the timer queue: the timer list stays sorted, no timer fires
early or twice, and what the loop sleeps ends at the earliest deadline.
-/

namespace RilEventLoop

open LabelledRuns CircularList TimerQueue

structure Sound (s : State) (timers pending : List ℕ) : Prop where
  represents : Represents s timers pending
  follows : Follows s pending
  good : Good (queue s timers pending)

theorem sound_init (clock : TimeVal) : Sound (rilEventInit clock) [] [] :=
  ⟨represents_init clock, rfl, good_empty clock⟩

variable {s : State} {timers pending : List ℕ} {e : Event}

theorem op_enabled (hf : Follows s pending) (he : Enabled s e) :
    (queue s timers pending).Enabled (op s e) := by
  cases e with
  | rilTimerAdd ev tv =>
    cases tv with
    | none => trivial
    | some tv => trivial
  | clock now => exact le_of_not_gt fun hlt => he.2 (timerLess_iff.mpr hlt)
  | processTimeouts =>
    have hempty := follows_pending_nil hf (.inr he)
    simp [Queue.Enabled, op, queue, hempty]
  | firePending ev =>
    simp only [op]
    split
    · trivial
    · trivial
  | rilEventSet | rilEventAdd | rilEventDel | calcNextTimeout | interrupted
    | processReadReadies | callbackReturns | endOfPass => trivial

theorem sound_next (h : Sound s timers pending) (he : Enabled s e) (hu : WellUsed s e) :
    ∃ timers' pending', Sound (next s e) timers' pending' ∧ ¬ Fails s e ∧
      queue (next s e) timers' pending' = (queue s timers pending).next (op s e) ∧
      Enters s (next s e) timers pending timers' pending' e := by
  obtain ⟨u, timers', pending', hstep, hrefines, henters⟩ :=
    refines_step h.represents h.follows h.good he hu
  have hnext : next s e = u := by simp [next, hstep]
  rw [hnext]
  refine ⟨timers', pending', ⟨hrefines.represents, hrefines.follows, ?_⟩, ?_, hrefines.queue_eq,
    henters⟩
  · rw [hrefines.queue_eq]
    exact good_next h.good (op_enabled h.follows he)
  · simp [Fails, hstep]

def ops : State → List Event → List (Op TimeVal)
  | _, [] => []
  | s, e :: es => op s e :: ops (next s e) es

theorem sound_run (h : Sound s timers pending) {es : List Event} (legal : loop.Legal s es)
    (used : loop.Along WellUsed s es) :
    ∃ timers' pending', Sound (loop.run s es) timers' pending' ∧
      queue (loop.run s es) timers' pending' =
        queueSystem.run (queue s timers pending) (ops s es) := by
  induction es generalizing s timers pending with
  | nil => exact ⟨timers, pending, h, rfl⟩
  | cons e es ih =>
    obtain ⟨timers₁, pending₁, hsound, -, hqueue, -⟩ := sound_next h legal.1 used.1
    obtain ⟨timers₂, pending₂, hsound₂, hqueue₂⟩ := ih hsound legal.2 used.2
    refine ⟨timers₂, pending₂, hsound₂, ?_⟩
    change queue (loop.run (next s e) es) timers₂ pending₂ = _
    rw [hqueue₂, hqueue]
    rfl

theorem never_fails (h : Sound s timers pending) {es : List Event} (legal : loop.Legal s es)
    (used : loop.Along WellUsed s es) : loop.Along (fun s e => ¬ Fails s e) s es := by
  induction es generalizing s timers pending with
  | nil => trivial
  | cons e es ih =>
    obtain ⟨timers₁, pending₁, hsound, hfails, -, -⟩ := sound_next h legal.1 used.1
    exact ⟨hfails, ih hsound legal.2 used.2⟩

/-! ## The time to sleep -/

/-- The clock and the deadlines are normalised. -/
def Normal (q : Queue TimeVal) : Prop := q.clock.Normalised ∧ ∀ d ∈ q.added, d.Normalised

theorem normal_next (h : Normal (queue s timers pending)) (he : Enabled s e) :
    Normal ((queue s timers pending).next (op s e)) := by
  cases e with
  | rilTimerAdd ev tv =>
    cases tv with
    | none => exact h
    | some tv =>
      refine ⟨h.1, ?_⟩
      intro d hd
      rcases List.mem_append.mp hd with hd | hd
      · exact h.2 d hd
      · rw [List.mem_singleton.mp hd]
        exact normalised_timerAdd h.1 (he tv rfl).1
  | clock now => exact ⟨he.1, h.2⟩
  | firePending ev =>
    simp only [op]
    split
    · exact h
    · simp only [Queue.next]
      split
      · exact h
      · exact h
  | processTimeouts | rilEventSet | rilEventAdd | rilEventDel | calcNextTimeout | interrupted
    | processReadReadies | callbackReturns | endOfPass => exact h

/-- What calcNextTimeout gives to select for the timers of the list. -/
def Sleeps (s u : State) (timers : List ℕ) : Prop :=
  match u.phase with
  | .selecting none => timers = []
  | .selecting (some tv) => timers ≠ [] ∧ 0 ≤ tv.micros ∧
      ∀ ev ∈ timers, s.clock.micros + tv.micros ≤ max s.clock.micros (s.event ev).timeout.micros
  | _ => False

theorem timeout_normalised (h : Sound s timers pending) (hn : Normal (queue s timers pending))
    {ev : ℕ} (hev : ev ∈ timers) : (s.event ev).timeout.Normalised := by
  apply hn.2
  have hmem : s.timerAt ev ∈ (queue s timers pending).timers :=
    List.mem_append_left _ (List.mem_append_left _ (List.mem_map_of_mem hev))
  exact List.mem_of_getElem? (h.good.deadline _ hmem)

theorem sleeps_to_earliest (h : Sound s timers pending) (hn : Normal (queue s timers pending)) :
    Sleeps s (next s .calcNextTimeout) timers := by
  have hhead := h.represents.timerRing.next_head
  cases htimers : timers with
  | nil =>
    rw [htimers] at hhead
    have hstep : next s .calcNextTimeout = { s with phase := .selecting none } := by
      simp only [next, step, calcNextTimeout, hhead, Option.bind_eq_bind, Option.bind_some]
      rfl
    rw [hstep]
    rfl
  | cons first rest =>
    have hmem : first ∈ timers := by simp [htimers]
    have hearliest : ∀ ev ∈ timers, (s.event first).timeout ≤ (s.event ev).timeout := by
      intro ev hev
      have hwaiting : (queue s timers pending).waiting = s.timerAt first :: rest.map s.timerAt := by
        simp [queue, htimers]
      have hin : s.timerAt ev ∈ (queue s timers pending).waiting := List.mem_map_of_mem hev
      exact head_earliest h.good hwaiting hin
    rw [htimers] at hhead
    have hcalc : calcNextTimeout s = some (if timerLess s.clock (s.event first).timeout then
        some (timerSub (s.event first).timeout s.clock) else some ⟨0, 0⟩) := by
      simp only [calcNextTimeout, hhead, Option.bind_eq_bind, Option.bind_some, List.map_cons,
        List.headD_cons, reduceCtorEq, if_false, State.timeout]
      exact (apply_ite some _ _ _).symm
    rw [← htimers]
    by_cases hless : timerLess s.clock (s.event first).timeout
    · have hstep : next s .calcNextTimeout = { s with
          phase := .selecting (some (timerSub (s.event first).timeout s.clock)) } := by
        simp only [next, step, hcalc, if_pos hless, Option.map_some, Option.getD_some]
      have hclock : s.clock.Normalised := hn.1
      have hle := micros_le hclock (timeout_normalised h hn hmem) (timerLess_iff.mp hless).le
      rw [hstep]
      refine ⟨by simp [htimers], ?_, ?_⟩
      · rw [micros_timerSub]
        omega
      · intro ev hev
        have hev' := micros_le (timeout_normalised h hn hmem) (timeout_normalised h hn hev)
          (hearliest ev hev)
        rw [micros_timerSub]
        omega
    · have hstep : next s .calcNextTimeout = { s with phase := .selecting (some ⟨0, 0⟩) } := by
        simp only [next, step, hcalc, if_neg hless, Option.map_some, Option.getD_some]
      rw [hstep]
      refine ⟨by simp [htimers], le_rfl, ?_⟩
      intro ev _
      simp only [TimeVal.micros]
      omega

/-- Which steps of a run are calls of calcNextTimeout, and what each of them gives. -/
def SleepsAt (s : State) (e : Event) : Prop :=
  e = .calcNextTimeout → ∃ timers : List ℕ,
    Ring s.links .timerList (timers.map Node.event) ∧ Sleeps s (next s e) timers

theorem sleeps_along (h : Sound s timers pending) (hn : Normal (queue s timers pending))
    {es : List Event} (legal : loop.Legal s es) (used : loop.Along WellUsed s es) :
    loop.Along SleepsAt s es := by
  induction es generalizing s timers pending with
  | nil => trivial
  | cons e es ih =>
    obtain ⟨timers₁, pending₁, hsound, -, hqueue, -⟩ := sound_next h legal.1 used.1
    have hnormal := normal_next hn legal.1
    rw [← hqueue] at hnormal
    refine ⟨?_, ih hsound hnormal legal.2 used.2⟩
    rintro rfl
    exact ⟨timers, h.represents.timerRing, sleeps_to_earliest h hn⟩

/-! ## Callbacks of timers -/

/-- The numbers of the timers whose callbacks have been called. -/
def State.firedNumbers (s : State) : List ℕ :=
  s.called.filterMap fun c => c.timer.map Timer.number

theorem firedNumbers_eq (s : State) (timers pending : List ℕ) :
    s.firedNumbers = ((queue s timers pending).fired.map Fired.timer).map Timer.number := by
  simp only [State.firedNumbers, queue, List.map_filterMap]
  congr 1
  funext c
  cases hc : c.timer with
  | none => simp [Call.fired, hc]
  | some t => simp [Call.fired, hc]

theorem fired_of_called (s : State) (timers pending : List ℕ) {c : Call} (hc : c ∈ s.called)
    {t : Timer TimeVal} (ht : c.timer = some t) :
    ⟨t, c.time, c.pass⟩ ∈ (queue s timers pending).fired :=
  List.mem_filterMap.mpr ⟨c, hc, by simp [Call.fired, ht]⟩

/-- Of two calls of one pass the first has the earlier deadline. -/
def CalledInOrder (c d : Call) : Prop :=
  c.pass = d.pass → ∀ t ∈ c.timer, ∀ u ∈ d.timer, Before t u

theorem called_in_order (h : Good (queue s timers pending)) :
    s.called.Pairwise CalledInOrder := by
  have horder := h.order
  rw [Queue.sequence, List.pairwise_append] at horder
  have hfired : ((s.called.filterMap Call.fired).map fun f => (f.timer, f.pass)).Pairwise
      InOrder := horder.1
  rw [List.pairwise_map, List.pairwise_filterMap] at hfired
  apply hfired.imp
  intro c d hcd hpass t ht u hu
  have hc : c.fired = some ⟨t, c.time, c.pass⟩ := by simp [Call.fired, Option.mem_def.mp ht]
  have hd : d.fired = some ⟨u, d.time, d.pass⟩ := by simp [Call.fired, Option.mem_def.mp hu]
  exact hcd _ hc _ hd hpass

/-- A timer whose deadline is past is called in the pass that comes. -/
theorem called_once (h : Sound s timers pending) {mid : List Event} {k : ℕ} {d : TimeVal}
    (hk : s.deadlines[k]? = some d) (hpast : d < s.clock)
    (legal : loop.Legal s (.processTimeouts :: mid))
    (used : loop.Along WellUsed s (.processTimeouts :: mid))
    (htop : (loop.run s (.processTimeouts :: mid)).phase = .top) :
    (loop.run s (.processTimeouts :: mid)).firedNumbers.count k = 1 := by
  have hempty := follows_pending_nil h.follows (.inr legal.1)
  have hlt : k < (queue s timers pending).added.length := (List.getElem?_eq_some_iff.mp hk).1
  obtain ⟨t, ht, hnumber⟩ := List.mem_map.mp
    (h.good.accounted.symm.subset (List.mem_range.mpr hlt))
  have hdeadline : t.deadline = d := by
    have hat := h.good.deadline t ht
    rw [hnumber] at hat
    exact Option.some.inj (hat.symm.trans hk)
  have hreleased : ((queue s timers pending).next .expire).Released t := by
    simp only [Queue.timers, List.mem_append] at ht
    rcases ht with (ht | ht) | ht
    · exact released_expire h.good ht (hdeadline ▸ hpast)
    · simp [queue, hempty] at ht
    · exact released_next (List.mem_append_right _ ht) .expire
  obtain ⟨timers₁, pending₁, hsound, hqueue⟩ := sound_run h legal used
  have hend := released_run hreleased (ops (next s .processTimeouts) mid)
  have hnone := follows_pending_nil hsound.follows (.inl htop)
  have hmem : t ∈ (queue (loop.run s (.processTimeouts :: mid)) timers₁ pending₁).fired.map
      Fired.timer := by
    apply mem_fired
    · rw [hqueue]
      exact hend
    · simp [queue, hnone]
  rw [firedNumbers_eq _ timers₁ pending₁, ← hnumber]
  exact List.count_eq_one_of_mem (fired_nodup hsound.good) (List.mem_map_of_mem hmem)

/-- What holds of the timers in a state of a run. -/
structure TimersInOrder (s : State) : Prop where
  sorted : ∃ timers : List ℕ, Ring s.links .timerList (timers.map Node.event) ∧
    timers.Pairwise fun a b => Before (s.timerAt a) (s.timerAt b)
  once : s.firedNumbers.Nodup
  deadline : ∀ c ∈ s.called, ∀ t ∈ c.timer, s.deadlines[t.number]? = some t.deadline ∧
    t.deadline < c.time
  order : s.called.Pairwise CalledInOrder

theorem timersInOrder (h : Sound s timers pending) : TimersInOrder s := by
  refine ⟨⟨timers, h.represents.timerRing, ?_⟩, ?_, ?_, called_in_order h.good⟩
  · have hsorted : (timers.map s.timerAt).Pairwise Before := h.good.sorted
    rwa [List.pairwise_map] at hsorted
  · rw [firedNumbers_eq s timers pending]
    exact fired_nodup h.good
  · intro c hc t ht
    have hmem := fired_of_called s timers pending hc ht
    refine ⟨h.good.deadline t ?_, h.good.fired _ hmem⟩
    exact List.mem_append_right _ (List.mem_map_of_mem (f := Fired.timer) hmem)

/-- The timer list is a ring sorted by deadline, with the timer added later first where deadlines
are equal; every timer is called at most once, after its deadline and in the order of deadlines
within a pass, and once in the pass that finds its deadline past; select never sleeps past the
earliest deadline. -/
theorem timers_fire_in_order (clock : TimeVal) (hclock : clock.Normalised) (es : List Event)
    (legal : loop.Legal (rilEventInit clock) es)
    (used : loop.Along WellUsed (rilEventInit clock) es) :
    TimersInOrder (loop.run (rilEventInit clock) es) ∧
    loop.Along (fun s e => ¬ Fails s e) (rilEventInit clock) es ∧
    loop.Along SleepsAt (rilEventInit clock) es ∧
    ∀ pre mid, es = pre ++ .processTimeouts :: mid →
      (loop.run (rilEventInit clock) es).phase = .top →
      ∀ k d, (loop.run (rilEventInit clock) pre).deadlines[k]? = some d →
        d < (loop.run (rilEventInit clock) pre).clock →
        (loop.run (rilEventInit clock) es).firedNumbers.count k = 1 := by
  obtain ⟨timers, pending, hsound, -⟩ := sound_run (sound_init clock) legal used
  refine ⟨timersInOrder hsound, never_fails (sound_init clock) legal used, ?_, ?_⟩
  · exact sleeps_along (sound_init clock) ⟨hclock, by rintro d ⟨⟩⟩ legal used
  · rintro pre mid rfl htop k d hk hpast
    have hlegal := (along_append loop Enabled (rilEventInit clock) pre _).mp legal
    have hused := (along_append loop WellUsed (rilEventInit clock) pre _).mp used
    obtain ⟨timers₁, pending₁, hsound₁, -⟩ := sound_run (sound_init clock) hlegal.1 hused.1
    have hrun : loop.run (rilEventInit clock) (pre ++ .processTimeouts :: mid) =
        loop.run (loop.run (rilEventInit clock) pre) (.processTimeouts :: mid) :=
      List.foldl_append
    rw [hrun] at htop ⊢
    exact called_once hsound₁ hk hpast hlegal.2 hused.2 htop

/-- One timer of a second, and the pass after two. -/
def oneTimer : List Event :=
  [.rilTimerAdd 1 (some ⟨1, 0⟩), .calcNextTimeout, .clock ⟨2, 0⟩, .processTimeouts,
    .processReadReadies (fun _ => false) 0, .firePending 1, .callbackReturns, .endOfPass]

theorem timers_fire_in_order_one :
    TimersInOrder (loop.run (rilEventInit ⟨0, 0⟩) oneTimer) ∧
      (loop.run (rilEventInit ⟨0, 0⟩) oneTimer).firedNumbers.count 0 = 1 := by
  have hlegal : loop.Legal (rilEventInit ⟨0, 0⟩) oneTimer :=
    ⟨by rintro t ⟨⟩; decide, rfl, ⟨by decide, by decide⟩, ⟨_, rfl⟩, rfl, rfl, ⟨_, rfl⟩, rfl, trivial⟩
  have hused : loop.Along WellUsed (rilEventInit ⟨0, 0⟩) oneTimer := by decide
  have hrun := timers_fire_in_order ⟨0, 0⟩ (by decide) oneTimer hlegal hused
  exact ⟨hrun.1, hrun.2.2.2 [.rilTimerAdd 1 (some ⟨1, 0⟩), .calcNextTimeout, .clock ⟨2, 0⟩]
    [.processReadReadies (fun _ => false) 0, .firePending 1, .callbackReturns, .endOfPass] rfl rfl
    0 ⟨1, 0⟩ rfl (timerLess_iff.mp (by decide))⟩

/-- The order in which the timer added first comes first where deadlines are equal. -/
def AddedBefore (t u : Timer TimeVal) : Prop :=
  timerLess t.deadline u.deadline ∨ t.deadline = u.deadline ∧ t.number < u.number

instance (t u : Timer TimeVal) : Decidable (AddedBefore t u) :=
  inferInstanceAs (Decidable (_ ∨ _ ∧ _))

/-- Of two timers with one deadline the second stands before the first. -/
theorem equal_deadlines_are_reversed :
    ¬ ∀ clock es, loop.Legal (rilEventInit clock) es →
      loop.Along WellUsed (rilEventInit clock) es →
      ∃ timers : List ℕ,
        Ring (loop.run (rilEventInit clock) es).links .timerList (timers.map Node.event) ∧
        timers.Pairwise fun a b =>
          AddedBefore ((loop.run (rilEventInit clock) es).timerAt a)
            ((loop.run (rilEventInit clock) es).timerAt b) := by
  intro h
  obtain ⟨timers, hring, hsorted⟩ := h ⟨0, 0⟩
    [.rilTimerAdd 1 (some ⟨1, 0⟩), .rilTimerAdd 2 (some ⟨1, 0⟩)]
    ⟨by rintro t ⟨⟩; decide, by rintro t ⟨⟩; decide, trivial⟩
    (by decide)
  have hhead := hring.next_head
  cases timers with
  | nil => exact absurd hhead (by decide)
  | cons a timers =>
    obtain rfl : a = 2 := by
      have ha := Option.some.inj hhead
      exact Node.event.inj ha.symm
    have hnext := hring.next_first
    cases timers with
    | nil => exact absurd hnext (by decide)
    | cons b timers =>
      obtain rfl : b = 1 := by
        have hb := Option.some.inj hnext
        exact Node.event.inj hb.symm
      exact absurd (List.rel_of_pairwise_cons hsorted List.mem_cons_self) (by decide)

end RilEventLoop
