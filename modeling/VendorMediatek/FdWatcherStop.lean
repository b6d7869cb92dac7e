import Mathlib.Algebra.Group.Nat.Defs
import VendorMediatek.FdWatcher
import VendorMediatek.RankedRuns

/-!
# Joining the watching thread

How many steps the thread has left once a stop has written its byte, and that it can take them.
-/

namespace FdWatcher

open LabelledRuns

/-- The steps of the thread, but for a ConfigureTimeout that a callback makes. -/
def Event.ofLoop : Event → Bool
  | .runs | .selects _ | .callback .returns => true
  | _ => false

/-- How many steps the thread has left when it is to be joined. -/
def Stage.rank (watched : ℕ) : Stage → ℕ
  | .looping => 4
  | .filled _ | .timedOut => 3
  | .selecting _ _ | .inTimeout _ _ => 2
  | .top => 1
  | .ready _ => 2 * watched + 3
  | .calling _ rest => 2 * rest.length + 2
  | .inRead _ _ rest => 2 * rest.length + 3
  | .finished => 0

def State.rank (s : State) : ℕ :=
  match s.thread with
  | some stage => stage.rank s.watched_fds_.length
  | none => 0

theorem rank_of_thread {s : State} {stage : Stage} (h : s.thread = some stage) :
    s.rank = stage.rank s.watched_fds_.length := by
  simp [State.rank, h]

theorem rank_runStep {s t : State} {stage : Stage} (hr : s.running_ = false)
    (h : runStep s stage = some t) : t.rank < stage.rank s.watched_fds_.length := by
  cases stage with
  | top =>
    cases h
    rw [if_neg (by rw [hr]; nofun)]
    exact Nat.one_pos
  | looping =>
    cases h
    exact Nat.lt_succ_self 3
  | filled fds =>
    cases h
    exact Nat.lt_succ_self 2
  | timedOut =>
    cases h
    simp only [State.rank, State.enter, State.timeoutStage]
    split
    · exact Nat.lt_succ_self 2
    · exact Nat.succ_lt_succ (Nat.succ_pos 1)
  | ready found =>
    cases h
    have hle : (s.callsFor found).length ≤ s.watched_fds_.length := List.length_filter_le _ _
    simp only [State.rank, State.enter, Stage.rank]
    omega
  | calling found rest =>
    cases rest with
    | nil =>
      cases h
      exact Nat.one_lt_two
    | cons p rest =>
      cases h
      simp only [State.rank, State.enter, Stage.rank, List.length_cons]
      omega
  | _ => cases h

theorem rank_selectStep {s t : State} {read_fds : List Fd} {timeout : Option ℤ}
    {result : SelectResult} (hp : 0 < s.pipe) (h : selectStep s read_fds timeout result = some t) :
    t.rank = 1 := by
  cases result with
  | fails =>
    cases h
    rfl
  | timesOut =>
    obtain ⟨⟨-, hzero⟩, -⟩ := Option.ite_some_none_eq_some.mp h
    exact absurd hp (by rw [hzero]; exact Nat.lt_irrefl 0)
  | notified =>
    obtain ⟨-, h⟩ := Option.ite_some_none_eq_some.mp h
    subst h
    rfl
  | ready found =>
    obtain ⟨⟨hzero, -⟩, -⟩ := Option.ite_some_none_eq_some.mp h
    exact absurd hp (by rw [hzero]; exact Nat.lt_irrefl 0)

theorem rank_callbackStep {s t : State} {stage : Bool → Stage} {after : Stage} {owes : Bool}
    {step : CallbackStep} (h : callbackStep s stage after owes step = some t)
    (hsame : ∀ n o o', (stage o).rank n = (stage o').rank n)
    (hafter : ∀ n, after.rank n < (stage false).rank n) :
    t.rank + (if step = .returns then 1 else 0) ≤ (stage owes).rank s.watched_fds_.length := by
  cases owes with
  | false =>
    cases step with
    | configures timeout callback =>
      cases h
      exact le_of_eq (hsame _ true false)
    | notifies => cases h
    | returns =>
      cases h
      exact hafter _
  | true =>
    cases step with
    | configures timeout callback => cases h
    | notifies =>
      cases h
      exact le_of_eq (hsame _ false true)
    | returns => cases h

theorem rank_threadStep {s t : State} {stage : Stage} {e : Event} (hr : s.running_ = false)
    (hp : stage.waits = true → 0 < s.pipe) (h : threadStep s stage e = some t) :
    t.rank + (if e.ofLoop = true then 1 else 0) ≤ stage.rank s.watched_fds_.length := by
  cases e with
  | runs => exact rank_runStep hr h
  | selects result =>
    cases stage with
    | selecting fds timeout => exact le_of_eq (congrArg (· + 1) (rank_selectStep (hp rfl) h))
    | _ => cases h
  | callback step =>
    have hloop : (Event.callback step).ofLoop = decide (step = .returns) := by
      cases step <;> rfl
    rw [hloop]
    simp only [decide_eq_true_eq]
    cases stage with
    | inTimeout callback owes =>
      have hstep : callbackStep s (.inTimeout callback) .top owes step = some t := h
      exact rank_callbackStep hstep (fun _ _ _ => rfl) fun _ => Nat.one_lt_two
    | inRead owes fds rest =>
      have hstep : callbackStep s (fun owes => .inRead owes fds rest) (.calling fds rest) owes step =
        some t := h
      exact rank_callbackStep hstep (fun _ _ _ => rfl) fun _ => Nat.lt_succ_self _
    | _ => cases h
  | _ => cases h

/-- A stop waits for the thread it has notified. -/
structure Joining (s : State) : Prop where
  invariant : Invariant s
  stopping : s.stopping = some .joining
  thread : s.thread ≠ none

theorem joining_step {s : State} {e : Event} (h : Joining s) (he : Enabled s e) (hj : e ≠ .join) :
    Joining (next s e) ∧ (next s e).rank + (if e.ofLoop = true then 1 else 0) ≤ s.rank := by
  have hinv := invariant_step s e h.invariant he
  have hr := h.invariant.stopped (by rw [h.stopping]; nofun)
  by_cases hthread : e.ofThread = true
  · obtain ⟨stage, hs, hstep⟩ := next_of_thread hthread he
    obtain ⟨stage', hm, -⟩ := threadStep_moves h.invariant.not_joining hstep
    have hrank := rank_threadStep hr ((h.invariant.placed stage hs).woken h.stopping) hstep
    exact ⟨⟨hinv, hm.stopping.trans h.stopping, by rw [hm.thread]; nofun⟩,
      by rwa [rank_of_thread hs]⟩
  · cases e with
    | watch fd callback started => exact absurd he.1 (by rw [h.stopping]; nofun)
    | configure timeout callback => exact ⟨⟨hinv, h.stopping, h.thread⟩, le_rfl⟩
    | notify => exact ⟨⟨hinv, h.stopping, h.thread⟩, le_rfl⟩
    | stop => exact absurd he (by simp [Enabled, h.stopping])
    | stopNotify => exact absurd he (by simp [Enabled, h.stopping])
    | join => exact absurd rfl hj
    | clearFds => exact absurd he (by simp [Enabled, h.stopping])
    | clearTimeout => exact absurd he (by simp [Enabled, h.stopping])
    | runs => exact absurd rfl hthread
    | selects result => exact absurd rfl hthread
    | callback step => exact absurd rfl hthread

theorem joining_run {s : State} {es : List Event} (h : Joining s) (legal : system.Legal s es)
    (hj : .join ∉ es) :
    Joining (system.run s es) ∧ es.countP Event.ofLoop + (system.run s es).rank ≤ s.rank := by
  have guarded : system.Along (fun _ e => e ≠ .join) s es :=
    (along_events system _ s es).mpr fun e he => ne_of_mem_of_not_mem he hj
  exact ⟨LabelledRuns.invariant_run system (fun _ _ h he hj => (joining_step h he hj).1) h legal guarded,
    countP_add_rank_le_rank system (fun _ _ h he hj => (joining_step h he hj).1)
      (fun _ _ h he hj => (joining_step h he hj).2) h legal guarded⟩

theorem rank_le {s : State} (h : Invariant s) : s.rank ≤ 2 * s.watched_fds_.length + 4 := by
  cases hs : s.thread with
  | none => simp [State.rank, hs]
  | some stage =>
    have hround : ∀ fds rest, stage.round = some (fds, rest) →
        rest.length ≤ s.watched_fds_.length := fun fds rest hr =>
      ((h.placed stage hs).calls fds rest hr).length_le.trans (List.length_filter_le _ _)
    rw [rank_of_thread hs]
    cases stage with
    | calling fds rest =>
      have hle := hround fds rest rfl
      simp only [Stage.rank]
      omega
    | inRead owes fds rest =>
      have hle := hround fds rest rfl
      simp only [Stage.rank]
      omega
    | _ => simp only [Stage.rank]; omega

/-- The steps by which the thread goes on when it is to be joined. -/
def joinSteps : List Event :=
  [.runs, .selects .notified, .callback .returns, .callback .notifies]

theorem joining_goes_on {s : State} (h : Joining s) :
    s.thread = some .finished ∨ ∃ e ∈ joinSteps, Enabled s e := by
  obtain ⟨stage, hs⟩ := Option.ne_none_iff_exists'.mp h.thread
  have hat := h.invariant.placed stage hs
  have enabled : ∀ {e}, e.ofThread = true → (threadStep s stage e).isSome → Enabled s e := by
    intro e he hstep
    cases e <;> first | exact ⟨stage, hs, hstep⟩ | cases he
  cases stage with
  | finished => exact .inl hs
  | selecting fds timeout =>
    have hp := hat.woken h.stopping rfl
    exact .inr ⟨.selects .notified, by decide, enabled rfl (by simp [threadStep, selectStep, hp])⟩
  | inTimeout callback owes =>
    cases owes with
    | false => exact .inr ⟨.callback .returns, by decide, enabled rfl rfl⟩
    | true => exact .inr ⟨.callback .notifies, by decide, enabled rfl rfl⟩
  | inRead owes fds rest =>
    cases owes with
    | false => exact .inr ⟨.callback .returns, by decide, enabled rfl rfl⟩
    | true => exact .inr ⟨.callback .notifies, by decide, enabled rfl rfl⟩
  | calling fds rest =>
    cases rest <;> exact .inr ⟨.runs, by decide, enabled rfl rfl⟩
  | _ => exact .inr ⟨.runs, by decide, enabled rfl rfl⟩

/-- A stop that has found a thread and written its byte is joined: whatever other threads do, the
thread takes at most two steps for a watched descriptor and four more, and until it has finished it
can take one. -/
theorem stop_joins {timeout_ms_ : ℤ} {es more : List Event} {s : State}
    (legal : system.Legal (initial timeout_ms_) es)
    (hs : system.run (initial timeout_ms_) es = s) (hstop : s.stopping = some .joining)
    (hthread : s.thread ≠ none) (legalMore : system.Legal s more) (hj : .join ∉ more) :
    more.countP Event.ofLoop ≤ 2 * s.watched_fds_.length + 4 ∧
      ((system.run s more).thread = some .finished ∨
        ∃ e ∈ joinSteps, Enabled (system.run s more) e) := by
  have hinv : Invariant s := hs ▸ invariant_run legal
  obtain ⟨hend, hrank⟩ := joining_run ⟨hinv, hstop, hthread⟩ legalMore hj
  refine ⟨?_, joining_goes_on hend⟩
  have hle := rank_le hinv
  omega

theorem stop_joins_late :
    let s : State := ⟨false, [(3, 1)], 200, some 9, 1, some (.ready [3]), 0, some .joining⟩
    let more : List Event := [.runs, .configure 100 9, .runs, .callback .returns, .runs]
    more.countP Event.ofLoop ≤ 2 * 1 + 4 ∧
      ((system.run s more).thread = some .finished ∨
        ∃ e ∈ joinSteps, Enabled (system.run s more) e) := by
  have legal : system.Legal (initial 200) [.configure 200 9, .watch 3 1 true, .notify, .runs, .runs,
    .runs, .selects .notified, .runs, .runs, .runs, .selects (.ready [3]), .stop, .stopNotify] := by
    decide
  exact stop_joins legal rfl rfl nofun (by decide) (by decide)

end FdWatcher
