import VendorMediatek.AudioStreamAnswers

/-!
# The end of an audio stream

The destructor closes the stream and joins its thread. It comes to an end unless the thread has been
started after a close.
-/

namespace AudioStreams

open LabelledRuns AudioCommandThreads

variable {Command Turn Status : Type}

/-- A stream that has been closed is prepared. -/
def PreparesClosed (s : State Command Status) : Event Command Turn Status → Prop
  | .prepare frameSize framesCount launch =>
    s.mIsClosed = true ∧ (prepareForWriting s frameSize framesCount launch).1 = .OK
  | _ => False

/-- A closed stream has told its thread to stop. -/
def Stoppable (s : State Command Status) : Prop :=
  s.mIsClosed = true → s.mDataMQ.isSome = true → s.mStop = true

theorem stoppable_of_same {s t : State Command Status} (h : SameControl s t) :
    Stoppable t ↔ Stoppable s := by
  simp only [Stoppable, h.mIsClosed, h.mStop, h.mDataMQ]

theorem stoppable_close {s : State Command Status} (h : Stoppable s) (destroys : Bool) :
    Stoppable (s.close destroys) := by
  rcases close_cases s destroys with ⟨hclosed | hnone, heq⟩ | ⟨-, -, heq⟩
  · rw [heq]
    exact fun _ hsome => h hclosed hsome
  · rw [heq]
    intro _ hsome
    rw [show s.mDataMQ = none from hnone] at hsome
    cases hsome
  · rw [heq]
    exact fun _ _ => rfl

theorem stoppable_step {S : Stream Command Turn Status} {s : State Command Status}
    {e : Event Command Turn Status} (h : Held s) (hs : Stoppable s) :
    Stoppable (next S s e) ↔ ¬PreparesClosed s e := by
  cases e with
  | prepare frameSize framesCount launch =>
    rcases prepareForWriting_cases s frameSize framesCount launch with
      ⟨flags, hresult, heq, -⟩ | ⟨hnone, -, -, -, mStatus, heq⟩
    · refine iff_of_true ?_ fun hprepares => hresult hprepares.2
      simp only [next, heq]
      exact hs
    · have hstop : s.mStop ≠ true := fun hstop => by simpa [hnone] using (h.stop hstop).2
      simp only [next, PreparesClosed, heq, Stoppable]
      exact ⟨fun hnext hprepares => hstop (hnext hprepares.1 rfl), fun hopen hclosed _ =>
        absurd ⟨hclosed, trivial⟩ hopen⟩
  | close => exact iff_of_true (stoppable_close hs false) id
  | destroy => exact iff_of_true (stoppable_close hs true) id
  | _ => exact iff_of_true ((stoppable_of_same (sameControl_next S s rfl)).mpr hs) id

theorem not_stoppable_step {S : Stream Command Turn Status} {s : State Command Status}
    {e : Event Command Turn Status} (hs : ¬Stoppable s) : ¬Stoppable (next S s e) := by
  simp only [Stoppable, Classical.not_imp] at hs
  obtain ⟨hclosed, hsome, hstop⟩ := hs
  have hclose : ∀ destroys, ¬Stoppable (s.close destroys) := by
    intro destroys hnext
    rcases close_cases s destroys with ⟨-, heq⟩ | ⟨hopen, -, -⟩
    · rw [heq] at hnext
      exact hstop (hnext rfl hsome)
    · rw [hclosed] at hopen
      cases hopen
  cases e with
  | prepare frameSize framesCount launch =>
    have hnext : (prepareForWriting s frameSize framesCount launch).2 = s := by
      unfold prepareForWriting
      rw [if_pos hsome]
    simp only [next, hnext]
    exact fun hnext => hstop (hnext hclosed hsome)
  | close => exact hclose false
  | destroy => exact hclose true
  | _ =>
    rw [stoppable_of_same (sameControl_next S s rfl)]
    exact fun hnext => hstop (hnext hclosed hsome)

theorem call_loopNext (S : Stream Command Turn Status) (s : State Command Status)
    (stage : Stage Command) : (loopNext S s stage).call = s.call := by
  cases stage with
  | reading =>
    simp only [loopNext]
    split <;> rfl
  | answering =>
    simp only [loopNext]
    split <;> rfl
  | _ => rfl

theorem call_runs (S : Stream Command Turn Status) (s : State Command Status) :
    (next S s .runs).call = s.call := by
  cases hs : s.thread with
  | none => simp [next, hs]
  | some stage => simp [next, hs, call_loopNext]

/-- The destructor has been called. -/
def Destroying (s : State Command Status) : Prop :=
  s.call = some (.waking true) ∨ s.call = some .joining ∨ s.call = some .gone

theorem Destroying.call_ne {s : State Command Status} (h : Destroying s) : s.call ≠ none := by
  rcases h with h | h | h <;> simp [h]

theorem Destroying.not_calls {S : Stream Command Turn Status} {s : State Command Status}
    {e : Event Command Turn Status} (h : Destroying s) (he : Enabled S s e) : e.calls = false := by
  cases e with
  | prepare frameSize framesCount launch => exact absurd he h.call_ne
  | close => exact absurd he h.call_ne
  | destroy => exact absurd he h.call_ne
  | _ => rfl

theorem destroying_step {S : Stream Command Turn Status} {s : State Command Status}
    {e : Event Command Turn Status} (h : Destroying s) (he : Enabled S s e) :
    Destroying (next S s e) := by
  cases e with
  | prepare frameSize framesCount launch => exact absurd he h.call_ne
  | close => exact absurd he h.call_ne
  | destroy => exact absurd he h.call_ne
  | wake =>
    rcases h with h | h | h
    · exact .inr (.inl (if_pos h))
    · rcases he with he | he <;> cases h.symm.trans he
    · rcases he with he | he <;> cases h.symm.trans he
  | join => exact .inr (.inr rfl)
  | runs =>
    simp only [Destroying, call_runs]
    exact h
  | waits woken => cases woken <;> exact h
  | _ => exact h

/-- How far a stopped thread is from its end. -/
def Stage.left : Stage Command → ℕ
  | .finished => 0
  | .testing => 1
  | .waking => 2
  | .answering => 3
  | .serving _ => 4
  | .reading => 5
  | .waiting => 6

def Call.left : Call → ℕ
  | .waking _ => 2
  | .joining => 1
  | .gone => 0

def State.left (s : State Command Status) : ℕ :=
  s.thread.elim 0 Stage.left + s.call.elim 0 Call.left

/-- The steps that bring the end of the stream nearer. -/
def Event.ends : Event Command Turn Status → Bool
  | .runs | .waits _ | .serves _ | .wake | .join => true
  | _ => false

theorem left_loopNext {S : Stream Command Turn Status} {s : State Command Status}
    {stage : Stage Command} (hs : s.thread = some stage) (hruns : stage.Runs)
    (hstop : s.mStop = true) : (loopNext S s stage).left < s.left := by
  cases stage with
  | testing => simp [State.left, loopNext, hs, hstop, Stage.left]
  | reading =>
    simp only [loopNext]
    split <;> simp [State.left, hs, Stage.left]
  | answering =>
    simp only [loopNext]
    split <;> simp [State.left, hs, Stage.left]
  | waking => simp [State.left, loopNext, hs, Stage.left]
  | waiting => exact hruns.elim
  | serving command => exact hruns.elim
  | finished => exact hruns.elim

theorem left_step {S : Stream Command Turn Status} {s : State Command Status}
    {e : Event Command Turn Status} (h : Held s) (hstop : s.mDataMQ.isSome = true → s.mStop = true)
    (hdestroying : Destroying s) (he : Enabled S s e) :
    (e.ends = true → (next S s e).left < s.left) ∧
      (e.ends = false → (next S s e).left = s.left) := by
  have hstage : ∀ {stage}, s.thread = some stage → s.mStop = true := by
    intro stage hs
    refine hstop ?_
    rw [← h.thread, hs]
    rfl
  cases e with
  | prepare frameSize framesCount launch => exact absurd he hdestroying.call_ne
  | close => exact absurd he hdestroying.call_ne
  | destroy => exact absurd he hdestroying.call_ne
  | wake =>
    refine ⟨fun _ => ?_, fun hends => Bool.noConfusion hends⟩
    rcases he with he | he <;> simp [State.left, next, he, Call.left]
  | join =>
    refine ⟨fun _ => ?_, fun hends => Bool.noConfusion hends⟩
    simp [State.left, next, he.1, Call.left]
  | runs =>
    obtain ⟨stage, hs, hruns⟩ := he
    refine ⟨fun _ => ?_, fun hends => Bool.noConfusion hends⟩
    simp only [next, Option.mem_def.mp hs, Option.map_some, Option.getD_some]
    exact left_loopNext hs hruns (hstage hs)
  | waits woken =>
    refine ⟨fun _ => ?_, fun hends => Bool.noConfusion hends⟩
    cases woken <;> simp [State.left, next, he.1, Stage.left]
  | serves turn =>
    have hs : s.thread = some (.serving (S.command turn)) := he
    refine ⟨fun _ => ?_, fun hends => Bool.noConfusion hends⟩
    simp [State.left, next, hs, Stage.left]
  | send command => exact ⟨fun hends => Bool.noConfusion hends, fun _ => rfl⟩
  | sendWakes => exact ⟨fun hends => Bool.noConfusion hends, fun _ => rfl⟩
  | clientWaits => exact ⟨fun hends => Bool.noConfusion hends, fun _ => rfl⟩
  | receive => exact ⟨fun hends => Bool.noConfusion hends, fun _ => rfl⟩

/-- What holds of a stream that its destructor can bring to an end. -/
structure Ending (S : Stream Command Turn Status) (s : State Command Status) : Prop where
  held : Held s
  woken : Woken S s
  stop : s.mDataMQ.isSome = true → s.mStop = true
  destroying : Destroying s

theorem ending_step {S : Stream Command Turn Status} (s : State Command Status)
    (e : Event Command Turn Status) (h : Ending S s) (he : Enabled S s e) :
    Ending S (next S s e) := by
  have hsame := sameControl_next S s (h.destroying.not_calls he)
  refine ⟨held_step s e h.held he, woken_step s e h.woken he, ?_, destroying_step h.destroying he⟩
  rw [hsame.mDataMQ, hsame.mStop]
  exact h.stop

theorem ends_le {S : Stream Command Turn Status} {s : State Command Status}
    {es : List (Event Command Turn Status)} (h : Ending S s) (legal : (system S).Legal s es) :
    es.countP Event.ends + ((system S).run s es).left ≤ s.left := by
  refine countP_add_rank_le_rank (system S) (fun s e h he _ => ending_step s e h he) ?_ h legal legal
  intro s e h he _
  have hleft := left_step h.held h.stop h.destroying he
  cases hends : e.ends with
  | true =>
    rw [if_pos rfl]
    exact hleft.1 hends
  | false =>
    rw [if_neg nofun]
    exact le_of_eq (hleft.2 hends)

/-- As long as the destructor has not come back there is such a step, and it is not a wait that comes
back with nothing. -/
theorem ending_goes_on {S : Stream Command Turn Status} {s : State Command Status}
    (h : Ending S s) (hgone : s.call ≠ some .gone) :
    ∃ e, e.ends = true ∧ e.spurious = false ∧ Enabled S s e := by
  rcases h.destroying with hwaking | hjoining | hgone'
  · exact ⟨.wake, rfl, rfl, .inl hwaking⟩
  · cases hs : s.thread with
    | none => exact ⟨.join, rfl, rfl, hjoining, by simp [hs]⟩
    | some stage =>
      have hruns : stage.Runs → ∃ e, e.ends = true ∧ e.spurious = false ∧ Enabled S s e :=
        fun hr => ⟨.runs, rfl, rfl, stage, hs, hr⟩
      cases stage with
      | serving command =>
        obtain ⟨turn, rfl⟩ := S.served command
        exact ⟨.serves turn, rfl, rfl, hs⟩
      | finished => exact ⟨.join, rfl, rfl, hjoining, by simp [hs]⟩
      | waiting =>
        have hstop : s.mStop = true := h.stop (by rw [← h.held.thread, hs]; rfl)
        rcases h.woken.stop hstop hs with hbit | ⟨destroys, hwaking⟩
        · exact ⟨.waits true, rfl, rfl, hs, fun _ => hbit⟩
        · cases hjoining.symm.trans hwaking
      | _ => exact hruns trivial
  · exact absurd hgone' hgone

theorem ending_ends {S : Stream Command Turn Status} {s : State Command Status} (h : Ending S s) :
    ∃ es, (system S).Legal s es ∧ (∀ e ∈ es, e.spurious = false) ∧
      ((system S).run s es).call = some .gone := by
  have lowers : ∀ s e, Ending S s → Enabled S s e → (e.ends && !e.spurious) = true →
      (next S s e).left < s.left := fun s e h he htaken =>
    (left_step h.held h.stop h.destroying he).1 (Bool.and_eq_true _ _ ▸ htaken).1
  have goesOn : ∀ s, Ending S s → s.call = some .gone ∨
      ∃ e : Event Command Turn Status, (e.ends && !e.spurious) = true ∧ Enabled S s e := by
    intro s h
    by_cases hgone : s.call = some .gone
    · exact .inl hgone
    · obtain ⟨e, hends, hreal, he⟩ := ending_goes_on h hgone
      exact .inr ⟨e, by rw [hends, hreal]; rfl, he⟩
  obtain ⟨es, legal, hes, hgone⟩ := reaches_of_rank (system S) ending_step lowers goesOn h
  refine ⟨es, legal, fun e he => ?_, hgone⟩
  have htaken := hes e he
  rw [Bool.and_eq_true, Bool.not_eq_true'] at htaken
  exact htaken.2

theorem ending_destroy {S : Stream Command Turn Status} {s : State Command Status} (h : Held s)
    (hwoken : Woken S s) (hs : Stoppable s) (hcall : s.call = none) :
    Ending S (next S s .destroy) := by
  have hnext : Held (s.close true) := held_close h true
  have hclosed : (s.close true).mIsClosed = true ∧ Destroying (s.close true) := by
    rcases close_cases s true with ⟨-, heq⟩ | ⟨-, -, heq⟩
    · rw [heq]
      exact ⟨rfl, .inr (.inl rfl)⟩
    · rw [heq]
      exact ⟨rfl, .inl rfl⟩
  exact ⟨hnext, woken_close hwoken hcall true, stoppable_close hs true hclosed.1, hclosed.2⟩

/-- What holds in every run. -/
structure Reached (S : Stream Command Turn Status) (s : State Command Status) : Prop where
  held : Held s
  woken : Woken S s

theorem reached_step {S : Stream Command Turn Status} (s : State Command Status)
    (e : Event Command Turn Status) (h : Reached S s) (he : Enabled S s e) :
    Reached S (next S s e) := ⟨held_step s e h.held he, woken_step s e h.woken he⟩

theorem reached_constructed (S : Stream Command Turn Status) (mStatus : Status) :
    Reached S (constructed mStatus) := ⟨held_constructed mStatus, woken_constructed S mStatus⟩

/-- A run leads to a stream that can be stopped exactly when no closed stream is prepared in it. -/
theorem stoppable_run_iff {S : Stream Command Turn Status} {s : State Command Status}
    {es : List (Event Command Turn Status)} (h : Reached S s) (hs : Stoppable s)
    (legal : (system S).Legal s es) :
    Stoppable ((system S).run s es) ↔ (system S).Along (fun s e => ¬PreparesClosed s e) s es := by
  have hstays : ∀ {t : State Command Status} {ds : List (Event Command Turn Status)},
      ¬Stoppable t → ¬Stoppable ((system S).run t ds) := by
    intro t ds ht
    induction ds generalizing t with
    | nil => exact ht
    | cons d ds ih => exact ih (not_stoppable_step ht)
  induction es generalizing s with
  | nil => exact iff_of_true hs trivial
  | cons e es ih =>
    rw [run_cons, along_cons]
    have hstep := stoppable_step (S := S) (e := e) h.held hs
    by_cases hprepares : PreparesClosed s e
    · exact iff_of_false (hstays fun hnext => hstep.mp hnext hprepares) fun hall => hall.1 hprepares
    · have hrest : Stoppable ((system S).run ((system S).next s e) es) ↔
          (system S).Along (fun s e => ¬PreparesClosed s e) ((system S).next s e) es :=
        ih (reached_step s e h legal.1) (hstep.mpr hprepares) legal.2
      exact ⟨fun hnext => ⟨hprepares, hrest.mp hnext⟩, fun hall => hrest.mpr hall.2⟩

theorem not_gone_of_not_stoppable {S : Stream Command Turn Status} {s : State Command Status}
    {es : List (Event Command Turn Status)} (h : Reached S s) (hs : ¬Stoppable s)
    (hgone : s.call ≠ some .gone) (legal : (system S).Legal s es) :
    ((system S).run s es).call ≠ some .gone := by
  induction es generalizing s with
  | nil => exact hgone
  | cons e es ih =>
    refine ih (reached_step s e h legal.1) (not_stoppable_step hs) ?_ legal.2
    cases e with
    | join =>
      have hfinished := legal.1.2
      simp only [Stoppable, Classical.not_imp] at hs
      obtain ⟨-, hsome, hstop⟩ := hs
      rw [← h.held.thread] at hsome
      obtain ⟨stage, hstage⟩ := Option.isSome_iff_exists.mp hsome
      exact absurd (h.held.finished (hfinished stage hstage ▸ hstage)) hstop
    | prepare frameSize framesCount launch =>
      rcases prepareForWriting_cases s frameSize framesCount launch with
        ⟨flags, -, heq, -⟩ | ⟨-, -, -, -, mStatus, heq⟩
      · simpa only [system, next, heq] using hgone
      · simpa only [system, next, heq] using hgone
    | close =>
      rcases close_cases s false with ⟨-, heq⟩ | ⟨-, -, heq⟩
      · simp [system, next, heq, afterClose]
      · simp [system, next, heq]
    | destroy =>
      rcases close_cases s true with ⟨-, heq⟩ | ⟨-, -, heq⟩
      · simp [system, next, heq, afterClose]
      · simp [system, next, heq]
    | wake =>
      simp only [system, next]
      split <;> simp
    | runs => exact (call_runs S s).trans_ne hgone
    | waits woken => cases woken <;> exact hgone
    | _ => exact hgone

/-- The end of a stream: from wherever it is, its destructor can come back exactly when no
prepareForWriting has succeeded after a close. -/
theorem destructor_returns_iff {S : Stream Command Turn Status} {mStatus : Status}
    {es : List (Event Command Turn Status)} (legal : (system S).Legal (constructed mStatus) es)
    (hcall : ((system S).run (constructed mStatus) es).call = none) :
    (∃ fs, (system S).Legal ((system S).run (constructed mStatus) es) (.destroy :: fs) ∧
        ((system S).run ((system S).run (constructed mStatus) es) (.destroy :: fs)).call =
          some .gone) ↔
      (system S).Along (fun s e => ¬PreparesClosed s e) (constructed mStatus) es := by
  have h := invariant_legal (system S) reached_step (reached_constructed S mStatus) legal
  rw [← stoppable_run_iff (reached_constructed S mStatus) nofun legal]
  constructor
  · rintro ⟨fs, legal', hgone⟩
    by_contra hs
    exact not_gone_of_not_stoppable h hs (by simp [hcall]) legal' hgone
  · intro hs
    obtain ⟨fs, legal', -, hgone⟩ := ending_ends (ending_destroy h.held h.woken hs hcall)
    exact ⟨fs, ⟨hcall, legal'⟩, hgone⟩

/-- A stream that is prepared only after its close. -/
theorem destructor_returns_iff_closed_before :
    let es : List (Event WriteCommand WriteTurn WriteStatus) :=
      [.close, .prepare 4 256 (.started ⟨.OK, .WRITE, ⟨0, 0, 0⟩⟩)]
    let s := (system StreamOut).run (constructed ⟨.OK, .WRITE, ⟨0, 0, 0⟩⟩) es
    (∃ fs, (system StreamOut).Legal s (.destroy :: fs) ∧
        ((system StreamOut).run s (.destroy :: fs)).call = some .gone) ↔
      (system StreamOut).Along (fun s e => ¬PreparesClosed s e)
        (constructed ⟨.OK, .WRITE, ⟨0, 0, 0⟩⟩) es :=
  destructor_returns_iff (by decide) rfl

/-- And then it does come back: the thread, the wake and the join take at most eight steps, whatever
the client does meanwhile, and one of them can always be taken. -/
theorem destructor_bounded {S : Stream Command Turn Status} {mStatus : Status}
    {es fs : List (Event Command Turn Status)}
    (legal : (system S).Legal (constructed mStatus) (es ++ .destroy :: fs))
    (hprepares : (system S).Along (fun s e => ¬PreparesClosed s e) (constructed mStatus) es) :
    let t := (system S).run (constructed mStatus) (es ++ .destroy :: fs)
    fs.countP Event.ends ≤ 8 ∧
      (t.call = some .gone ∨ ∃ e, e.ends = true ∧ e.spurious = false ∧ Enabled S t e) := by
  obtain ⟨legal, hdestroy, legal'⟩ := (along_append (system S) _ _ es (.destroy :: fs)).mp legal
  have h := invariant_legal (system S) reached_step (reached_constructed S mStatus) legal
  have hs := (stoppable_run_iff (reached_constructed S mStatus) nofun legal).mpr hprepares
  have hending := ending_destroy h.held h.woken hs hdestroy
  have hrun : (system S).run (constructed mStatus) (es ++ .destroy :: fs) =
      (system S).run (next S ((system S).run (constructed mStatus) es) .destroy) fs :=
    List.foldl_append
  refine ⟨?_, ?_⟩
  · have hle := ends_le hending legal'
    have hleft : (next S ((system S).run (constructed mStatus) es) .destroy).left ≤ 8 := by
      have hstage : ∀ o : Option (Stage Command), o.elim 0 Stage.left ≤ 6 := by
        rintro (_ | _ | _) <;> simp [Stage.left]
      have hcall : ∀ o : Option Call, o.elim 0 Call.left ≤ 2 := by
        rintro (_ | _ | _) <;> simp [Call.left]
      exact Nat.add_le_add (hstage _) (hcall _)
    omega
  · rw [hrun]
    have hkeeps := invariant_legal (system S) ending_step hending legal'
    by_cases hgone : ((system S).run
        (next S ((system S).run (constructed mStatus) es) .destroy) fs).call = some .gone
    · exact .inl hgone
    · exact .inr (ending_goes_on hkeeps hgone)

/-- A stream is given up while its thread waits. -/
theorem destructor_bounded_waiting :
    let es : List (Event ReadCommand ReadTurn ReadStatus) :=
      [.prepare 4 256 (.started ⟨.OK, .READ, ⟨0, 0⟩⟩), .runs]
    let fs : List (Event ReadCommand ReadTurn ReadStatus) := [.wake, .waits true, .runs, .runs]
    let t := (system StreamIn).run (constructed ⟨.OK, .READ, ⟨0, 0⟩⟩) (es ++ .destroy :: fs)
    fs.countP Event.ends ≤ 8 ∧
      (t.call = some .gone ∨ ∃ e, e.ends = true ∧ e.spurious = false ∧ Enabled StreamIn t e) := by
  refine destructor_bounded (by decide) ⟨?_, id, trivial⟩
  exact fun hprepares => Bool.noConfusion hprepares.1

/-! ## What it leaves -/

/-- The event flag that is there: the stream's, until its destructor has come back. -/
def State.flag (s : State Command Status) : List Unit :=
  if s.mDataMQ.isSome = true ∧ s.call ≠ some .gone then [()] else []

/-- The event flags that have been made and not deleted are those that are there. -/
def Flagged (s : State Command Status) : Prop := Handles.Leaves s.flags s.flag

theorem flagged_of_same {s t : State Command Status} (h : Flagged s) (hflags : t.flags = s.flags)
    (hdata : t.mDataMQ = s.mDataMQ) (hcall : t.call = some .gone ↔ s.call = some .gone) :
    Flagged t := by
  have hflag : t.flag = s.flag := by simp only [State.flag, ne_eq, hdata, hcall]
  unfold Flagged
  rw [hflags, hflag]
  exact h

theorem flagged_prepare {s : State Command Status} (h : Flagged s) (hcall : s.call = none)
    (frameSize framesCount : UInt32) (launch : Launch Status) :
    Flagged (prepareForWriting s frameSize framesCount launch).2 := by
  rcases prepareForWriting_cases s frameSize framesCount launch with
    ⟨flags, -, heq, rfl | rfl⟩ | ⟨hnone, -, -, -, mStatus, heq⟩
  · rw [heq]
    exact flagged_of_same h (List.append_nil _) rfl Iff.rfl
  · rw [heq]
    exact Handles.Leaves.passed h ()
  · rw [heq]
    have hflag : s.flag = [] := by simp [State.flag, hnone]
    have hopened := Handles.Leaves.opened h [()]
    rw [hflag] at hopened
    simpa [Flagged, State.flag, hcall] using hopened

theorem flagged_close {s : State Command Status} (h : Flagged s) (hcall : s.call = none)
    (destroys : Bool) : Flagged (s.close destroys) := by
  rcases close_cases s destroys with ⟨-, heq⟩ | ⟨-, -, heq⟩
  · rw [heq]
    exact flagged_of_same h rfl rfl (by cases destroys <;> simp [hcall, afterClose])
  · rw [heq]
    exact flagged_of_same h rfl rfl (by simp [hcall])

theorem flags_loopNext (S : Stream Command Turn Status) (s : State Command Status)
    (stage : Stage Command) : (loopNext S s stage).flags = s.flags := by
  cases stage with
  | reading =>
    simp only [loopNext]
    split <;> rfl
  | answering =>
    simp only [loopNext]
    split <;> rfl
  | _ => rfl

theorem flagged_step {S : Stream Command Turn Status} (s : State Command Status)
    (e : Event Command Turn Status) (h : Flagged s) (he : Enabled S s e) :
    Flagged (next S s e) := by
  cases e with
  | prepare frameSize framesCount launch => exact flagged_prepare h he frameSize framesCount launch
  | close => exact flagged_close h he false
  | destroy => exact flagged_close h he true
  | wake =>
    refine flagged_of_same h rfl rfl (iff_of_false ?_ ?_)
    · simp only [next]
      split <;> simp
    · rcases he with he | he <;> simp [he]
  | join =>
    have hcall : s.call = some .joining := he.1
    have hgone : (next S s .join).flag = [] := by simp [State.flag, next]
    unfold Flagged at *
    rw [hgone]
    simp only [next]
    split
    · next hsome =>
      have hflag : s.flag = [()] ++ [] := by simp [State.flag, hsome, hcall]
      rw [hflag] at h
      exact h.closed
    · next hnone =>
      have hflag : s.flag = [] := by simp [State.flag, hnone]
      rwa [hflag] at h
  | runs =>
    obtain ⟨stage, hs, -⟩ := he
    simp only [next, Option.mem_def.mp hs, Option.map_some, Option.getD_some]
    exact flagged_of_same h (flags_loopNext S s stage) (sameControl_loopNext S s stage).mDataMQ
      (by rw [call_loopNext])
  | waits woken => cases woken <;> exact h
  | _ => exact h

theorem flags_settled {S : Stream Command Turn Status} {mStatus : Status}
    {es : List (Event Command Turn Status)} (legal : (system S).Legal (constructed mStatus) es)
    (hgone : ((system S).run (constructed mStatus) es).call = some .gone) :
    Handles.Settled ((system S).run (constructed mStatus) es).flags := by
  have h := invariant_legal (I := Flagged) (system S) flagged_step (s := constructed mStatus)
    Handles.leaves_nil legal
  exact h.settled_iff_nil.mpr (if_neg fun hthere => hthere.2 hgone)

end AudioStreams
