import VendorMediatek.AudioStreams
import VendorMediatek.RankedRuns

/-!
# Commands and their statuses

A client of an audio stream that sends one command at a time: what it receives, and that it does not
wait in vain.
-/

namespace AudioStreams

open LabelledRuns AudioCommandThreads

variable {Command Turn Status : Type}

/-! ## Commands and statuses -/

/-- The client sends a command when it has the statuses of all before. -/
def OneAtATime (s : State Command Status) (e : Event Command Turn Status) : Prop :=
  ∀ command, e = .send command → s.sent.length = s.received.length

/-- The command that the thread has at a stage. -/
def Stage.inFlight (S : Stream Command Turn Status) (mStatus : Status) :
    Stage Command → List Command
  | .serving command => [command]
  | .answering => [S.replyTo mStatus]
  | _ => []

/-- The commands that have been sent and whose statuses are not there yet. -/
def State.inFlight (S : Stream Command Turn Status) (s : State Command Status) : List Command :=
  s.mStatusMQ.toList.map S.replyTo ++ s.thread.elim [] (Stage.inFlight S s.mStatus) ++
    s.mCommandMQ.toList

/-- What has been sent is what the statuses say, and one command at most that is on its way. -/
structure Exchange (S : Stream Command Turn Status) (s : State Command Status) : Prop where
  sent : s.sent = s.received.map S.replyTo ++ s.inFlight S
  one : (s.inFlight S).length ≤ 1
  dropped : s.dropped = []

theorem Exchange.of_same {S : Stream Command Turn Status} {s t : State Command Status}
    (h : Exchange S s) (hinFlight : t.inFlight S = s.inFlight S) (hsent : t.sent = s.sent)
    (hreceived : t.received = s.received) (hdropped : t.dropped = s.dropped) : Exchange S t := by
  refine ⟨?_, ?_, ?_⟩
  · rw [hsent, hreceived, hinFlight, h.sent]
  · rw [hinFlight]
    exact h.one
  · rw [hdropped, h.dropped]

theorem exchange_loopNext {S : Stream Command Turn Status} {s : State Command Status}
    (h : Exchange S s) {stage : Stage Command} (hs : s.thread = some stage) :
    Exchange S (loopNext S s stage) := by
  cases stage with
  | testing =>
    refine h.of_same ?_ rfl rfl rfl
    simp only [State.inFlight, loopNext, hs]
    split <;> rfl
  | reading =>
    simp only [loopNext]
    split
    · exact h.of_same (by simp [State.inFlight, hs, Stage.inFlight]) rfl rfl rfl
    · next hsome => exact h.of_same (by simp [State.inFlight, hs, hsome, Stage.inFlight]) rfl rfl rfl
  | answering =>
    simp only [loopNext]
    split
    · next hnone => exact h.of_same (by simp [State.inFlight, hs, hnone, Stage.inFlight]) rfl rfl rfl
    · next hsome =>
      have hone := h.one
      simp [State.inFlight, hs, hsome, Stage.inFlight] at hone
  | waking => exact h.of_same (by simp [State.inFlight, loopNext, hs, Stage.inFlight]) rfl rfl rfl
  | _ => exact h

theorem exchange_close {S : Stream Command Turn Status} {s : State Command Status}
    (h : Exchange S s) (destroys : Bool) : Exchange S (s.close destroys) := by
  rcases close_cases s destroys with ⟨-, heq⟩ | ⟨-, -, heq⟩
  · rw [heq]
    exact h.of_same rfl rfl rfl rfl
  · rw [heq]
    exact h.of_same rfl rfl rfl rfl

theorem exchange_step {S : Stream Command Turn Status} {s : State Command Status}
    {e : Event Command Turn Status} (hheld : Held s) (h : Exchange S s) (he : Enabled S s e)
    (client : OneAtATime s e) : Exchange S (next S s e) := by
  cases e with
  | prepare frameSize framesCount launch =>
    rcases prepareForWriting_cases s frameSize framesCount launch with
      ⟨flags, -, heq, -⟩ | ⟨hnone, -, -, -, mStatus, heq⟩
    · simp only [next, heq]
      exact h.of_same rfl rfl rfl rfl
    · simp only [next, heq]
      have hthread : s.thread = none := by simpa [hnone] using hheld.thread
      refine h.of_same ?_ rfl rfl rfl
      simp [State.inFlight, hthread, hheld.queues hnone, Stage.inFlight]
  | close => exact exchange_close h false
  | destroy => exact exchange_close h true
  | runs =>
    obtain ⟨stage, hs, -⟩ := he
    simp only [next, Option.mem_def.mp hs, Option.map_some, Option.getD_some]
    exact exchange_loopNext h hs
  | waits woken =>
    have hs : s.thread = some .waiting := he.1
    cases woken with
    | true => exact h.of_same (by simp [State.inFlight, next, hs, Stage.inFlight]) rfl rfl rfl
    | false => exact h.of_same (by simp [State.inFlight, next, hs, Stage.inFlight]) rfl rfl rfl
  | serves turn =>
    have hs : s.thread = some (.serving (S.command turn)) := he
    exact h.of_same (by simp [State.inFlight, next, hs, Stage.inFlight, S.replies]) rfl rfl rfl
  | send command =>
    have hlength := congrArg List.length h.sent
    rw [List.length_append, List.length_map, client command rfl] at hlength
    have hempty : s.inFlight S = [] := List.length_eq_zero_iff.mp (by omega)
    have hnext : (next S s (.send command)).inFlight S = [command] := by
      have hqueue : s.mCommandMQ = none := he.2
      simp only [State.inFlight, hqueue, Option.toList_none, List.append_nil] at hempty
      simp only [State.inFlight, next, Option.toList_some]
      rw [hempty, List.nil_append]
    refine ⟨?_, ?_, h.dropped⟩
    · have hsent := h.sent
      rw [hempty, List.append_nil] at hsent
      rw [hnext]
      exact congrArg (· ++ [command]) hsent
    · rw [hnext]
      exact le_rfl
  | receive =>
    have hsplit : s.inFlight S =
        s.mStatusMQ.toList.map S.replyTo ++ (next S s .receive).inFlight S := by
      simp [State.inFlight, next]
    refine ⟨?_, ?_, h.dropped⟩
    · have hsent := h.sent
      rw [hsplit, ← List.append_assoc, ← List.map_append] at hsent
      exact hsent
    · have hone := h.one
      rw [hsplit, List.length_append] at hone
      omega
  | _ => exact h.of_same rfl rfl rfl rfl

theorem exchange_run {S : Stream Command Turn Status} {mStatus : Status}
    {es : List (Event Command Turn Status)} (legal : (system S).Legal (constructed mStatus) es)
    (client : (system S).Along OneAtATime (constructed mStatus) es) :
    Exchange S ((system S).run (constructed mStatus) es) := by
  have hkeeps := invariant_run (I := fun s => Held s ∧ Exchange S s) (system S)
    (fun s e h he hclient => ⟨held_step s e h.1 he, exchange_step h.1 h.2 he hclient⟩)
    (s := constructed mStatus) ⟨held_constructed mStatus, rfl, Nat.zero_le _, rfl⟩ legal client
  exact hkeeps.2

/-- A client that sends one command at a time gets one status for each, in the order of the commands,
however the two sides interleave, and no status is dropped. -/
theorem answers_in_order {S : Stream Command Turn Status} {mStatus : Status}
    {es : List (Event Command Turn Status)} (legal : (system S).Legal (constructed mStatus) es)
    (client : (system S).Along OneAtATime (constructed mStatus) es) :
    let s := (system S).run (constructed mStatus) es
    s.received.map S.replyTo <+: s.sent ∧ s.sent.length ≤ s.received.length + 1 ∧
      s.dropped = [] := by
  have h := exchange_run legal client
  refine ⟨⟨_, h.sent.symm⟩, ?_, h.dropped⟩
  have hlength := congrArg List.length h.sent
  have hone := h.one
  rw [List.length_append, List.length_map] at hlength
  omega

/-- A capture, in which the thread reads the first command before it is woken for it. -/
theorem answers_in_order_capture :
    let s := (system StreamIn).run (constructed ⟨.OK, .READ, ⟨0, 0⟩⟩)
      [.prepare 4 256 (.started ⟨.OK, .READ, ⟨0, 0⟩⟩), .runs, .waits false, .runs,
        .send .READ, .sendWakes, .waits true, .runs, .serves ⟨.READ, 64⟩, .runs, .runs, .clientWaits,
        .receive, .send .GET_CAPTURE_POSITION, .sendWakes, .runs, .waits true, .runs]
    s.received.map StreamIn.replyTo <+: s.sent ∧ s.sent.length ≤ s.received.length + 1 ∧
      s.dropped = [] := by
  refine answers_in_order (by decide) ?_
  refine ⟨nofun, nofun, nofun, nofun, ?_, nofun, nofun, nofun, nofun, nofun, nofun, nofun, nofun, ?_,
    nofun, nofun, nofun, nofun, trivial⟩
  · exact fun _ _ => rfl
  · exact fun _ _ => rfl

/-! ## The status comes -/

/-- The steps that carry a command to the thread and its status to the client. -/
def Event.carries : Event Command Turn Status → Bool
  | .runs | .waits true | .serves _ | .sendWakes | .clientWaits | .receive => true
  | _ => false

/-- A wait that comes back with nothing. -/
def Event.spurious : Event Command Turn Status → Bool
  | .waits false => true
  | _ => false

def Stage.rank : Stage Command → ℕ
  | .finished | .waiting => 0
  | .testing => 1
  | .reading => 2
  | .waking => 4
  | .answering => 5
  | .serving _ => 6

/-- What is left to do: each place is worth more than all that it leads to. -/
def State.rank (S : Stream Command Turn Status) (s : State Command Status) : ℕ :=
  s.thread.elim 0 Stage.rank + 3 * (s.mEfGroup S.waitsFor).toNat + 4 * s.sending +
    5 * s.mCommandMQ.toList.length + 2 * (s.mEfGroup S.wakes).toNat + s.receiving

theorem rank_loopNext {S : Stream Command Turn Status} {s : State Command Status}
    {stage : Stage Command} (hs : s.thread = some stage) (hruns : stage.Runs) :
    (loopNext S s stage).rank S < s.rank S := by
  cases stage with
  | testing =>
    simp only [State.rank, loopNext, hs, Option.elim_some]
    split <;> simp [Stage.rank]
  | reading =>
    simp only [loopNext]
    split
    · simp [State.rank, hs, Stage.rank]
    · next hsome =>
      simp [State.rank, hs, hsome, Stage.rank]
      omega
  | answering =>
    simp only [loopNext]
    split <;> simp [State.rank, hs, Stage.rank]
  | waking =>
    simp only [State.rank, loopNext, hs, Option.elim_some, EventFlag.wake_self,
      EventFlag.wake_of_ne _ S.distinct, Stage.rank, Bool.toNat_true]
    omega
  | waiting => exact hruns.elim
  | serving command => exact hruns.elim
  | finished => exact hruns.elim

theorem rank_carries {S : Stream Command Turn Status} {s : State Command Status}
    {e : Event Command Turn Status} (he : Enabled S s e) (hcarries : e.carries = true) :
    (next S s e).rank S < s.rank S := by
  cases e with
  | runs =>
    obtain ⟨stage, hs, hruns⟩ := he
    simp only [next, Option.mem_def.mp hs, Option.map_some, Option.getD_some]
    exact rank_loopNext hs hruns
  | waits woken =>
    cases woken with
    | true =>
      simp only [State.rank, next, he.1, he.2 rfl, Option.elim_some, EventFlag.take_self,
        EventFlag.take_of_ne _ S.distinct.symm, Stage.rank, Bool.toNat_true, Bool.toNat_false]
      omega
    | false => cases hcarries
  | serves turn =>
    have hs : s.thread = some (.serving (S.command turn)) := he
    simp only [State.rank, next, hs, Option.elim_some, Stage.rank]
    omega
  | sendWakes =>
    have hsending : 0 < s.sending := he
    simp only [State.rank, next, EventFlag.wake_self, EventFlag.wake_of_ne _ S.distinct.symm,
      Bool.toNat_true]
    omega
  | clientWaits =>
    have hbit : s.mEfGroup S.wakes = true := he
    simp only [State.rank, next, hbit, EventFlag.take_self, EventFlag.take_of_ne _ S.distinct,
      Bool.toNat_true, Bool.toNat_false]
    omega
  | receive =>
    have hreceiving : 0 < s.receiving := he
    simp only [State.rank, next]
    omega
  | _ => cases hcarries

theorem rank_spurious {S : Stream Command Turn Status} {s : State Command Status}
    {e : Event Command Turn Status} (he : Enabled S s e) (hspurious : e.spurious = true) :
    (next S s e).rank S ≤ s.rank S + 1 := by
  cases e with
  | waits woken =>
    cases woken with
    | true => cases hspurious
    | false =>
      simp only [State.rank, next, he.1, Option.elim_some, Stage.rank]
      omega
  | _ => cases hspurious

theorem carries_le {S : Stream Command Turn Status} {s : State Command Status}
    {es : List (Event Command Turn Status)} (legal : (system S).Legal s es)
    (hes : ∀ e ∈ es, e.carries = true ∨ e.spurious = true) :
    es.countP Event.carries + ((system S).run s es).rank S ≤ s.rank S + es.countP Event.spurious := by
  have guarded : (system S).Along (fun _ e => e.carries = true ∨ e.spurious = true) s es :=
    (along_events (system S) _ s es).mpr hes
  rw [← Nat.one_mul (es.countP Event.spurious)]
  refine countP_add_rank_le (system S) (I := fun _ => True) (fun _ _ _ _ _ => trivial) ?_ trivial
    legal guarded
  intro s e _ he hkind
  rcases hkind with hcarries | hspurious
  · have hrank : ((system S).next s e).rank S < s.rank S := rank_carries he hcarries
    rw [if_pos hcarries]
    omega
  · have hrank : ((system S).next s e).rank S ≤ s.rank S + 1 := rank_spurious he hspurious
    have hidle : ¬e.carries = true := by
      cases e with
      | waits woken => cases woken <;> simp_all [Event.carries, Event.spurious]
      | _ => cases hspurious
    rw [if_pos hspurious, if_neg hidle]
    exact hrank

theorem rank_le (S : Stream Command Turn Status) (s : State Command Status) :
    s.rank S ≤ 16 + 4 * s.sending + s.receiving := by
  have hstage : s.thread.elim 0 Stage.rank ≤ 6 := by
    cases s.thread with
    | none => exact Nat.zero_le _
    | some stage => cases stage <;> simp [Stage.rank]
  have hwaits := Bool.toNat_le (s.mEfGroup S.waitsFor)
  have hwakes := Bool.toNat_le (s.mEfGroup S.wakes)
  have hqueue : s.mCommandMQ.toList.length ≤ 1 := by cases s.mCommandMQ <;> simp
  simp only [State.rank]
  omega

theorem Event.not_calls {e : Event Command Turn Status}
    (he : e.carries = true ∨ e.spurious = true) : e.calls = false := by
  cases e with
  | waits woken => rfl
  | prepare frameSize framesCount launch => simp [Event.carries, Event.spurious] at he
  | close => simp [Event.carries, Event.spurious] at he
  | destroy => simp [Event.carries, Event.spurious] at he
  | _ => rfl

theorem mStop_run {S : Stream Command Turn Status} {s : State Command Status}
    {es : List (Event Command Turn Status)}
    (hes : ∀ e ∈ es, e.carries = true ∨ e.spurious = true) :
    ((system S).run s es).mStop = s.mStop := by
  induction es generalizing s with
  | nil => rfl
  | cons e es ih =>
    rw [run_cons, ih fun d hd => hes d (List.mem_cons_of_mem e hd)]
    exact (sameControl_next S s (Event.not_calls (hes e List.mem_cons_self))).mStop

theorem carried_on {S : Stream Command Turn Status} {s : State Command Status} (h : Held s)
    (hwoken : Woken S s) (hstop : s.mStop = false) (hinFlight : s.inFlight S ≠ []) :
    ∃ e, e.carries = true ∧ Enabled S s e := by
  cases hs : s.thread with
  | none =>
    have hnone : s.mDataMQ = none := by simpa [hs] using h.thread.symm
    exact absurd (by simp [State.inFlight, hs, h.queues hnone]) hinFlight
  | some stage =>
    have hruns : stage.Runs → ∃ e, e.carries = true ∧ Enabled S s e :=
      fun hr => ⟨.runs, rfl, stage, hs, hr⟩
    cases stage with
    | serving command =>
      obtain ⟨turn, rfl⟩ := S.served command
      exact ⟨.serves turn, rfl, hs⟩
    | finished => simp [h.finished hs] at hstop
    | waiting =>
      by_cases hcommand : s.mCommandMQ = none
      · have hstatus : s.mStatusMQ ≠ none := by
          intro hnone
          exact hinFlight (by simp [State.inFlight, hs, hcommand, hnone, Stage.inFlight])
        rcases hwoken.status hstatus with hbit | hreceiving | hwaking
        · exact ⟨.clientWaits, rfl, hbit⟩
        · exact ⟨.receive, rfl, hreceiving⟩
        · cases hs.symm.trans hwaking
      · rcases hwoken.command hcommand with hbit | hsending | hreading
        · exact ⟨.waits true, rfl, hs, fun _ => hbit⟩
        · exact ⟨.sendWakes, rfl, hsending⟩
        · cases hs.symm.trans hreading
    | _ => exact hruns trivial

/-- While the stream is not closed a command that has been sent is answered: the two sides take a
bounded number of steps until the client has its status, and one of them can always take the next. -/
theorem answer_arrives {S : Stream Command Turn Status} {mStatus : Status}
    {es fs : List (Event Command Turn Status)}
    (legal : (system S).Legal (constructed mStatus) (es ++ fs))
    (client : (system S).Along OneAtATime (constructed mStatus) (es ++ fs))
    (hstop : ((system S).run (constructed mStatus) es).mStop = false)
    (hfs : ∀ e ∈ fs, e.carries = true ∨ e.spurious = true) :
    let s := (system S).run (constructed mStatus) es
    let t := (system S).run s fs
    fs.countP Event.carries ≤ 16 + 4 * s.sending + s.receiving + fs.countP Event.spurious ∧
      (t.received.map S.replyTo = t.sent ∨ ∃ e, e.carries = true ∧ Enabled S t e) := by
  have hrun : (system S).run ((system S).run (constructed mStatus) es) fs =
      (system S).run (constructed mStatus) (es ++ fs) := List.foldl_append.symm
  have hkeeps := invariant_legal (I := fun s => Held s ∧ Woken S s) (system S)
    (fun s e h he => ⟨held_step s e h.1 he, woken_step s e h.2 he⟩)
    (s := constructed mStatus) ⟨held_constructed mStatus, woken_constructed S mStatus⟩ legal
  have hexchange := exchange_run legal client
  rw [← hrun] at hkeeps hexchange
  refine ⟨?_, ?_⟩
  · have hle := carries_le ((along_append (system S) _ _ es fs).mp legal).2 hfs
    have hrank := rank_le S ((system S).run (constructed mStatus) es)
    omega
  · by_cases hinFlight :
        ((system S).run ((system S).run (constructed mStatus) es) fs).inFlight S = []
    · exact .inl (by rw [hexchange.sent, hinFlight, List.append_nil])
    · exact .inr (carried_on hkeeps.1 hkeeps.2 ((mStop_run hfs).trans hstop) hinFlight)

/-- A write is sent and the thread is woken for it, after a wait that has come back with nothing. -/
theorem answer_arrives_write :
    let s := (system StreamOut).run (constructed ⟨.OK, .WRITE, ⟨0, 0, 0⟩⟩)
      [.prepare 4 256 (.started ⟨.OK, .WRITE, ⟨0, 0, 0⟩⟩), .runs, .send .WRITE]
    let fs : List (Event WriteCommand WriteTurn WriteStatus) :=
      [.waits false, .runs, .sendWakes, .waits true]
    let t := (system StreamOut).run s fs
    fs.countP Event.carries ≤ 16 + 4 * s.sending + s.receiving + fs.countP Event.spurious ∧
      (t.received.map StreamOut.replyTo = t.sent ∨
        ∃ e, e.carries = true ∧ Enabled StreamOut t e) := by
  refine answer_arrives (by decide) ?_ rfl (by decide)
  exact ⟨nofun, nofun, fun _ _ => rfl, nofun, nofun, nofun, nofun, trivial⟩

end AudioStreams
