import Mathlib.Logic.Function.Basic
import VendorMediatek.AudioCommandThreads
import VendorMediatek.HandleLeaves

/-!
# The life of an audio stream

StreamOut and StreamIn alike: prepareForWriting (prepareForReading) makes the queues and starts the
thread, the client writes commands and reads statuses, close and the destructor stop the thread. The
two sides wake each other through the bits of one event flag.
-/

namespace AudioStreams

open LabelledRuns AudioCommandThreads

inductive MessageQueueFlagBits where
  | NOT_EMPTY | NOT_FULL
  deriving DecidableEq

abbrev EventFlag := MessageQueueFlagBits → Bool

namespace EventFlag

def clear : EventFlag := fun _ => false

/-- wake sets a bit, and a wait that finds it takes it away. -/
def wake (ef : EventFlag) (bit : MessageQueueFlagBits) : EventFlag := Function.update ef bit true

def take (ef : EventFlag) (bit : MessageQueueFlagBits) : EventFlag := Function.update ef bit false

@[simp] theorem wake_self (ef : EventFlag) (bit : MessageQueueFlagBits) : ef.wake bit bit = true :=
  Function.update_self ..

@[simp] theorem take_self (ef : EventFlag) (bit : MessageQueueFlagBits) : ef.take bit bit = false :=
  Function.update_self ..

theorem wake_of_ne (ef : EventFlag) {bit other : MessageQueueFlagBits} (h : other ≠ bit) :
    ef.wake bit other = ef other :=
  Function.update_of_ne h ..

theorem take_of_ne (ef : EventFlag) {bit other : MessageQueueFlagBits} (h : other ≠ bit) :
    ef.take bit other = ef other :=
  Function.update_of_ne h ..

end EventFlag

/-- What the two streams differ in: the bits that their threads wait for and wake with, and what a
turn does to the status. -/
structure Stream (Command Turn Status : Type) where
  waitsFor : MessageQueueFlagBits
  wakes : MessageQueueFlagBits
  command : Turn → Command
  replyTo : Status → Command
  turn : Status → Turn → Status
  distinct : waitsFor ≠ wakes
  served : ∀ command', ∃ t, command t = command'
  replies : ∀ mStatus t, replyTo (turn mStatus t) = command t

def StreamOut : Stream WriteCommand WriteTurn WriteStatus where
  waitsFor := .NOT_EMPTY
  wakes := .NOT_FULL
  command := WriteTurn.command
  replyTo := WriteStatus.replyTo
  turn := writeTurn
  distinct := by decide
  served := fun command => ⟨⟨command, false, 0, 0⟩, rfl⟩
  replies := writeTurn_replyTo

def StreamIn : Stream ReadCommand ReadTurn ReadStatus where
  waitsFor := .NOT_FULL
  wakes := .NOT_EMPTY
  command := ReadTurn.command
  replyTo := ReadStatus.replyTo
  turn := readTurn
  distinct := by decide
  served := fun command => ⟨⟨command, 0⟩, rfl⟩
  replies := readTurn_replyTo

/-- Where the thread is in threadLoop. -/
inductive Stage (Command : Type) where
  | testing
  | waiting
  | reading
  | serving (command : Command)
  | answering
  | waking
  | finished
  deriving DecidableEq

/-- Where a call of close or the destructor is: about to wake the thread, or to join it. -/
inductive Call where
  | waking (destroys : Bool)
  | joining
  | gone
  deriving DecidableEq

/-- mDataMQ is set together with the other queues, the event flag and the thread. The client's writes
that have yet to wake the thread and its waits that have yet to read are counted. What has been sent,
received and dropped is kept, and what has been done with event flags. -/
structure State (Command Status : Type) where
  mIsClosed : Bool
  mStop : Bool
  mDataMQ : Option UInt32
  mEfGroup : EventFlag
  mCommandMQ : Option Command
  mStatusMQ : Option Status
  mStatus : Status
  thread : Option (Stage Command)
  call : Option Call
  sending : ℕ
  receiving : ℕ
  sent : List Command
  received : List Status
  dropped : List Status
  flags : List (Handles.Event Unit)

variable {Command Turn Status : Type}

def constructed (mStatus : Status) : State Command Status :=
  ⟨false, false, none, .clear, none, none, mStatus, none, none, 0, 0, [], [], [], []⟩

/-- How far prepareForWriting gets once its arguments are right. A new thread has a status of its
own. -/
inductive Launch (Status : Type) where
  | invalidQueue
  | noEventFlag
  | initFails
  | runFails
  | started (mStatus : Status)
  deriving DecidableEq

/-- 2 << 30. -/
def MAX_BUFFER_SIZE : UInt32 := 0x80000000

/-- prepareForWriting and prepareForReading. -/
def prepareForWriting (s : State Command Status) (frameSize framesCount : UInt32)
    (launch : Launch Status) : AudioCommandThreads.Result × State Command Status :=
  if s.mDataMQ.isSome then (.INVALID_STATE, s)
  else if frameSize = 0 ∨ framesCount = 0 then (.INVALID_ARGUMENTS, s)
  else if MAX_BUFFER_SIZE / framesCount < frameSize then (.INVALID_ARGUMENTS, s)
  else
    match launch with
    | .invalidQueue | .noEventFlag => (.INVALID_ARGUMENTS, s)
    | .initFails | .runFails =>
      (.INVALID_ARGUMENTS, { s with flags := s.flags ++ [.opened (), .closed ()] })
    | .started mStatus =>
      (.OK,
        { s with
          mDataMQ := some (frameSize * framesCount)
          mEfGroup := .clear
          mCommandMQ := none
          mStatusMQ := none
          mStatus := mStatus
          thread := some .testing
          flags := s.flags ++ [.opened ()] })

/-- The destructor goes on after its close. -/
def afterClose (destroys : Bool) : Option Call := if destroys then some .joining else none

def State.close (s : State Command Status) (destroys : Bool) : State Command Status :=
  if s.mIsClosed then { s with call := afterClose destroys }
  else if s.mDataMQ.isSome then
    { s with mIsClosed := true, mStop := true, call := some (.waking destroys) }
  else { s with mIsClosed := true, call := afterClose destroys }

/-- A wait comes back with the bit, or with nothing. -/
inductive Event (Command Turn Status : Type) where
  | prepare (frameSize framesCount : UInt32) (launch : Launch Status)
  | close
  | destroy
  | wake
  | join
  | runs
  | waits (woken : Bool)
  | serves (turn : Turn)
  | send (command : Command)
  | sendWakes
  | clientWaits
  | receive
  deriving DecidableEq

/-- The steps of threadLoop, the wait and the command itself apart. -/
def loopNext (S : Stream Command Turn Status) (s : State Command Status) :
    Stage Command → State Command Status
  | .testing => { s with thread := some (if s.mStop then .finished else .waiting) }
  | .reading =>
    match s.mCommandMQ with
    | none => { s with thread := some .testing }
    | some command => { s with mCommandMQ := none, thread := some (.serving command) }
  | .answering =>
    match s.mStatusMQ with
    | none => { s with mStatusMQ := some s.mStatus, thread := some .waking }
    | some _ => { s with dropped := s.dropped ++ [s.mStatus], thread := some .waking }
  | .waking => { s with mEfGroup := s.mEfGroup.wake S.wakes, thread := some .testing }
  | _ => s

def next (S : Stream Command Turn Status) (s : State Command Status) :
    Event Command Turn Status → State Command Status
  | .prepare frameSize framesCount launch => (prepareForWriting s frameSize framesCount launch).2
  | .close => s.close false
  | .destroy => s.close true
  | .wake =>
    { s with
      mEfGroup := s.mEfGroup.wake S.waitsFor
      call := if s.call = some (.waking true) then some .joining else none }
  | .join =>
    { s with
      call := some .gone
      flags := if s.mDataMQ.isSome then s.flags ++ [.closed ()] else s.flags }
  | .runs => (s.thread.map (loopNext S s)).getD s
  | .waits true => { s with mEfGroup := s.mEfGroup.take S.waitsFor, thread := some .reading }
  | .waits false => { s with thread := some .testing }
  | .serves turn => { s with mStatus := S.turn s.mStatus turn, thread := some .answering }
  | .send command =>
    { s with
      mCommandMQ := some command
      sending := s.sending + 1
      sent := s.sent ++ [command] }
  | .sendWakes => { s with mEfGroup := s.mEfGroup.wake S.waitsFor, sending := s.sending - 1 }
  | .clientWaits => { s with mEfGroup := s.mEfGroup.take S.wakes, receiving := s.receiving + 1 }
  | .receive =>
    { s with
      mStatusMQ := none
      receiving := s.receiving - 1
      received := s.received ++ s.mStatusMQ.toList }

/-- The stages that threadLoop leaves by itself. -/
def Stage.Runs : Stage Command → Prop
  | .testing | .reading | .answering | .waking => True
  | .waiting | .serving _ | .finished => False

/-- The calls come one at a time. The command queue has room for one. -/
def Enabled (S : Stream Command Turn Status) (s : State Command Status) :
    Event Command Turn Status → Prop
  | .prepare _ _ _ | .close | .destroy => s.call = none
  | .wake => s.call = some (.waking true) ∨ s.call = some (.waking false)
  | .join => s.call = some .joining ∧ ∀ stage ∈ s.thread, stage = .finished
  | .runs => ∃ stage ∈ s.thread, stage.Runs
  | .waits woken => s.thread = some .waiting ∧ (woken = true → s.mEfGroup S.waitsFor = true)
  | .serves turn => s.thread = some (.serving (S.command turn))
  | .send _ => s.mDataMQ.isSome ∧ s.mCommandMQ = none
  | .sendWakes => 0 < s.sending
  | .clientWaits => s.mEfGroup S.wakes = true
  | .receive => 0 < s.receiving

def system (S : Stream Command Turn Status) :
    System (State Command Status) (Event Command Turn Status) := ⟨Enabled S, next S⟩

instance (stage : Stage Command) : Decidable stage.Runs := by
  cases stage <;> simp only [Stage.Runs] <;> infer_instance

instance [DecidableEq Command] (S : Stream Command Turn Status) (s : State Command Status)
    (e : Event Command Turn Status) : Decidable ((system S).Enabled s e) := by
  cases e <;> simp only [system, Enabled] <;> infer_instance

/-! ## What is kept -/

/-- The thread and the queues come together. A stop is a close that has found the thread. -/
structure Held (s : State Command Status) : Prop where
  thread : s.thread.isSome = s.mDataMQ.isSome
  stop : s.mStop = true → s.mIsClosed = true ∧ s.mDataMQ.isSome = true
  finished : s.thread = some .finished → s.mStop = true
  queues : s.mDataMQ = none → s.mCommandMQ = none ∧ s.mStatusMQ = none
  call : s.call ≠ none → s.mIsClosed = true

/-- No wake-up is lost: what is in a queue, and a stop, has its bit set, or someone on the way. -/
structure Woken (S : Stream Command Turn Status) (s : State Command Status) : Prop where
  command : s.mCommandMQ ≠ none →
    s.mEfGroup S.waitsFor = true ∨ 0 < s.sending ∨ s.thread = some .reading
  status : s.mStatusMQ ≠ none →
    s.mEfGroup S.wakes = true ∨ 0 < s.receiving ∨ s.thread = some .waking
  stop : s.mStop = true → s.thread = some .waiting →
    s.mEfGroup S.waitsFor = true ∨ ∃ destroys, s.call = some (.waking destroys)

/-- What prepareForWriting does: to the event flags at most, or it starts the thread. -/
theorem prepareForWriting_cases (s : State Command Status) (frameSize framesCount : UInt32)
    (launch : Launch Status) :
    (∃ flags, (prepareForWriting s frameSize framesCount launch).1 ≠ .OK ∧
        (prepareForWriting s frameSize framesCount launch).2 = { s with flags := s.flags ++ flags } ∧
        (flags = [] ∨ flags = [.opened (), .closed ()])) ∨
      s.mDataMQ = none ∧ frameSize ≠ 0 ∧ framesCount ≠ 0 ∧
        frameSize ≤ MAX_BUFFER_SIZE / framesCount ∧ ∃ mStatus,
          prepareForWriting s frameSize framesCount launch =
            (.OK,
              { s with
                mDataMQ := some (frameSize * framesCount)
                mEfGroup := .clear
                mCommandMQ := none
                mStatusMQ := none
                mStatus := mStatus
                thread := some .testing
                flags := s.flags ++ [.opened ()] }) := by
  have hsame : s = { s with flags := s.flags ++ [] } := by rw [List.append_nil]
  unfold prepareForWriting
  split
  · exact .inl ⟨[], nofun, hsame, .inl rfl⟩
  · next hnone =>
    split
    · exact .inl ⟨[], nofun, hsame, .inl rfl⟩
    · next hzero =>
      split
      · exact .inl ⟨[], nofun, hsame, .inl rfl⟩
      · next hsize =>
        rw [not_or] at hzero
        have hdata : s.mDataMQ = none := by simpa using hnone
        cases launch with
        | invalidQueue => exact .inl ⟨[], nofun, hsame, .inl rfl⟩
        | noEventFlag => exact .inl ⟨[], nofun, hsame, .inl rfl⟩
        | initFails => exact .inl ⟨_, nofun, rfl, .inr rfl⟩
        | runFails => exact .inl ⟨_, nofun, rfl, .inr rfl⟩
        | started mStatus =>
          exact .inr ⟨hdata, hzero.1, hzero.2, UInt32.not_lt.mp hsize, mStatus, rfl⟩

/-- What close does: nothing but say what comes next, or it stops the thread that is there. -/
theorem close_cases (s : State Command Status) (destroys : Bool) :
    (s.mIsClosed = true ∨ s.mDataMQ = none) ∧
        s.close destroys = { s with mIsClosed := true, call := afterClose destroys } ∨
      s.mIsClosed = false ∧ s.mDataMQ.isSome = true ∧
        s.close destroys =
          { s with mIsClosed := true, mStop := true, call := some (.waking destroys) } := by
  unfold State.close
  split
  · next hclosed => exact .inl ⟨.inl hclosed, by rw [← hclosed]⟩
  · next hopen =>
    split
    · next hsome => exact .inr ⟨by simpa using hopen, hsome, rfl⟩
    · next hnone => exact .inl ⟨.inr (by simpa using hnone), rfl⟩

theorem held_close {s : State Command Status} (h : Held s) (destroys : Bool) :
    Held (s.close destroys) := by
  rcases close_cases s destroys with ⟨-, heq⟩ | ⟨-, hsome, heq⟩
  · rw [heq]
    exact ⟨h.thread, fun hstop => ⟨rfl, (h.stop hstop).2⟩, h.finished, h.queues, fun _ => rfl⟩
  · rw [heq]
    exact ⟨h.thread, fun _ => ⟨rfl, hsome⟩, fun _ => rfl, h.queues, fun _ => rfl⟩

theorem Held.prepared {s : State Command Status} (h : Held s) {stage : Stage Command}
    (hs : s.thread = some stage) : s.mDataMQ ≠ none := by
  intro hnone
  have hthread := h.thread
  rw [hs, hnone] at hthread
  cases hthread

/-- The thread has gone on to a stage that is not the last, or it has been told to stop. -/
theorem held_moves {s t : State Command Status} (h : Held s) {stage stage' : Stage Command}
    (hs : s.thread = some stage) (ht : t.thread = some stage')
    (hfin : stage' = .finished → s.mStop = true) (hdata : t.mDataMQ = s.mDataMQ)
    (hstop : t.mStop = s.mStop) (hclosed : t.mIsClosed = s.mIsClosed) (hcall : t.call = s.call) :
    Held t := by
  refine ⟨?_, ?_, ?_, ?_, ?_⟩
  · rw [ht, hdata, ← h.thread, hs]
    rfl
  · rw [hstop, hclosed, hdata]
    exact h.stop
  · rw [ht, hstop]
    exact fun hlast => hfin (Option.some.inj hlast)
  · rw [hdata]
    exact fun hnone => absurd hnone (h.prepared hs)
  · rw [hcall, hclosed]
    exact h.call

theorem held_loopNext {S : Stream Command Turn Status} {s : State Command Status} (h : Held s)
    {stage : Stage Command} (hs : s.thread = some stage) : Held (loopNext S s stage) := by
  cases stage with
  | testing =>
    refine held_moves h hs rfl ?_ rfl rfl rfl rfl
    split
    · next hstop => exact fun _ => hstop
    · nofun
  | reading =>
    simp only [loopNext]
    split <;> exact held_moves h hs rfl nofun rfl rfl rfl rfl
  | answering =>
    simp only [loopNext]
    split <;> exact held_moves h hs rfl nofun rfl rfl rfl rfl
  | waking => exact held_moves h hs rfl nofun rfl rfl rfl rfl
  | _ => exact h

theorem held_step {S : Stream Command Turn Status} (s : State Command Status)
    (e : Event Command Turn Status) (h : Held s) (he : Enabled S s e) : Held (next S s e) := by
  cases e with
  | prepare frameSize framesCount launch =>
    rcases prepareForWriting_cases s frameSize framesCount launch with
      ⟨flags, -, heq, -⟩ | ⟨hnone, -, -, -, mStatus, heq⟩
    · simp only [next, heq]
      exact ⟨h.thread, h.stop, h.finished, h.queues, h.call⟩
    · simp only [next, heq]
      have hstop : s.mStop ≠ true := fun hstop => by simpa [hnone] using (h.stop hstop).2
      exact ⟨rfl, fun hs => absurd hs hstop, nofun, nofun, h.call⟩
  | close => exact held_close h false
  | destroy => exact held_close h true
  | wake =>
    have hclosed : s.mIsClosed = true := h.call (by rcases he with hcall | hcall <;> simp [hcall])
    exact ⟨h.thread, h.stop, h.finished, h.queues, fun _ => hclosed⟩
  | join =>
    have hclosed : s.mIsClosed = true := h.call (by simp [he.1])
    exact ⟨h.thread, h.stop, h.finished, h.queues, fun _ => hclosed⟩
  | runs =>
    obtain ⟨stage, hs, -⟩ := he
    simp only [next, Option.mem_def.mp hs, Option.map_some, Option.getD_some]
    exact held_loopNext h hs
  | waits woken =>
    cases woken with
    | true => exact held_moves h he.1 rfl nofun rfl rfl rfl rfl
    | false => exact held_moves h he.1 rfl nofun rfl rfl rfl rfl
  | serves turn => exact held_moves h he rfl nofun rfl rfl rfl rfl
  | send command =>
    refine ⟨h.thread, h.stop, h.finished, fun hnone => ?_, h.call⟩
    have hsome : s.mDataMQ.isSome = true := he.1
    rw [show s.mDataMQ = none from hnone] at hsome
    cases hsome
  | receive =>
    exact ⟨h.thread, h.stop, h.finished, fun hnone => ⟨(h.queues hnone).1, rfl⟩, h.call⟩
  | _ => exact ⟨h.thread, h.stop, h.finished, h.queues, h.call⟩

/-- The thread has gone on from a stage at which it held no wake-up, and is not waiting now. -/
theorem Woken.moves {S : Stream Command Turn Status} {s t : State Command Status} (h : Woken S s)
    {stage stage' : Stage Command} (hs : s.thread = some stage) (ht : t.thread = some stage')
    (hreading : stage ≠ .reading) (hwaking : stage ≠ .waking)
    (hwaiting : stage' = .waiting → s.mStop ≠ true) (hcommand : t.mCommandMQ = s.mCommandMQ)
    (hstatus : t.mStatusMQ ≠ none → s.mStatusMQ ≠ none ∨ stage' = .waking)
    (hef : t.mEfGroup = s.mEfGroup) (hsending : t.sending = s.sending)
    (hreceiving : t.receiving = s.receiving) (hstop : t.mStop = s.mStop) : Woken S t := by
  refine ⟨fun hsome => ?_, fun hsome => ?_, fun hstopped hwait => ?_⟩
  · rw [hef, hsending]
    rw [hcommand] at hsome
    rcases h.command hsome with hbit | hsend | hread
    · exact .inl hbit
    · exact .inr (.inl hsend)
    · exact absurd (Option.some.inj (hs.symm.trans hread)) hreading
  · rw [hef, hreceiving, ht]
    rcases hstatus hsome with hold | hnew
    · rcases h.status hold with hbit | hreceive | hwake
      · exact .inl hbit
      · exact .inr (.inl hreceive)
      · exact absurd (Option.some.inj (hs.symm.trans hwake)) hwaking
    · exact .inr (.inr (congrArg some hnew))
  · rw [hstop] at hstopped
    exact absurd hstopped (hwaiting (Option.some.inj (ht.symm.trans hwait)))

theorem woken_loopNext {S : Stream Command Turn Status} {s : State Command Status} (h : Woken S s)
    {stage : Stage Command} (hs : s.thread = some stage) (hruns : stage.Runs) :
    Woken S (loopNext S s stage) := by
  cases stage with
  | testing =>
    refine h.moves hs rfl nofun nofun ?_ rfl .inl rfl rfl rfl rfl
    split
    · nofun
    · next hstop => exact fun _ => hstop
  | reading =>
    have hstatus : s.mStatusMQ ≠ none → s.mEfGroup S.wakes = true ∨ 0 < s.receiving := by
      intro hsome
      rcases h.status hsome with hbit | hreceive | hwake
      · exact .inl hbit
      · exact .inr hreceive
      · cases hs.symm.trans hwake
    simp only [loopNext]
    split
    · next hnone =>
      exact ⟨fun hsome => absurd hnone hsome, fun hsome => (hstatus hsome).imp_right .inl, nofun⟩
    · exact ⟨fun hsome => absurd rfl hsome, fun hsome => (hstatus hsome).imp_right .inl, nofun⟩
  | answering =>
    simp only [loopNext]
    split
    · exact h.moves hs rfl nofun nofun nofun rfl (fun _ => .inr rfl) rfl rfl rfl rfl
    · exact h.moves hs rfl nofun nofun nofun rfl .inl rfl rfl rfl rfl
  | waking =>
    refine ⟨fun hsome => ?_, fun _ => .inl (EventFlag.wake_self _ _), nofun⟩
    rcases h.command hsome with hbit | hsend | hread
    · exact .inl ((EventFlag.wake_of_ne _ S.distinct).trans hbit)
    · exact .inr (.inl hsend)
    · cases hs.symm.trans hread
  | waiting => exact hruns.elim
  | serving command => exact hruns.elim
  | finished => exact hruns.elim

theorem woken_close {S : Stream Command Turn Status} {s : State Command Status} (h : Woken S s)
    (hcall : s.call = none) (destroys : Bool) : Woken S (s.close destroys) := by
  rcases close_cases s destroys with ⟨-, heq⟩ | ⟨-, -, heq⟩
  · rw [heq]
    refine ⟨h.command, h.status, fun hstop hwait => ?_⟩
    rcases h.stop hstop hwait with hbit | ⟨other, hother⟩
    · exact .inl hbit
    · cases hcall.symm.trans hother
  · rw [heq]
    exact ⟨h.command, h.status, fun _ _ => .inr ⟨destroys, rfl⟩⟩

theorem woken_step {S : Stream Command Turn Status} (s : State Command Status)
    (e : Event Command Turn Status) (h : Woken S s) (he : Enabled S s e) : Woken S (next S s e) := by
  cases e with
  | prepare frameSize framesCount launch =>
    rcases prepareForWriting_cases s frameSize framesCount launch with
      ⟨flags, -, heq, -⟩ | ⟨-, -, -, -, mStatus, heq⟩
    · simp only [next, heq]
      exact ⟨h.command, h.status, h.stop⟩
    · simp only [next, heq]
      exact ⟨fun hsome => absurd rfl hsome, fun hsome => absurd rfl hsome, fun _ => nofun⟩
  | close => exact woken_close h he false
  | destroy => exact woken_close h he true
  | wake =>
    refine ⟨fun _ => .inl (EventFlag.wake_self _ _), fun hsome => ?_,
      fun _ _ => .inl (EventFlag.wake_self _ _)⟩
    exact (h.status hsome).imp_left (EventFlag.wake_of_ne _ S.distinct.symm).trans
  | join =>
    refine ⟨h.command, h.status, fun hstop hwait => ?_⟩
    rcases h.stop hstop hwait with hbit | ⟨destroys, hwaking⟩
    · exact .inl hbit
    · cases he.1.symm.trans hwaking
  | runs =>
    obtain ⟨stage, hs, hruns⟩ := he
    simp only [next, Option.mem_def.mp hs, Option.map_some, Option.getD_some]
    exact woken_loopNext h hs hruns
  | waits woken =>
    cases woken with
    | true =>
      refine ⟨fun _ => .inr (.inr rfl), fun hsome => ?_, fun _ => nofun⟩
      rcases h.status hsome with hbit | hreceive | hwake
      · exact .inl ((EventFlag.take_of_ne _ S.distinct.symm).trans hbit)
      · exact .inr (.inl hreceive)
      · cases he.1.symm.trans hwake
    | false => exact h.moves he.1 rfl nofun nofun nofun rfl .inl rfl rfl rfl rfl
  | serves turn => exact h.moves he rfl nofun nofun nofun rfl .inl rfl rfl rfl rfl
  | send command => exact ⟨fun _ => .inr (.inl (Nat.succ_pos _)), h.status, h.stop⟩
  | sendWakes =>
    refine ⟨fun _ => .inl (EventFlag.wake_self _ _), fun hsome => ?_,
      fun _ _ => .inl (EventFlag.wake_self _ _)⟩
    exact (h.status hsome).imp_left (EventFlag.wake_of_ne _ S.distinct.symm).trans
  | clientWaits =>
    refine ⟨fun hsome => ?_, fun _ => .inr (.inl (Nat.succ_pos _)), fun hstop hwait => ?_⟩
    · exact (h.command hsome).imp_left (EventFlag.take_of_ne _ S.distinct).trans
    · exact (h.stop hstop hwait).imp_left (EventFlag.take_of_ne _ S.distinct).trans
  | receive => exact ⟨h.command, fun hsome => absurd rfl hsome, h.stop⟩

theorem held_constructed (mStatus : Status) : Held (constructed mStatus : State Command Status) :=
  ⟨rfl, nofun, nofun, fun _ => ⟨rfl, rfl⟩, fun hcall => absurd rfl hcall⟩

theorem woken_constructed (S : Stream Command Turn Status) (mStatus : Status) :
    Woken S (constructed mStatus) :=
  ⟨fun hsome => absurd rfl hsome, fun hsome => absurd rfl hsome, nofun⟩

/-- What only the calls change. -/
structure SameControl (s t : State Command Status) : Prop where
  mIsClosed : t.mIsClosed = s.mIsClosed
  mStop : t.mStop = s.mStop
  mDataMQ : t.mDataMQ = s.mDataMQ

/-- The calls of the stream's client, which come one at a time. -/
def Event.calls : Event Command Turn Status → Bool
  | .prepare _ _ _ | .close | .destroy => true
  | _ => false

theorem sameControl_loopNext (S : Stream Command Turn Status) (s : State Command Status)
    (stage : Stage Command) : SameControl s (loopNext S s stage) := by
  cases stage with
  | reading =>
    simp only [loopNext]
    split <;> exact ⟨rfl, rfl, rfl⟩
  | answering =>
    simp only [loopNext]
    split <;> exact ⟨rfl, rfl, rfl⟩
  | _ => exact ⟨rfl, rfl, rfl⟩

theorem sameControl_next (S : Stream Command Turn Status) (s : State Command Status)
    {e : Event Command Turn Status} (he : e.calls = false) : SameControl s (next S s e) := by
  cases e with
  | runs =>
    cases hs : s.thread with
    | none =>
      simp only [next, hs, Option.map_none, Option.getD_none]
      exact ⟨rfl, rfl, rfl⟩
    | some stage =>
      simp only [next, hs, Option.map_some, Option.getD_some]
      exact sameControl_loopNext S s stage
  | waits woken => cases woken <;> exact ⟨rfl, rfl, rfl⟩
  | prepare frameSize framesCount launch => cases he
  | close => cases he
  | destroy => cases he
  | _ => exact ⟨rfl, rfl, rfl⟩

end AudioStreams
