import VendorMediatek.CStrings
import VendorMediatek.LabelledRuns

/-!
# The command threads of the audio streams

`WriteThread` and `ReadThread` keep one status for their whole life; each command sets part of it,
and all of it is written to the status queue. The reply is a union, here its 64-bit words.
-/

namespace AudioCommandThreads

open LabelledRuns

inductive Result where
  | OK | NOT_INITIALIZED | INVALID_ARGUMENTS | INVALID_STATE | NOT_SUPPORTED
  deriving DecidableEq, Repr

def EINVAL : ℤ := 22
def ENODATA : ℤ := 61
def ENODEV : ℤ := 19
def ENOSYS : ℤ := 38

/-- The status is an int: of a longer value only the low 32 bits come in. -/
def analyzeStatus (result : ℤ) : Result :=
  let status := CStrings.toInt result
  if status = 0 then .OK
  else if status = -EINVAL then .INVALID_ARGUMENTS
  else if status = -ENODATA then .INVALID_STATE
  else if status = -ENODEV then .NOT_INITIALIZED
  else if status = -ENOSYS then .NOT_SUPPORTED
  else .INVALID_STATE

structure TimeSpec where
  tvSec : UInt64
  tvNSec : UInt64
  deriving DecidableEq, Repr

/-! ## StreamOut -/

inductive WriteCommand where
  | WRITE | GET_PRESENTATION_POSITION | GET_LATENCY
  | other (code : Int32)
  deriving DecidableEq, Repr

/-- written, and frames of presentationPosition, lie in the first word, latencyMs in its low half,
and the time of presentationPosition in the others. -/
structure WriteReply where
  word0 : UInt64
  word1 : UInt64
  word2 : UInt64
  deriving DecidableEq, Repr

namespace WriteReply

def written (r : WriteReply) : UInt64 := r.word0

def latencyMs (r : WriteReply) : UInt32 := r.word0.toUInt32

def presentationPosition (r : WriteReply) : UInt64 × TimeSpec := (r.word0, ⟨r.word1, r.word2⟩)

def setWritten (r : WriteReply) (value : UInt64) : WriteReply := { r with word0 := value }

def setLatencyMs (r : WriteReply) (value : UInt32) : WriteReply :=
  { r with word0 := (r.word0 >>> 32 <<< 32) ||| value.toUInt64 }

end WriteReply

/-- The member of the union that a command has its reply in. -/
inductive WriteMember where
  | written (bytes : UInt64)
  | latencyMs (latency : UInt32)
  | presentationPosition (frames : UInt64) (timeStamp : TimeSpec)
  | none
  deriving DecidableEq, Repr

def WriteReply.member (r : WriteReply) : WriteCommand → WriteMember
  | .WRITE => .written r.written
  | .GET_LATENCY => .latencyMs r.latencyMs
  | .GET_PRESENTATION_POSITION =>
    .presentationPosition r.presentationPosition.1 r.presentationPosition.2
  | .other _ => .none

structure WriteStatus where
  retval : Result
  replyTo : WriteCommand
  reply : WriteReply
  deriving DecidableEq, Repr

/-- A command, whether the data queue can be read, and what the HAL returns to write and
get_latency. -/
structure WriteTurn where
  command : WriteCommand
  dataRead : Bool
  writeResult : ℤ
  latency : UInt32
  deriving DecidableEq, Repr

def doWrite (mStatus : WriteStatus) (t : WriteTurn) : WriteStatus :=
  let mStatus := { mStatus with retval := .OK, reply := mStatus.reply.setWritten 0 }
  if t.dataRead then
    if 0 ≤ t.writeResult then
      { mStatus with reply := mStatus.reply.setWritten (UInt64.ofInt t.writeResult) }
    else { mStatus with retval := analyzeStatus t.writeResult }
  else mStatus

def doGetLatency (mStatus : WriteStatus) (t : WriteTurn) : WriteStatus :=
  { mStatus with retval := .OK, reply := mStatus.reply.setLatencyMs t.latency }

/-- One turn of WriteThread::threadLoop; the status after it is the message. -/
def writeTurn (mStatus : WriteStatus) (t : WriteTurn) : WriteStatus :=
  let mStatus := { mStatus with replyTo := t.command }
  match t.command with
  | .WRITE => doWrite mStatus t
  | .GET_PRESENTATION_POSITION => mStatus
  | .GET_LATENCY => doGetLatency mStatus t
  | .other _ => { mStatus with retval := .NOT_SUPPORTED }

def getLatency (latency : UInt32) : UInt32 := latency

def getPresentationPosition : Result × UInt64 × TimeSpec := (.OK, 0, ⟨0, 0⟩)

/-- What the direct method says that a command of the queue stands for. -/
def WriteTurn.direct (t : WriteTurn) : Option (Result × WriteMember) :=
  match t.command with
  | .GET_LATENCY => some (.OK, .latencyMs (getLatency t.latency))
  | .GET_PRESENTATION_POSITION =>
    let (retval, frames, timeStamp) := getPresentationPosition
    some (retval, .presentationPosition frames timeStamp)
  | _ => none

/-! ## StreamIn -/

inductive ReadCommand where
  | READ | GET_CAPTURE_POSITION
  | other (code : Int32)
  deriving DecidableEq, Repr

/-- read and frames of capturePosition lie in the first word, its time in the second. -/
structure ReadReply where
  word0 : UInt64
  word1 : UInt64
  deriving DecidableEq, Repr

namespace ReadReply

def read (r : ReadReply) : UInt64 := r.word0

def capturePosition (r : ReadReply) : UInt64 × UInt64 := (r.word0, r.word1)

end ReadReply

inductive ReadMember where
  | read (bytes : UInt64)
  | capturePosition (frames time : UInt64)
  | none
  deriving DecidableEq, Repr

def ReadReply.member (r : ReadReply) : ReadCommand → ReadMember
  | .READ => .read r.read
  | .GET_CAPTURE_POSITION => .capturePosition r.capturePosition.1 r.capturePosition.2
  | .other _ => .none

structure ReadStatus where
  retval : Result
  replyTo : ReadCommand
  reply : ReadReply
  deriving DecidableEq, Repr

structure ReadTurn where
  command : ReadCommand
  readResult : ℤ
  deriving DecidableEq, Repr

def doRead (mStatus : ReadStatus) (t : ReadTurn) : ReadStatus :=
  let mStatus := { mStatus with retval := .OK }
  if 0 ≤ t.readResult then
    { mStatus with reply := { mStatus.reply with word0 := UInt64.ofInt t.readResult } }
  else { mStatus with retval := analyzeStatus t.readResult }

/-- The result, and the frames and the time as they are left. -/
def getCapturePositionImpl (position : UInt64 × UInt64) : Result × UInt64 × UInt64 :=
  (.NOT_SUPPORTED, position)

def doGetCapturePosition (mStatus : ReadStatus) : ReadStatus :=
  let (retval, frames, time) := getCapturePositionImpl mStatus.reply.capturePosition
  { mStatus with retval := retval, reply := ⟨frames, time⟩ }

/-- One turn of ReadThread::threadLoop. -/
def readTurn (mStatus : ReadStatus) (t : ReadTurn) : ReadStatus :=
  let mStatus := { mStatus with replyTo := t.command }
  match t.command with
  | .READ => doRead mStatus t
  | .GET_CAPTURE_POSITION => doGetCapturePosition mStatus
  | .other _ => { mStatus with retval := .NOT_SUPPORTED }

def getCapturePosition : Result × UInt64 × UInt64 := getCapturePositionImpl (0, 0)

def ReadTurn.direct (t : ReadTurn) : Option (Result × ReadMember) :=
  match t.command with
  | .GET_CAPTURE_POSITION =>
    let (retval, frames, time) := getCapturePosition
    some (retval, .capturePosition frames time)
  | _ => none

/-! ## What a message answers -/

/-- A thread takes a turn whenever a command is there. -/
def writeThread : System WriteStatus WriteTurn := ⟨fun _ _ => True, writeTurn⟩

def readThread : System ReadStatus ReadTurn := ⟨fun _ _ => True, readTurn⟩

/-- The message of a turn answers its own command alone: what it says is the same after any other
commands, and what the direct method says. -/
structure WriteAnswersAlone (start mStatus : WriteStatus) (t : WriteTurn) : Prop where
  replyTo : (writeTurn mStatus t).replyTo = t.command
  retval : writeThread.ForgetsRun (fun s => (writeTurn s t).retval) start mStatus
  reply : (writeTurn mStatus t).retval = .OK →
    writeThread.ForgetsRun (fun s => (writeTurn s t).reply.member t.command) start mStatus
  direct : ∀ answer ∈ t.direct,
    ((writeTurn mStatus t).retval, (writeTurn mStatus t).reply.member t.command) = answer

structure ReadAnswersAlone (start mStatus : ReadStatus) (t : ReadTurn) : Prop where
  replyTo : (readTurn mStatus t).replyTo = t.command
  retval : readThread.ForgetsRun (fun s => (readTurn s t).retval) start mStatus
  reply : (readTurn mStatus t).retval = .OK →
    readThread.ForgetsRun (fun s => (readTurn s t).reply.member t.command) start mStatus
  direct : ∀ answer ∈ t.direct,
    ((readTurn mStatus t).retval, (readTurn mStatus t).reply.member t.command) = answer

/-- The presentation position has no code of its own in the loop. -/
def WriteTurn.Covered (t : WriteTurn) : Prop := t.command ≠ .GET_PRESENTATION_POSITION

/-- A failed read must not look like success as an int, and the position that is left as it is must
be the one the direct method starts from. -/
def ReadTurn.Covered (mStatus : ReadStatus) (t : ReadTurn) : Prop :=
  match t.command with
  | .READ => 0 ≤ t.readResult ∨ CStrings.toInt t.readResult ≠ 0
  | .GET_CAPTURE_POSITION => mStatus.reply.capturePosition = (0, 0)
  | .other _ => True

theorem analyzeStatus_eq_OK_iff (result : ℤ) :
    analyzeStatus result = .OK ↔ CStrings.toInt result = 0 := by
  simp only [analyzeStatus]
  split_ifs with h <;> simp [h]

@[simp] theorem latencyMs_setLatencyMs (r : WriteReply) (value : UInt32) :
    (r.setLatencyMs value).latencyMs = value := by
  apply UInt32.toBitVec_inj.mp
  ext i
  simp [WriteReply.latencyMs, WriteReply.setLatencyMs]

@[simp] theorem written_setWritten (r : WriteReply) (value : UInt64) :
    (r.setWritten value).written = value := rfl

theorem writeTurn_replyTo (mStatus : WriteStatus) (t : WriteTurn) :
    (writeTurn mStatus t).replyTo = t.command := by
  unfold writeTurn doWrite doGetLatency
  cases t.command <;> grind

theorem readTurn_replyTo (mStatus : ReadStatus) (t : ReadTurn) :
    (readTurn mStatus t).replyTo = t.command := by
  unfold readTurn doRead doGetCapturePosition
  cases t.command <;> grind

/-! ## The write thread -/

theorem writeTurn_retval_const {t : WriteTurn} (h : t.Covered) (s s' : WriteStatus) :
    (writeTurn s t).retval = (writeTurn s' t).retval := by
  obtain ⟨command, dataRead, writeResult, latency⟩ := t
  cases command with
  | WRITE =>
    simp only [writeTurn, doWrite]
    split_ifs <;> rfl
  | GET_PRESENTATION_POSITION => exact absurd rfl h
  | GET_LATENCY => rfl
  | other code => rfl

theorem writeTurn_member_const {t : WriteTurn} (h : t.Covered) (s s' : WriteStatus) :
    (writeTurn s t).reply.member t.command = (writeTurn s' t).reply.member t.command := by
  obtain ⟨command, dataRead, writeResult, latency⟩ := t
  cases command with
  | WRITE =>
    simp only [writeTurn, doWrite, WriteReply.member]
    split_ifs <;> rfl
  | GET_PRESENTATION_POSITION => exact absurd rfl h
  | GET_LATENCY => simp [writeTurn, doGetLatency, WriteReply.member]
  | other code => rfl

theorem writeTurn_direct {t : WriteTurn} (h : t.Covered) (s : WriteStatus) :
    ∀ answer ∈ t.direct,
      ((writeTurn s t).retval, (writeTurn s t).reply.member t.command) = answer := by
  obtain ⟨command, dataRead, writeResult, latency⟩ := t
  cases command with
  | GET_PRESENTATION_POSITION => exact absurd rfl h
  | GET_LATENCY =>
    simp [WriteTurn.direct, writeTurn, doGetLatency, WriteReply.member, getLatency]
  | WRITE => simp [WriteTurn.direct]
  | other code => simp [WriteTurn.direct]

/-- The result that the position is answered with is the last command's: an unknown code and a
latency lead to different ones. -/
theorem position_retval_left {t : WriteTurn} (h : ¬t.Covered) (start mStatus : WriteStatus) :
    ¬writeThread.ForgetsRun (fun s => (writeTurn s t).retval) start mStatus := by
  obtain ⟨command, dataRead, writeResult, latency⟩ := t
  obtain rfl : command = .GET_PRESENTATION_POSITION := of_not_not h
  exact not_forgetsRun writeThread [⟨.other 7, false, 0, 0⟩] [⟨.GET_LATENCY, false, 0, 0⟩]
    (by simp [writeThread, writeTurn, doGetLatency]) mStatus

theorem writeAnswersAlone_iff (start mStatus : WriteStatus) (t : WriteTurn) :
    WriteAnswersAlone start mStatus t ↔ t.Covered := by
  constructor
  · intro answers
    by_contra h
    exact position_retval_left h start mStatus answers.retval
  · intro h
    exact
      { replyTo := writeTurn_replyTo mStatus t
        retval := forgetsRun_of_const writeThread (writeTurn_retval_const h) start mStatus
        reply := fun _ => forgetsRun_of_const writeThread (writeTurn_member_const h) start mStatus
        direct := writeTurn_direct h mStatus }

/-! ## The read thread -/

theorem readTurn_retval_const (t : ReadTurn) (s s' : ReadStatus) :
    (readTurn s t).retval = (readTurn s' t).retval := by
  obtain ⟨command, readResult⟩ := t
  cases command with
  | READ =>
    simp only [readTurn, doRead]
    split_ifs <;> rfl
  | GET_CAPTURE_POSITION => rfl
  | other code => rfl

theorem read_member_const {t : ReadTurn} (hc : t.command = .READ) (h : 0 ≤ t.readResult)
    (s s' : ReadStatus) :
    (readTurn s t).reply.member t.command = (readTurn s' t).reply.member t.command := by
  obtain ⟨command, readResult⟩ := t
  subst hc
  simp only [readTurn, doRead, if_pos h, ReadReply.member, ReadReply.read]

/-- A read that fails with an int of 0 says OK over the count that is left there. -/
theorem read_member_left {t : ReadTurn} (hc : t.command = .READ) (h : ¬0 ≤ t.readResult)
    (start mStatus : ReadStatus) :
    ¬readThread.ForgetsRun (fun s => (readTurn s t).reply.member t.command) start mStatus := by
  obtain ⟨command, readResult⟩ := t
  subst hc
  have differ : UInt64.ofInt 0 ≠ 1 := by decide
  exact not_forgetsRun readThread [⟨.READ, 0⟩] [⟨.READ, 1⟩]
    (by simp [readThread, readTurn, doRead, h, ReadReply.member, ReadReply.read, differ]) mStatus

theorem read_retval_eq_OK {t : ReadTurn} (hc : t.command = .READ) (h : ¬0 ≤ t.readResult)
    (s : ReadStatus) : (readTurn s t).retval = .OK ↔ CStrings.toInt t.readResult = 0 := by
  obtain ⟨command, readResult⟩ := t
  subst hc
  simp only [readTurn, doRead, if_neg h]
  exact analyzeStatus_eq_OK_iff readResult

theorem readAnswersAlone_iff (start mStatus : ReadStatus) (t : ReadTurn) :
    ReadAnswersAlone start mStatus t ↔ t.Covered mStatus := by
  have retval := forgetsRun_of_const readThread (readTurn_retval_const t) start mStatus
  obtain ⟨command, readResult⟩ := t
  constructor
  · intro answers
    cases command with
    | READ =>
      by_contra h
      obtain ⟨negative, zero⟩ : ¬0 ≤ readResult ∧ CStrings.toInt readResult = 0 := by
        simpa [ReadTurn.Covered] using h
      have ok := (read_retval_eq_OK (t := ⟨.READ, readResult⟩) rfl negative mStatus).mpr zero
      exact read_member_left rfl negative start mStatus (answers.reply ok)
    | GET_CAPTURE_POSITION =>
      have same := answers.direct _ rfl
      simpa [readTurn, doGetCapturePosition, getCapturePosition, getCapturePositionImpl,
        ReadReply.member, ReadReply.capturePosition, ReadTurn.Covered] using same
    | other code => trivial
  · intro h
    refine ⟨readTurn_replyTo mStatus _, retval, fun ok => ?_, ?_⟩
    · cases command with
      | READ =>
        -- a failed read that is covered has not said OK
        have succeeded : 0 ≤ readResult := by
          by_contra failed
          have zero := (read_retval_eq_OK rfl failed mStatus).mp ok
          exact h.elim failed fun nonzero => nonzero zero
        exact forgetsRun_of_const readThread (read_member_const rfl succeeded) start mStatus
      | GET_CAPTURE_POSITION => cases ok
      | other code => exact forgetsRun_of_const readThread (fun _ _ => rfl) start mStatus
    · cases command with
      | GET_CAPTURE_POSITION =>
        have zero : mStatus.reply.capturePosition = (0, 0) := h
        simp_all [ReadTurn.direct, readTurn, doGetCapturePosition, getCapturePosition,
          getCapturePositionImpl, ReadReply.member, ReadReply.capturePosition]
      | READ => simp [ReadTurn.direct]
      | other code => simp [ReadTurn.direct]

/-! ## Every message -/

/-- In every run of the two threads every message answers its own command alone exactly when every
turn is covered. -/
theorem messages_answer_alone_iff (writeStart : WriteStatus) (writes : List WriteTurn)
    (readStart : ReadStatus) (reads : List ReadTurn) :
    (writeThread.Along (WriteAnswersAlone writeStart) writeStart writes ∧
        readThread.Along (ReadAnswersAlone readStart) readStart reads) ↔
      (∀ t ∈ writes, t.Covered) ∧
        readThread.Along (fun mStatus t => t.Covered mStatus) readStart reads := by
  have write : writeThread.Along (WriteAnswersAlone writeStart) writeStart writes ↔
      ∀ t ∈ writes, t.Covered := by
    rw [← along_events writeThread WriteTurn.Covered writeStart writes]
    exact along_congr writeThread (writeAnswersAlone_iff writeStart) writeStart writes
  have read := along_congr readThread (readAnswersAlone_iff readStart) readStart reads
  exact and_congr write read

/-- After a write that failed the position is answered with its error. -/
theorem position_answers_failed_write :
    ¬∀ (writeStart : WriteStatus) (writes : List WriteTurn) (readStart : ReadStatus)
        (reads : List ReadTurn),
      writeThread.Along (WriteAnswersAlone writeStart) writeStart writes ∧
        readThread.Along (ReadAnswersAlone readStart) readStart reads := by
  intro alone
  have along := (alone ⟨.OK, .WRITE, ⟨0, 0, 0⟩⟩
    [⟨.WRITE, true, -EINVAL, 0⟩, ⟨.GET_PRESENTATION_POSITION, false, 0, 0⟩]
    ⟨.OK, .READ, ⟨0, 0⟩⟩ []).1
  have answer := along.2.1.direct _ rfl
  exact absurd answer (by decide)

end AudioCommandThreads
