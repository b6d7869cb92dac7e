import VendorMediatek.FlashHistory
import VendorMediatek.LabelledRuns

/-!
# The history log

`NVM_HistoryLog` and `NVM_HistoryLog_Time` write a journal page into a ring of blocks and count it
in the super page of the last block. Any system call or allocation may fail; a seek beyond INT_MAX
does, as its result is stored in an int.
-/

namespace HistoryLog

open FlashHistory

/-- What the device reports and nvram_platform_log_block. -/
structure Geometry where
  size : ℕ
  erasesize : ℕ
  writesize : ℕ
  logBlock : ℕ
  writesize_pos : 0 < writesize
  erasesize_pos : 0 < erasesize
  writesize_dvd : writesize ∣ erasesize
  erasesize_dvd : erasesize ∣ size
  two_blocks : 2 ≤ logBlock
  fits : logBlock * erasesize ≤ size

structure Config extends Geometry where
  layoutVersion : ℤ
  emmcOrUfs : Bool

def nvramJournalHandleSize : ℕ := 512
def nvramJournalMagic : ℕ := 0x5a5a7b7b
def nvramJournalSuperPage : ℕ := 0
def nvramJournalLogPage : ℕ := 1
def defaultLogLevel : ℕ := 1

/-- The system calls on the log device, in the order of a call. -/
inductive Op where
  | info
  | sequenceInfo | sequenceOpen | sequenceSeek | sequenceRead
  | logErase | logOpen | logSeek | logWrite
  | superInfo | superErase | superOpen | superSeek | superWrite
  deriving DecidableEq, Repr

inductive Alloc where
  | sequenceJournal | sequenceBuffer
  | journal | buffer
  | superJournal | superBuffer
  deriving DecidableEq, Repr

/-- What fails in a call. A failed erase leaves `left` in the block, and a failed write has
written the first `written` bytes of the page, but not all. -/
structure Faults where
  op : Op → Bool
  alloc : Alloc → Bool
  left : ℕ → UInt8
  written : ℕ

def noFault : Faults := ⟨fun _ => false, fun _ => false, fun _ => 0xFF, 0⟩

/-- The bytes of the partition. Beside them, for the proofs only, what was erased and written, the
record pages among that, and the system calls made, each with the latest first. -/
structure Device where
  bytes : ℕ → UInt8
  touches : List Touch
  records : List ℕ
  attempted : List Op

def untouched (bytes : ℕ → UInt8) : Device := ⟨bytes, [], [], []⟩

/-! ## The journal pages -/

def word (n : ℕ) : List UInt8 :=
  [UInt8.ofNat n, UInt8.ofNat (n / 256), UInt8.ofNat (n / 65536), UInt8.ofNat (n / 16777216)]

def wordAt (bytes : ℕ → UInt8) (off : ℕ) : ℕ :=
  (bytes off).toNat + 256 * (bytes (off + 1)).toNat + 65536 * (bytes (off + 2)).toNat +
    16777216 * (bytes (off + 3)).toNat

/-- An unsigned int that has wrapped. -/
def uint32 (n : ℕ) : ℕ := n % 4294967296

/-- A page of a cleared buffer with a journal handle; `body` is what follows its h_sequence. -/
def journalPage (c : Config) (type sequence : ℕ) (body : List UInt8) : List UInt8 :=
  (word nvramJournalMagic ++ word type ++ word sequence ++ body ++
    List.replicate c.writesize 0).take c.writesize

def overwrite (bytes : ℕ → UInt8) (off : ℕ) (data : List UInt8) : ℕ → UInt8 := fun i =>
  if off ≤ i ∧ i < off + data.length then data.getD (i - off) 0 else bytes i

def fill (bytes : ℕ → UInt8) (start len : ℕ) (content : ℕ → UInt8) : ℕ → UInt8 := fun i =>
  if start ≤ i ∧ i < start + len then content i else bytes i

/-- The handle in the super page. -/
def sequenceAt (bytes : ℕ → UInt8) (superOffset : ℕ) : ℕ :=
  if wordAt bytes superOffset = nvramJournalMagic then wordAt bytes (superOffset + 8) else 0

namespace Config

variable (c : Config)

def superOffset : ℕ := c.size - c.erasesize
def startAddress : ℕ := c.size - c.logBlock * c.erasesize
def writepagesPerBlock : ℕ := c.erasesize / c.writesize

def recordOffset (sequence : ℕ) : ℕ :=
  c.startAddress + c.writesize * (sequence % (c.writepagesPerBlock * (c.logBlock - 1)))

/-- The tests of the device's sizes. -/
def rejects : Prop := c.writesize < nvramJournalHandleSize ∨ c.size = 0

instance : Decidable c.rejects := inferInstanceAs (Decidable (_ ∨ _))

end Config

/-! ## The functions -/

section Functions

variable (c : Config) (fault : Faults)

def Device.logged (d : Device) (op : Op) : Device := { d with attempted := op :: d.attempted }

/-- A system call that reads, and the result of the function where it fails. -/
def attempt {α : Type} (op : Op) (failed : α) (k : Device → α × Device) (d : Device) : α × Device :=
  if fault.op op then (failed, d.logged op) else k (d.logged op)

def allocate {α : Type} (a : Alloc) (failed : α) (k : Device → α × Device) (d : Device) : α × Device :=
  if fault.alloc a then (failed, d) else k d

def nvmEraseDeviceBlock (op : Op) (start : ℕ) (k : Device → Bool × Device) (d : Device) :
    Bool × Device :=
  if fault.op op then
    (false, { d.logged op with bytes := fill d.bytes start c.erasesize fault.left })
  else
    k { d.logged op with
      bytes := fill d.bytes start c.erasesize fun _ => 0xFF
      touches := .erase start c.erasesize :: d.touches }

def writePage (op : Op) (off : ℕ) (page : List UInt8) (k : Device → Bool × Device) (d : Device) :
    Bool × Device :=
  if fault.op op then
    (false, { d.logged op with
      bytes := overwrite d.bytes off (page.take (min fault.written (c.writesize - 1))) })
  else
    k { d.logged op with
      bytes := overwrite d.bytes off page
      touches := .write off c.writesize :: d.touches }

/-- The -1 that an unsigned int returns. -/
def minusOne : ℕ := 4294967295

def nvmGetSequenceNum (d : Device) : ℕ × Device :=
  if c.layoutVersion = 1 then (1, d)
  else if c.layoutVersion ≠ 0 then (0, d)
  else
    attempt fault .sequenceInfo minusOne (fun d =>
      if c.rejects then (minusOne, d)
      else
        allocate fault .sequenceJournal 0 (allocate fault .sequenceBuffer minusOne
          (attempt fault .sequenceOpen minusOne (attempt fault .sequenceSeek minusOne
            (attempt fault .sequenceRead minusOne fun d =>
              (sequenceAt d.bytes c.superOffset, d))))) d) d

def nvmIncSequenceNum (sequence : ℕ) (body : List UInt8) (d : Device) : Bool × Device :=
  if c.layoutVersion = 1 then (true, d)
  else if c.layoutVersion ≠ 0 then (false, d)
  else
    let page := journalPage c nvramJournalSuperPage (uint32 (sequence + 1)) body
    let rewrite := attempt fault .superOpen false (attempt fault .superSeek false
      (writePage c fault .superWrite c.superOffset page fun d => (true, d)))
    attempt fault .superInfo false (fun d =>
      if c.rejects then (false, d)
      else
        allocate fault .superJournal false (allocate fault .superBuffer false fun d =>
          if c.emmcOrUfs then rewrite d
          else nvmEraseDeviceBlock c fault .superErase c.superOffset rewrite d) d) d

/-- What a call brings along: its level, whether NVM_HistoryLog_add_file finds the files it is
asked for, and the rest of the two pages (texts and times). -/
structure Call where
  level : ℕ
  addsFiles : Bool
  body : List UInt8
  superBody : List UInt8
  deriving DecidableEq, Repr

/-- What follows the erase of a block: the record page is made up and written, and counted. -/
def writeRecord (sequence : ℕ) (call : Call) : Device → Bool × Device :=
  let offset := c.recordOffset sequence
  let page := journalPage c nvramJournalLogPage sequence call.body
  allocate fault .journal false (allocate fault .buffer false fun d =>
    if call.addsFiles then
      attempt fault .logOpen false (attempt fault .logSeek false
        (writePage c fault .logWrite offset page fun d =>
          nvmIncSequenceNum c fault sequence call.superBody
            { d with records := offset :: d.records })) d
    else (false, d))

def historyLog (call : Call) (d : Device) : Bool × Device :=
  if call.level < defaultLogLevel then (true, d)
  else if c.layoutVersion = 1 then (true, d)
  else if c.layoutVersion ≠ 0 then (false, d)
  else
    attempt fault .info false (fun d =>
      if c.rejects then (false, d)
      else
        let sequence := (nvmGetSequenceNum c fault d).1
        let d := (nvmGetSequenceNum c fault d).2
        -- the sequence is unsigned
        if sequence < 0 then (false, d)
        else
          if c.emmcOrUfs = false ∧ sequence % c.writepagesPerBlock = 0 then
            nvmEraseDeviceBlock c fault .logErase (c.recordOffset sequence)
              (writeRecord c fault sequence call) d
          else writeRecord c fault sequence call d) d

def nvmHistoryLog (level : ℕ) (body superBody : List UInt8) : Device → Bool × Device :=
  historyLog c fault ⟨level, true, body, superBody⟩

def nvmHistoryLogTime (level : ℕ) (addsFiles : Bool) (body superBody : List UInt8) :
    Device → Bool × Device :=
  historyLog c fault ⟨level, addsFiles, body, superBody⟩

end Functions

end HistoryLog
