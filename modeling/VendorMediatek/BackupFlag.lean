import VendorMediatek.BackupRegion
import VendorMediatek.ByteFile
import VendorMediatek.CheckSum

/-!
# The backup flag file

`NVM_AddBackupNum` counts modified files in the backup flag file, four bytes with a checksum behind
them. A file that fails `NVM_CheckBackFlag` is truncated, and the count begins again with that of
the bin region. Automatic backup is on and the calls on the flag file succeed.
-/

namespace BackupFlag

open ByteFile CheckSum

/-- One byte, with the sum and the flag. -/
def backflagStep (acc : UInt8 × Bool) (cBuf : UInt8) : UInt8 × Bool :=
  if acc.2 then (acc.1 ^^^ cBuf, false) else (acc.1 + cBuf, true)

def cChecksum (bytes : List UInt8) : UInt8 := (bytes.foldl backflagStep (0, true)).1

def nvmCheckBackFlag (content : List UInt8) : Bool :=
  content.length = 5 ∧ readAt content 4 1 = [cChecksum (readAt content 0 4)]

/-- It reads from the start and then writes where it has read to, unless four bytes are missing. -/
def nvmComputeBackflagCheckSum (content : List UInt8) : Bool × List UInt8 :=
  if (readAt content 0 4).length = 4 then
    (true, writeAt content 4 [cChecksum (readAt content 0 4)])
  else (false, content)

/-- An unsigned int, lowest byte first. -/
def uintBytes (x : UInt32) : List UInt8 :=
  [x.toUInt8, (x >>> 8).toUInt8, (x >>> 16).toUInt8, (x >>> 24).toUInt8]

/-- What NVM_GetBackupFileNum leaves in iSavedFileNum, none where it fails. -/
def binRegionCount (p : BackupRegion.Partition) : Option UInt32 :=
  (BackupRegion.nvmGetBackupFileNum p).map fun r => UInt32.ofNat r.iAPBackupFileNum

def binBase : Option UInt32 → UInt32
  | none => 0
  | some iSavedFileNum => if iSavedFileNum = 0xFFFFFFFF then 0 else iSavedFileNum

/-- The number that is added, and what the bin region yields at that time. -/
structure AddCall where
  iModifiedFileNum : UInt32
  bin : Option UInt32

/-- The content before the write, and the count that is in force. -/
def readFlag (bin : Option UInt32) : Option (List UInt8) → List UInt8 × UInt32
  | none => ([], 0)
  | some content =>
    if nvmCheckBackFlag content then (content, leWord (readAt content 0 4)) else ([], binBase bin)

/-- The result, and the flag file afterwards. It is unlinked where the checksum fails. -/
def nvmAddBackupNum (c : AddCall) (file : Option (List UInt8)) : Bool × Option (List UInt8) :=
  if c.iModifiedFileNum = 0 then (false, file)
  else
    let (content, iSavedFileNum) := readFlag c.bin file
    match nvmComputeBackflagCheckSum
        (writeAt content 0 (uintBytes (iSavedFileNum + c.iModifiedFileNum))) with
    | (true, content) => (true, some content)
    | (false, _) => (false, none)

def run (file : Option (List UInt8)) (calls : List AddCall) : Option (List UInt8) :=
  calls.foldl (fun file c => (nvmAddBackupNum c file).2) file

/-! ## A valid file -/

/-- The count that stands in the file, or that the file is given. -/
def base (bin : Option UInt32) (file : Option (List UInt8)) : UInt32 := (readFlag bin file).2

/-- A corrupt file begins again with the count that stands in the bin region. -/
theorem base_corrupt {content : List UInt8} (h : nvmCheckBackFlag content = false)
    (p : BackupRegion.Partition) :
    base (binRegionCount p) (some content) =
      match BackupRegion.nvmGetBackupFileNum p with
      | none => 0
      | some r =>
        if UInt32.ofNat r.iAPBackupFileNum = 0xFFFFFFFF then 0
        else UInt32.ofNat r.iAPBackupFileNum := by
  have hbase : base (binRegionCount p) (some content) = binBase (binRegionCount p) := by
    simp [base, readFlag, h]
  rw [hbase, binRegionCount]
  cases BackupRegion.nvmGetBackupFileNum p <;> rfl

end BackupFlag
