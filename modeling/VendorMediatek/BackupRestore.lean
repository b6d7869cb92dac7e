import VendorMediatek.AccessTraces
import VendorMediatek.BackupSearch

/-!
# Restoring from the backup region

`NVM_RestoreFromBinRegion_OneFile` up to the write of the data file, on any device: the search for
the bitmap, the map file behind the first good block and the data file in the good blocks that
follow, with what it touches of tempBuffer, tempBitmap1 and tempBitmap2 on the way.
-/

namespace BackupRestore

open HistoryLog (wordAt uint32)
open BackupRegion AccessTraces

/-- The geometry is what the device reports. With a block of fewer than four bytes the first word
is not read, so the number of blocks is an int where it is used. -/
structure Device extends Layout where
  length : ℕ
  bytes : ℕ → UInt8
  heap : ℕ → UInt8
  sizeT : ℕ
  offT : ℕ
  size_lt : size < 4294967296

/-- What the calls come to, the reads apart: NVM_Init, the check of the arguments and the open of
the device, the mallocs, the opens of the two files and the write of the map file. -/
structure Outcome where
  opened : Bool
  buffer : Bool
  buffers : Bool
  bitmap1 : Bool
  bitmap2 : Bool
  file : Bool
  map : Bool
  mapWritten : Bool
  dataBuffer : Bool

def int32 (n : ℕ) : ℤ := Int.bmod n 4294967296

namespace Device

variable (d : Device)

def Seekable (off : ℕ) : Prop := off < d.offT ∧ off ≤ d.length

instance (off : ℕ) : Decidable (d.Seekable off) := inferInstanceAs (Decidable (_ ∧ _))

def lseek (off position : ℕ) : ℕ := if d.Seekable off then off else position

def available (position len : ℕ) : ℕ := min len (d.length - position)

/-- A read into the buffer from start on. -/
def read (r : Reader) (start len : ℕ) : Reader where
  position := r.position + d.available r.position len
  buffer i := if start ≤ i ∧ i < start + d.available r.position len then
    d.bytes (r.position + (i - start)) else r.buffer i

/-- The first read, where pos is still 0. -/
def firstRead : Reader := d.read ⟨d.lseek 0 0, d.heap⟩ 0 d.blockSize

def iMemSize (iMapFileSize : ℕ) : ℕ :=
  let sum := (iMapFileSize + 12) % d.sizeT
  uint32 (if sum % d.writeSize ≠ 0 then (sum / d.writeSize + 1) * d.writeSize else sum)

def LargeMap : Prop := d.blockSize < d.iMemSize (wordAt d.firstRead.buffer 0)

instance : Decidable d.LargeMap := inferInstanceAs (Decidable (_ < _))

def iReservePos : ℕ := if d.LargeMap then 1 else 0
def iReserveBlockCount : ℕ := if d.LargeMap then 2 else 1

/-- The size of the second tempBuffer, an unsigned int. -/
def tempSize : ℕ := uint32 (d.blockSize * d.iReserveBlockCount)

def restoreOffset (iBlockNum : ℕ) : ℕ :=
  uint32 ((iBlockNum + 4294967296 - d.iReservePos) * d.blockSize)

end Device

/-! ## The bitmap -/

def FirstCopies (n : ℕ) (buffer : ℕ → UInt8) : Prop := ∀ i < n, buffer i = buffer (n + i)

instance (n : ℕ) : DecidablePred (FirstCopies n) := fun _ => inferInstanceAs (Decidable (∀ _ < n, _))

/-- The third copy is looked at only if the first two agree, the flag only if all three do. Each
copy goes to tempBitmap1 or tempBitmap2. -/
def copyAccesses (n size : ℕ) (buffer : ℕ → UInt8) : List Access :=
  [⟨size, 0, n⟩, ⟨n, 0, n⟩, ⟨size, n, n⟩, ⟨n, 0, n⟩] ++
    if FirstCopies n buffer then
      [⟨size, 2 * n, n⟩, ⟨n, 0, n⟩] ++ if ThreeCopies n buffer then [⟨size, 3 * n, 4⟩] else []
    else []

/-- The loop, from the last block down. -/
def search (d : Device) : ℕ → Reader → Traced Found
  | 0, _ => .exit
  | iBlockNum + 1, r =>
    let r := { r with position := d.lseek (d.restoreOffset iBlockNum) r.position }
    .touch [⟨d.tempSize, 0, d.blockSize⟩] <|
    .require (d.available r.position d.blockSize ≠ 0) <|
    let next := d.read r 0 d.blockSize
    .touch (copyAccesses d.nvRamBlockNum d.tempSize next.buffer) <|
    if ThreeCopies d.nvRamBlockNum next.buffer ∧ CarriesFlag d.nvRamBlockNum next.buffer then
      .pure ⟨iBlockNum, r.position, next.buffer⟩
    else search d iBlockNum next

def bitmapAccesses (n low high : ℕ) : List Access :=
  (List.range' low (high - low)).map fun i => ⟨n, i, 1⟩

def goodBlocks (bitmap : ℕ → UInt8) (low high : ℕ) : List ℕ :=
  (List.range' low (high - low)).filter fun i => bitmap i = 0

/-! ## The map file -/

def readMap (d : Device) (found : Found) (pos : ℕ) : Traced Reader :=
  let position := d.lseek (uint32 (pos * d.blockSize))
    (found.readAt + d.available found.readAt d.blockSize)
  .touch [⟨d.tempSize, 0, d.tempSize⟩] <|
  .require (d.available position d.tempSize ≠ 0) <|
  .pure (d.read ⟨position, found.bitmap⟩ 0 d.tempSize)

/-- The two sizes and the two numbers behind the map file. -/
def headerAccesses (size iMapFileSize : ℕ) : List Access :=
  [⟨size, 0, 4⟩, ⟨size, 4, 4⟩, ⟨size, 12 + iMapFileSize, 4⟩, ⟨size, 12 + iMapFileSize + 4, 2⟩]

/-! ## The data file -/

def iReadTime (d : Device) (iDatFileSize : ℕ) : ℕ :=
  if iDatFileSize % d.blockSize ≠ 0 then iDatFileSize / d.blockSize + 1
  else iDatFileSize / d.blockSize

/-- The size of the third tempBuffer. -/
def dataSize (d : Device) (iDatFileSize : ℕ) : ℕ :=
  uint32 (if iDatFileSize % d.blockSize ≠ 0 then (iDatFileSize / d.blockSize + 1) * d.blockSize
    else iDatFileSize)

/-- The reads that are still to do, the number of the next one, and the block it is of. What lseek
returns is compared as an int. -/
def readBlocks (d : Device) (found : Found) (size : ℕ) :
    ℕ → ℕ → ℕ → Reader → Traced (List ℕ × Reader)
  | 0, _, _, r => .pure ([], r)
  | k + 1, i, pos, r =>
    let off := uint32 (pos * d.blockSize)
    let start := uint32 (i * d.blockSize)
    let r := { r with position := d.lseek off r.position }
    .require ((if d.Seekable off then int32 off else -1) = int32 off) <|
    .touch [⟨size, start, d.blockSize⟩] <|
    .require (d.available r.position d.blockSize = d.blockSize) <|
    if k = 0 then .pure ([pos], d.read r start d.blockSize)
    else
      match (goodBlocks found.bitmap (pos + 1) found.iBlockNum).head? with
      | none => .touch (bitmapAccesses d.nvRamBlockNum (pos + 1) found.iBlockNum) .exit
      | some j =>
        .touch (bitmapAccesses d.nvRamBlockNum (pos + 1) (j + 1)) <|
        (readBlocks d found size k (i + 1) j (d.read r start d.blockSize)).bind fun x =>
        .pure (pos :: x.1, x.2)

/-- What the function has come to when it writes the data file: the bitmap, the block of the map
file and what was read from there, and the data blocks with what was read from them. -/
structure Restored where
  found : Found
  pos : ℕ
  map : ℕ → UInt8
  blocks : List ℕ
  data : ℕ → UInt8

def Restored.iMapFileSize (r : Restored) : ℕ := wordAt r.map 0
def Restored.iDatFileSize (r : Restored) : ℕ := wordAt r.map 4

/-- Where the first loop starts behind iBlockNum it is not at its end, and pos stays. -/
def restoreData (d : Device) (found : Found) (pos : ℕ) (r : Reader) : Traced Restored :=
  let iDatFileSize := wordAt r.buffer 4
  let low := pos + 1 + d.iReservePos
  let good := goodBlocks found.bitmap low found.iBlockNum
  .touch (bitmapAccesses d.nvRamBlockNum low found.iBlockNum) <|
  .require (low ≤ found.iBlockNum → good ≠ []) <|
  .require (iDatFileSize ≤ uint32 (good.length * d.blockSize)) <|
  (readBlocks d found (dataSize d iDatFileSize) (iReadTime d iDatFileSize) 0 (good.headD pos)
    ⟨r.position, d.heap⟩).bind fun x =>
  .touch [⟨dataSize d iDatFileSize, 0, iDatFileSize⟩] <|
  .pure ⟨found, pos, r.buffer, x.1, x.2.buffer⟩

def restoreFrom (d : Device) (o : Outcome) (found : Found) : Traced Restored :=
  .touch (bitmapAccesses d.nvRamBlockNum 0 d.nvRamBlockNum) <|
  match mapBlock found.bitmap found.iBlockNum with
  | none => .exit
  | some pos =>
    (readMap d found pos).bind fun r =>
    .touch (headerAccesses d.tempSize (wordAt r.buffer 0)) <|
    .require (o.file ∧ o.map) <|
    .touch [⟨d.tempSize, 12, wordAt r.buffer 0⟩] <|
    .require (o.mapWritten ∧ o.dataBuffer) <|
    restoreData d found pos r

def Outcome.Started (o : Outcome) (d : Device) : Prop :=
  o.opened ∧ d.blockSize ≠ 0 ∧ d.Valid ∧ o.buffer

instance (o : Outcome) (d : Device) : Decidable (o.Started d) :=
  inferInstanceAs (Decidable (_ ∧ _ ∧ _ ∧ _))

/-- A writeSize of 0 ends the program in a division. -/
def Outcome.Allocated (o : Outcome) (d : Device) : Prop :=
  d.writeSize ≠ 0 ∧ o.buffers ∧ o.bitmap1 ∧ o.bitmap2

instance (o : Outcome) (d : Device) : Decidable (o.Allocated d) :=
  inferInstanceAs (Decidable (_ ∧ _ ∧ _ ∧ _))

def searchBitmap (d : Device) : Traced Found :=
  search d d.nvRamBlockNum ⟨d.firstRead.position, d.heap⟩

def nvmRestoreFromBinRegionOneFile (d : Device) (o : Outcome) : Traced Restored :=
  .require (o.Started d) <|
  .touch [⟨d.blockSize, 0, d.blockSize⟩, ⟨d.blockSize, 0, 4⟩] <|
  .require (o.Allocated d) <|
  (searchBitmap d).bind (restoreFrom d o)

end BackupRestore
