import VendorMediatek.HistoryLog

/-!
# The backup region

The backup partition holds, in one of its last blocks, three copies of a bitmap of bad blocks, and
in the first good block a map file with the numbers of backed up files behind it.
`NVM_GetBackupFileNum` and `NVM_RestoreFromBinRegion_OneFile` search it backwards for the bitmap.
-/

namespace BackupRegion

open HistoryLog (wordAt uint32)

/-- What the device reports and the layout of the platform. -/
structure Layout where
  size : ℕ
  blockSize : ℕ
  writeSize : ℕ
  version : ℤ
  logBlock : ℕ
  resvBlock : ℕ
  dmBlock : ℕ

namespace Layout

variable (l : Layout)

def Valid : Prop := l.version = 0 ∨ l.version = 1

instance : Decidable l.Valid := inferInstanceAs (Decidable (_ ∨ _))

def binRegionBlockTotalNum : ℕ :=
  if l.version = 0 then l.size / l.blockSize - l.logBlock - l.resvBlock else l.size / l.blockSize

/-- Where there are fewer blocks than are kept back neither loop runs, as for 0. -/
def nvRamBlockNum : ℕ := l.binRegionBlockTotalNum - l.dmBlock

end Layout

/-- Offsets into the partition are ints, and a block has room for what it is searched for. Beside
the bytes of the partition there are those that malloc finds, and the range of size_t. -/
structure Partition extends Layout where
  bytes : ℕ → UInt8
  heap : ℕ → UInt8
  sizeT : ℕ
  blockSize_pos : 0 < blockSize
  writeSize_pos : 0 < writeSize
  blockSize_dvd : blockSize ∣ size
  size_lt : size < 2147483648
  copies_fit : 3 * toLayout.nvRamBlockNum + 4 ≤ blockSize

variable (p : Partition)

/-- The position in the device and the buffer that is read into. -/
structure Reader where
  position : ℕ
  buffer : ℕ → UInt8

/-- An offset behind the end is refused, and the position stays. -/
def lseek (off position : ℕ) : ℕ := if off ≤ p.size then off else position

/-- The bytes that a read returns. -/
def available (position len : ℕ) : ℕ := min len (p.size - position)

def Reader.read (r : Reader) (len : ℕ) : Reader where
  position := r.position + available p r.position len
  buffer i := if i < available p r.position len then p.bytes (r.position + i) else r.buffer i

/-! ## The search for the bitmap -/

def ThreeCopies (n : ℕ) (buffer : ℕ → UInt8) : Prop :=
  (∀ i < n, buffer i = buffer (n + i)) ∧ ∀ i < n, buffer i = buffer (2 * n + i)

def bitmapFlag : ℕ := 0xAABBCCDD

def CarriesFlag (n : ℕ) (buffer : ℕ → UInt8) : Prop := wordAt buffer (3 * n) = bitmapFlag

instance (n : ℕ) : DecidablePred (ThreeCopies n) := fun _ => inferInstanceAs (Decidable (_ ∧ _))

instance (n : ℕ) : DecidablePred (CarriesFlag n) := fun _ => inferInstanceAs (Decidable (_ = _))

/-- The block that the search ends at, and where the device had been read then. -/
structure Found where
  iBlockNum : ℕ
  readAt : ℕ
  bitmap : ℕ → UInt8

/-- The loop of both functions, from the last block down. -/
def search (offset : ℕ → ℕ) (accepts : (ℕ → UInt8) → Prop) [DecidablePred accepts] :
    ℕ → Reader → Option Found
  | 0, _ => none
  | iBlockNum + 1, r =>
    let r := { r with position := lseek p (offset iBlockNum) r.position }
    if available p r.position p.blockSize = 0 then none
    else
      let next := r.read p p.blockSize
      if accepts next.buffer then some ⟨iBlockNum, r.position, next.buffer⟩
      else search offset accepts iBlockNum next

/-- The block of the map file: the first one that the bitmap does not call bad. -/
def mapBlock (bitmap : ℕ → UInt8) (iBlockNum : ℕ) : Option ℕ :=
  (List.range iBlockNum).find? fun i => bitmap i = 0

/-! ## The functions -/

def backupBitmap : Option Found :=
  if p.Valid then
    search p (fun iBlockNum => iBlockNum * p.blockSize) (ThreeCopies p.nvRamBlockNum)
      p.nvRamBlockNum ⟨0, p.heap⟩
  else none

structure BackupFileNum where
  found : Found
  pos : ℕ
  iAPBackupFileNum : ℕ
  iMDBackupFileNum : ℕ

/-- Where the numbers are looked for. The result of this lseek is not looked at. -/
def countsAt (pos : ℕ) : ℕ :=
  lseek p ((pos * p.blockSize + 12 + wordAt p.bytes (pos * p.blockSize)) % p.sizeT)
    (pos * p.blockSize + 4)

def nvmGetBackupFileNum : Option BackupFileNum :=
  (backupBitmap p).bind fun found =>
  (mapBlock found.bitmap found.iBlockNum).bind fun pos =>
  if p.size < pos * p.blockSize then none
  else if available p (pos * p.blockSize) 4 ≠ 4 then none
  else if wordAt p.bytes (pos * p.blockSize) = 0 then none
  else if available p (countsAt p pos) 4 ≠ 4 then none
  else if available p (countsAt p pos + 4) 2 ≠ 2 then none
  else some {
    found := found
    pos := pos
    iAPBackupFileNum := wordAt p.bytes (countsAt p pos)
    iMDBackupFileNum := (p.bytes (countsAt p pos + 4)).toNat +
      256 * (p.bytes (countsAt p pos + 5)).toNat }

/-- What the map file of a size takes in pages. -/
def iMemSize (iMapFileSize : ℕ) : ℕ :=
  let sum := (iMapFileSize + 12) % p.sizeT
  uint32 (if sum % p.writeSize ≠ 0 then (sum / p.writeSize + 1) * p.writeSize else sum)

/-- The first read of NVM_RestoreFromBinRegion_OneFile, where pos is still 0. -/
def firstRead : Reader := Reader.read p ⟨lseek p 0 0, p.heap⟩ p.blockSize

/-- Whether the map file, by the size in block 0, takes more than a block. -/
def LargeMap : Prop := p.blockSize < iMemSize p (wordAt (firstRead p).buffer 0)

instance : Decidable (LargeMap p) := inferInstanceAs (Decidable (_ < _))

def iReservePos : ℕ := if LargeMap p then 1 else 0
def iReserveBlockCount : ℕ := if LargeMap p then 2 else 1

/-- The product is an unsigned int, also below block 0. -/
def restoreOffset (iBlockNum : ℕ) : ℕ :=
  uint32 ((iBlockNum + 4294967296 - iReservePos p) * p.blockSize)

def restoreBitmap : Option Found :=
  if p.Valid then
    search p (restoreOffset p)
      (fun buffer => ThreeCopies p.nvRamBlockNum buffer ∧ CarriesFlag p.nvRamBlockNum buffer)
      p.nvRamBlockNum ⟨(firstRead p).position, p.heap⟩
  else none

/-- NVM_RestoreFromBinRegion_OneFile up to the read of the map file. -/
def nvmRestoreFromBinRegionOneFile : Option (Found × ℕ) :=
  (restoreBitmap p).bind fun found =>
  (mapBlock found.bitmap found.iBlockNum).bind fun pos =>
  let position := lseek p (pos * p.blockSize) (found.readAt + available p found.readAt p.blockSize)
  if available p position (p.blockSize * iReserveBlockCount p) = 0 then none
  else some (found, pos)

end BackupRegion
