import Mathlib.Data.List.Range
import VendorMediatek.BackupBounds

/-!
# Blocks of the restore

Where `NVM_RestoreFromBinRegion_OneFile` takes the map file and the data file from: good blocks in
front of the bitmap's, unless the map file takes two blocks or the data file comes as far as the
block of the bitmap.
-/

namespace BackupRestore

open HistoryLog (wordAt uint32)
open BackupRegion AccessTraces Traced

/-! ## What is read -/

/-- Where the map file is read. The result of this lseek is not looked at. -/
def mapAt (d : Device) (found : Found) (pos : ℕ) : ℕ :=
  d.lseek (uint32 (pos * d.blockSize)) (found.readAt + d.available found.readAt d.blockSize)

/-- A byte of the block is read with the map file. -/
def TakesMap (d : Device) (found : Found) (pos b : ℕ) : Prop :=
  ∃ i < d.available (mapAt d found pos) d.tempSize, (mapAt d found pos + i) / d.blockSize = b

instance (d : Device) (found : Found) (pos b : ℕ) : Decidable (TakesMap d found pos b) :=
  inferInstanceAs (Decidable (∃ i < _, _))

/-- The block that the bitmap was read from. -/
def bitmapBlock (d : Device) (found : Found) : ℕ := found.readAt / d.blockSize

/-- The good blocks behind the map file. -/
def dataBlocks (d : Device) (found : Found) (pos : ℕ) : List ℕ :=
  goodBlocks found.bitmap (pos + 1 + d.iReservePos) found.iBlockNum

def blockBytes (d : Device) (b : ℕ) : List UInt8 :=
  (List.range d.blockSize).map fun i => d.bytes (b * d.blockSize + i)

/-- Cells of a buffer. -/
def cells (buffer : ℕ → UInt8) (start len : ℕ) : List UInt8 := (List.range' start len).map buffer

/-- What has been read when the data file is written. -/
structure Sound (d : Device) (r : Restored) : Prop where
  map : ∀ b, TakesMap d r.found r.pos b → r.found.bitmap b = 0 ∧ b < bitmapBlock d r.found
  blocks : ∀ b ∈ r.blocks, r.found.bitmap b = 0 ∧ b < bitmapBlock d r.found
  increasing : r.blocks.Pairwise (· < ·)
  disjoint : ∀ b ∈ r.blocks, ¬ TakesMap d r.found r.pos b
  data : cells r.data 0 r.iDatFileSize = (r.blocks.flatMap (blockBytes d)).take r.iDatFileSize

/-- A bitmap, a block of the map file and a size of the data file for which this is so. -/
structure PlacedAt (d : Device) (found : Found) (pos iDatFileSize : ℕ) : Prop where
  reached : d.Seekable (pos * d.blockSize)
  first : pos < bitmapBlock d found
  second : d.LargeMap → (pos + 1) * d.blockSize < d.length →
    found.bitmap (pos + 1) = 0 ∧ pos + 1 < bitmapBlock d found
  room : iDatFileSize ≤
    ((dataBlocks d found pos).filter (· < bitmapBlock d found)).length * d.blockSize

/-- The map block that the bitmap leads to can be read and stands in front of it; where the map file
takes two blocks so does the second, which is good too; and the good blocks in front of the bitmap
hold the data file. -/
def Placed (d : Device) : Prop :=
  ∀ found ∈ (searchBitmap d).result, ∀ pos ∈ mapBlock found.bitmap found.iBlockNum,
    ∀ r ∈ (readMap d found pos).result, PlacedAt d found pos (wordAt r.buffer 4)

variable {d : Device}

theorem block_fits {b : ℕ} (hb : b < d.nvRamBlockNum) :
    b * d.blockSize + d.blockSize ≤ d.size := by
  rw [← Nat.succ_mul]
  exact (Nat.mul_le_mul_right _ hb).trans (blocks_le d)

theorem uint32_block {b : ℕ} (hpos : 0 < d.blockSize) (hb : b < d.nvRamBlockNum) :
    uint32 (b * d.blockSize) = b * d.blockSize := by
  have hfits := block_fits hb
  have hsize := d.size_lt
  exact Nat.mod_eq_of_lt (by omega)

theorem seekable_of_eq {off : ℕ} (hoff : off + 1 < 4294967296)
    (h : (if d.Seekable off then int32 off else -1) = int32 off) : d.Seekable off := by
  by_contra hnot
  rw [if_neg hnot] at h
  have hmod : int32 off % (4294967296 : ℕ) = (off : ℤ) % (4294967296 : ℕ) := Int.bmod_emod
  rw [← h] at hmod
  omega

/-! ## The data file -/

theorem cells_add (buffer : ℕ → UInt8) (start a b : ℕ) :
    cells buffer start (a + b) = cells buffer start a ++ cells buffer (start + a) b := by
  simp only [cells, ← List.map_append, List.range'_append_1]

theorem cells_congr {buffer buffer' : ℕ → UInt8} {start len : ℕ}
    (h : ∀ i, start ≤ i → i < start + len → buffer i = buffer' i) :
    cells buffer start len = cells buffer' start len := by
  apply List.map_congr_left
  intro i hi
  obtain ⟨hlow, hhigh⟩ := List.mem_range'_1.mp hi
  exact h i hlow hhigh

theorem take_cells (buffer : ℕ → UInt8) {start m n : ℕ} (h : m ≤ n) :
    (cells buffer start n).take m = cells buffer start m := by
  obtain ⟨k, rfl⟩ := Nat.exists_eq_add_of_le h
  rw [cells_add]
  exact List.take_left' (by simp [cells])

theorem cells_read {r : Reader} {b : ℕ} (start : ℕ) (hb : r.position = b * d.blockSize)
    (hfull : d.available r.position d.blockSize = d.blockSize) :
    cells (d.read r start d.blockSize).buffer start d.blockSize = blockBytes d b := by
  rw [cells, blockBytes, List.range'_eq_map_range, List.map_map]
  apply List.map_congr_left
  intro i hi
  have hlt := List.mem_range.mp hi
  simp only [Function.comp_apply, Device.read, hfull]
  rw [if_pos (by omega), hb, Nat.add_sub_cancel_left]

theorem goodBlocks_cons (bitmap : ℕ → UInt8) {low high : ℕ} (h : low < high) :
    goodBlocks bitmap low high = if bitmap low = 0 then low :: goodBlocks bitmap (low + 1) high
      else goodBlocks bitmap (low + 1) high := by
  have hlen : high - low = high - (low + 1) + 1 := by omega
  rw [goodBlocks, hlen, List.range'_succ, List.filter_cons]
  simp only [decide_eq_true_eq]
  rfl

/-- The good blocks of a stretch are those from the first of them on. -/
theorem goodBlocks_head {bitmap : ℕ → UInt8} {low high pos : ℕ} {good : List ℕ}
    (h : goodBlocks bitmap low high = pos :: good) :
    goodBlocks bitmap pos high = pos :: good := by
  induction hn : high - low generalizing low with
  | zero =>
    rw [goodBlocks, hn] at h
    cases h
  | succ n ih =>
    have hgood := h
    rw [goodBlocks_cons bitmap (by omega)] at h
    split at h
    · obtain ⟨rfl, -⟩ := List.cons.inj h
      exact hgood
    · exact ih h (by omega)

theorem goodBlocks_tail {bitmap : ℕ → UInt8} {high pos : ℕ} {good : List ℕ}
    (h : goodBlocks bitmap pos high = pos :: good) : goodBlocks bitmap (pos + 1) high = good := by
  obtain ⟨-, hlt, hzero⟩ := mem_goodBlocks.mp (h ▸ List.mem_cons_self)
  rw [goodBlocks_cons bitmap hlt, if_pos hzero] at h
  exact (List.cons.inj h).2

/-- One turn of the loop: a block is read behind those before it, and the next good one follows. -/
theorem readBlocks_turn {found : Found} (hpos : 0 < d.blockSize)
    (hfound : found.iBlockNum ≤ d.nvRamBlockNum)
    {size k i pos : ℕ} {good : List ℕ} {r : Reader} {x : List ℕ × Reader}
    (hgood : goodBlocks found.bitmap pos found.iBlockNum = pos :: good)
    (hroom : i * d.blockSize + d.blockSize < 4294967296)
    (h : (readBlocks d found size (k + 1) i pos r).result = some x) :
    ∃ r' : Reader, cells r'.buffer (i * d.blockSize) d.blockSize = blockBytes d pos ∧
      (∀ j < i * d.blockSize, r'.buffer j = r.buffer j) ∧
      (k = 0 ∧ x = ([pos], r') ∨
        ∃ next rest y, good = next :: rest ∧
          (readBlocks d found size k (i + 1) next r').result = some y ∧ x = (pos :: y.1, y.2)) := by
  have hlt : pos < d.nvRamBlockNum :=
    (mem_goodBlocks.mp (hgood ▸ List.mem_cons_self)).2.1.trans_le hfound
  have hfits := block_fits hlt
  have hsize := d.size_lt
  have hstart : uint32 (i * d.blockSize) = i * d.blockSize := Nat.mod_eq_of_lt (by omega)
  simp only [readBlocks, result_require, result_touch, uint32_block hpos hlt, hstart] at h
  obtain ⟨hseek, hfull, h⟩ := h
  have hat (position : ℕ) : d.lseek (pos * d.blockSize) position = pos * d.blockSize :=
    if_pos (seekable_of_eq (by omega) hseek)
  simp only [hat] at hfull h
  refine ⟨d.read ⟨pos * d.blockSize, r.buffer⟩ (i * d.blockSize) d.blockSize,
    cells_read (i * d.blockSize) rfl hfull, ?_, ?_⟩
  · intro j hj
    exact if_neg fun hread => absurd hread.1 (by omega)
  · split at h
    · exact .inl ⟨‹_›, (Option.some.inj h).symm⟩
    · rw [goodBlocks_tail hgood] at h
      cases good with
      | nil => cases h
      | cons next rest =>
        simp only [List.head?_cons, result_touch, result_bind] at h
        obtain ⟨y, hy, h⟩ := h
        exact .inr ⟨next, rest, y, rfl, hy, (Option.some.inj h).symm⟩

theorem readBlocks_result {found : Found} (hpos : 0 < d.blockSize)
    (hfound : found.iBlockNum ≤ d.nvRamBlockNum)
    {size k i pos : ℕ} {good : List ℕ} {r : Reader} {x : List ℕ × Reader}
    (hgood : goodBlocks found.bitmap pos found.iBlockNum = pos :: good)
    (hroom : (i + k) * d.blockSize < 4294967296)
    (h : (readBlocks d found size k i pos r).result = some x) :
    x.1 = (pos :: good).take k ∧
      cells x.2.buffer (i * d.blockSize) (k * d.blockSize) = x.1.flatMap (blockBytes d) ∧
      ∀ j < i * d.blockSize, x.2.buffer j = r.buffer j := by
  induction k generalizing i pos good r x with
  | zero =>
    obtain rfl := Option.some.inj h
    simp [cells]
  | succ k ih =>
    have hadd : (i + (k + 1)) * d.blockSize = i * d.blockSize + k * d.blockSize + d.blockSize := by
      rw [Nat.add_mul, Nat.succ_mul, Nat.add_assoc]
    obtain ⟨r', hread, hbefore, ⟨rfl, rfl⟩ | ⟨next, rest, y, rfl, hy, rfl⟩⟩ :=
      readBlocks_turn hpos hfound hgood (by omega) h
    · refine ⟨rfl, ?_, hbefore⟩
      simpa using hread
    · have hnext := goodBlocks_head (goodBlocks_tail hgood)
      have hroom' : (i + 1 + k) * d.blockSize < 4294967296 := by
        rw [Nat.add_right_comm]
        exact hroom
      obtain ⟨hblocks, hdata, hkept⟩ := ih hnext hroom' hy
      have hsucc : (i + 1) * d.blockSize = i * d.blockSize + d.blockSize := Nat.succ_mul ..
      refine ⟨?_, ?_, ?_⟩
      · rw [List.take_succ_cons, hblocks]
      · have hown : cells y.2.buffer (i * d.blockSize) d.blockSize = blockBytes d pos := by
          rw [← hread]
          apply cells_congr
          intro j _ hj
          exact hkept j (by omega)
        rw [Nat.succ_mul, Nat.add_comm (k * d.blockSize), cells_add, hown, ← hsucc, hdata]
        rfl
      · intro j hj
        rw [hkept j (by omega)]
        exact hbefore j hj

/-! ## What the function comes to -/

theorem restoreData_result {found : Found} {pos : ℕ} {x : Reader} {r : Restored}
    (h : (restoreData d found pos x).result = some r) :
    r.found = found ∧ r.pos = pos ∧ r.map = x.buffer ∧
      r.iDatFileSize ≤ uint32 ((dataBlocks d found pos).length * d.blockSize) ∧
      ∃ y, (readBlocks d found (dataSize d r.iDatFileSize) (iReadTime d r.iDatFileSize) 0
        ((dataBlocks d found pos).headD pos) ⟨x.position, d.heap⟩).result = some y ∧
        y.1 = r.blocks ∧ y.2.buffer = r.data := by
  simp only [restoreData, result_touch, result_require, result_bind] at h
  obtain ⟨-, henough, y, hy, h⟩ := h
  obtain rfl := Option.some.inj h
  exact ⟨rfl, rfl, rfl, henough, y, hy, rfl, rfl⟩

theorem restore_result {o : Outcome} {r : Restored}
    (h : (nvmRestoreFromBinRegionOneFile d o).result = some r) :
    0 < d.blockSize ∧ (searchBitmap d).result = some r.found ∧
      mapBlock r.found.bitmap r.found.iBlockNum = some r.pos ∧
      ∃ x, (readMap d r.found r.pos).result = some x ∧ x.buffer = r.map ∧
        (restoreData d r.found r.pos x).result = some r := by
  simp only [nvmRestoreFromBinRegionOneFile, result_require, result_touch, result_bind] at h
  obtain ⟨hstarted, -, found, hfound, h⟩ := h
  simp only [restoreFrom, result_touch] at h
  cases hpos : mapBlock found.bitmap found.iBlockNum with
  | none =>
    rw [hpos] at h
    cases h
  | some pos =>
    simp only [hpos, result_bind, result_touch, result_require] at h
    obtain ⟨x, hx, -, -, h⟩ := h
    obtain ⟨rfl, rfl, hmap, -⟩ := restoreData_result h
    exact ⟨Nat.pos_of_ne_zero hstarted.2.1, hfound, hpos, x, hx, hmap.symm, h⟩

theorem length_dataBlocks_le {found : Found} (hfound : found.iBlockNum ≤ d.nvRamBlockNum)
    (pos : ℕ) : (dataBlocks d found pos).length * d.blockSize ≤ d.size := by
  have hlength := length_goodBlocks_le found.bitmap (pos + 1 + d.iReservePos) found.iBlockNum
  exact (Nat.mul_le_mul_right _ (hlength.trans (by omega))).trans (blocks_le d)

/-- The data comes from the first good blocks behind the map file, which suffice. -/
theorem restoreData_blocks {found : Found} {pos : ℕ} {x : Reader} {r : Restored}
    (hpos : 0 < d.blockSize) (hfound : found.iBlockNum ≤ d.nvRamBlockNum)
    (h : (restoreData d found pos x).result = some r) :
    iReadTime d r.iDatFileSize ≤ (dataBlocks d found pos).length ∧
      r.blocks = (dataBlocks d found pos).take (iReadTime d r.iDatFileSize) ∧
      cells r.data 0 (iReadTime d r.iDatFileSize * d.blockSize) =
        r.blocks.flatMap (blockBytes d) := by
  obtain ⟨-, -, -, henough, y, hy, hblocks, hdata⟩ := restoreData_result h
  have hfits := length_dataBlocks_le hfound pos
  have hsize := d.size_lt
  have hlen : r.iDatFileSize ≤ (dataBlocks d found pos).length * d.blockSize :=
    henough.trans (Nat.mod_le _ _)
  have htime := iReadTime_le hlen
  refine ⟨htime, ?_⟩
  cases hgood : dataBlocks d found pos with
  | nil =>
    rw [hgood] at htime hy
    rw [Nat.le_zero.mp htime] at hy ⊢
    obtain rfl := Option.some.inj hy
    simp [← hblocks, cells]
  | cons next good =>
    rw [hgood] at hy
    have hroom : (0 + iReadTime d r.iDatFileSize) * d.blockSize < 4294967296 := by
      have hmul := Nat.mul_le_mul_right d.blockSize htime
      rw [Nat.zero_add]
      omega
    have hread := readBlocks_result hpos hfound (goodBlocks_head hgood) hroom hy
    rw [hblocks, hdata, Nat.zero_mul] at hread
    exact ⟨hread.1, hread.2.1⟩

/-! ## The data blocks -/

theorem take_lt_iff {l : List ℕ} (hl : l.Pairwise (· < ·)) {k c : ℕ} (hk : k ≤ l.length) :
    (∀ b ∈ l.take k, b < c) ↔ k ≤ (l.filter (· < c)).length := by
  induction l generalizing k with
  | nil => simpa using hk
  | cons a l ih =>
    obtain ⟨hfirst, hl⟩ := List.pairwise_cons.mp hl
    cases k with
    | zero => simp
    | succ k =>
      have ih := ih hl (Nat.le_of_succ_le_succ hk)
      by_cases ha : a < c
      · simp [ha, ih]
      · have hnone : l.filter (· < c) = [] := by
          rw [List.filter_eq_nil_iff]
          intro b hb
          have := hfirst b hb
          simp only [decide_eq_true_eq]
          omega
        simp [ha, hnone]

theorem iReadTime_le_iff (hpos : 0 < d.blockSize) {n k : ℕ} :
    iReadTime d n ≤ k ↔ n ≤ k * d.blockSize := by
  constructor
  · intro h
    exact (iDatFileSize_le hpos n).trans (Nat.mul_le_mul_right _ h)
  · exact iReadTime_le

theorem pairwise_dataBlocks (found : Found) (pos : ℕ) :
    (dataBlocks d found pos).Pairwise (· < ·) := (List.pairwise_lt_range' 1 Nat.one_pos).filter _

theorem mem_dataBlocks {found : Found} {pos b : ℕ} (h : b ∈ dataBlocks d found pos) :
    pos + d.iReservePos < b ∧ found.bitmap b = 0 := by
  obtain ⟨hlow, -, hgood⟩ := mem_goodBlocks.mp h
  exact ⟨by omega, hgood⟩

/-! ## The map blocks -/

theorem tempSize_eq (h : 2 ≤ d.nvRamBlockNum) : d.tempSize = d.blockSize * d.iReserveBlockCount := by
  have hblocks := (Nat.mul_le_mul_right d.blockSize h).trans (blocks_le d)
  have hsize := d.size_lt
  have hcount : d.blockSize * d.iReserveBlockCount ≤ d.blockSize * 2 := by
    apply Nat.mul_le_mul_left
    unfold Device.iReserveBlockCount
    split <;> omega
  exact Nat.mod_eq_of_lt (by omega)

/-- The map file is read from its block and, if it is large, from the next. -/
theorem takesMap_iff {found : Found} {pos : ℕ} (hpos : 0 < d.blockSize)
    (hlt : pos + 1 < d.nvRamBlockNum) (hreached : d.Seekable (pos * d.blockSize))
    (hsome : d.available (mapAt d found pos) d.tempSize ≠ 0) (b : ℕ) :
    TakesMap d found pos b ↔
      b = pos ∨ (d.LargeMap ∧ (pos + 1) * d.blockSize < d.length ∧ b = pos + 1) := by
  have hat : mapAt d found pos = pos * d.blockSize := by
    rw [mapAt, uint32_block hpos (by omega)]
    exact if_pos hreached
  have htemp := tempSize_eq (d := d) (by omega)
  have hdiv (i : ℕ) : (pos * d.blockSize + i) / d.blockSize = pos + i / d.blockSize := by
    rw [Nat.add_comm, Nat.add_mul_div_right _ _ hpos, Nat.add_comm]
  have hsucc : (pos + 1) * d.blockSize = pos * d.blockSize + d.blockSize := Nat.succ_mul ..
  rw [hat] at hsome
  simp only [TakesMap, hat, hdiv]
  unfold Device.available at hsome ⊢
  constructor
  · rintro ⟨i, hi, rfl⟩
    by_cases hfirst : i < d.blockSize
    · left
      rw [Nat.div_eq_of_lt hfirst, Nat.add_zero]
    · right
      by_cases hlarge : d.LargeMap
      · rw [htemp, Device.iReserveBlockCount, if_pos hlarge] at hi
        have hone : i / d.blockSize = 1 := Nat.div_eq_of_lt_le (by omega) (by omega)
        exact ⟨hlarge, by omega, by rw [hone]⟩
      · rw [htemp, Device.iReserveBlockCount, if_neg hlarge] at hi
        omega
  · rintro (rfl | ⟨hlarge, hlength, rfl⟩)
    · exact ⟨0, by omega, by simp⟩
    · rw [htemp, Device.iReserveBlockCount, if_pos hlarge]
      exact ⟨d.blockSize, by omega, by rw [Nat.div_self hpos]⟩

/-! ## When the blocks are sound -/

theorem mapBlock_good {bitmap : ℕ → UInt8} {k pos : ℕ} (h : mapBlock bitmap k = some pos) :
    bitmap pos = 0 := by
  unfold mapBlock at h
  simpa using List.find?_some h

/-- Where the map block cannot be reached, the map file is read behind the bitmap. -/
theorem reached_of_map {found : Found} {pos : ℕ} (hpos : 0 < d.blockSize)
    (hlt : pos < d.nvRamBlockNum) (hsome : d.available (mapAt d found pos) d.tempSize ≠ 0)
    (hmap : ∀ b, TakesMap d found pos b → b < bitmapBlock d found) :
    d.Seekable (pos * d.blockSize) := by
  by_contra hnot
  have hat : mapAt d found pos = found.readAt + d.available found.readAt d.blockSize := by
    rw [mapAt, uint32_block hpos hlt]
    exact if_neg hnot
  have hlow : bitmapBlock d found ≤ mapAt d found pos / d.blockSize := by
    rw [hat]
    exact Nat.div_le_div_right (Nat.le_add_right _ _)
  have hhigh := hmap _ ⟨0, Nat.pos_of_ne_zero hsome, rfl⟩
  rw [Nat.add_zero] at hhigh
  omega

/-- What is known when the data file is written. -/
structure Comes (d : Device) (r : Restored) : Prop where
  blockSize_pos : 0 < d.blockSize
  high : r.found.iBlockNum < d.nvRamBlockNum
  low : r.pos < r.found.iBlockNum
  good : r.found.bitmap r.pos = 0
  available : d.available (mapAt d r.found r.pos) d.tempSize ≠ 0
  enough : iReadTime d r.iDatFileSize ≤ (dataBlocks d r.found r.pos).length
  blocks : r.blocks = (dataBlocks d r.found r.pos).take (iReadTime d r.iDatFileSize)
  cells : cells r.data 0 (iReadTime d r.iDatFileSize * d.blockSize) =
    r.blocks.flatMap (blockBytes d)

section Restored

variable {o : Outcome} {r : Restored}

theorem restore_comes (h : (nvmRestoreFromBinRegionOneFile d o).result = some r) : Comes d r := by
  obtain ⟨hpos, hfound, hmapBlock, x, hread, -, hdata⟩ := restore_result h
  have hhigh := search_lt hfound
  simp only [readMap, result_touch, result_require] at hread
  obtain ⟨henough, hblocks, hcells⟩ := restoreData_blocks hpos hhigh.le hdata
  exact ⟨hpos, hhigh, mapBlock_lt hmapBlock, mapBlock_good hmapBlock, hread.1, henough, hblocks,
    hcells⟩

theorem Comes.takesMap_iff (h : Comes d r) (hreached : d.Seekable (r.pos * d.blockSize)) (b : ℕ) :
    TakesMap d r.found r.pos b ↔
      b = r.pos ∨ (d.LargeMap ∧ (r.pos + 1) * d.blockSize < d.length ∧ b = r.pos + 1) :=
  BackupRestore.takesMap_iff h.blockSize_pos (Nat.lt_of_le_of_lt h.low h.high) hreached h.available b

/-- The good blocks in front of the bitmap suffice exactly if the blocks that are read are there. -/
theorem Comes.room_iff (h : Comes d r) : (∀ b ∈ r.blocks, b < bitmapBlock d r.found) ↔
    r.iDatFileSize ≤ ((dataBlocks d r.found r.pos).filter
      (· < bitmapBlock d r.found)).length * d.blockSize := by
  rw [h.blocks, take_lt_iff (pairwise_dataBlocks _ _) h.enough]
  exact iReadTime_le_iff h.blockSize_pos

theorem Comes.mem_dataBlocks (h : Comes d r) {b : ℕ} (hb : b ∈ r.blocks) :
    r.pos + d.iReservePos < b ∧ r.found.bitmap b = 0 := by
  rw [h.blocks] at hb
  exact BackupRestore.mem_dataBlocks (List.mem_of_mem_take hb)

theorem Sound.placedAt (h : Comes d r) (hsound : Sound d r) :
    PlacedAt d r.found r.pos r.iDatFileSize := by
  have hreached := reached_of_map h.blockSize_pos (h.low.trans h.high) h.available
    fun b hb => (hsound.map b hb).2
  have htakes := h.takesMap_iff hreached
  refine ⟨hreached, (hsound.map _ ((htakes _).mpr (Or.inl rfl))).2, ?_, ?_⟩
  · intro hlarge hlength
    exact hsound.map _ ((htakes _).mpr (Or.inr ⟨hlarge, hlength, rfl⟩))
  · exact h.room_iff.mp fun b hb => (hsound.blocks b hb).2

theorem PlacedAt.sound (h : Comes d r) (hplaced : PlacedAt d r.found r.pos r.iDatFileSize) :
    Sound d r := by
  have htakes := h.takesMap_iff hplaced.reached
  refine ⟨?_, ?_, ?_, ?_, ?_⟩
  · intro b hb
    rcases (htakes b).mp hb with rfl | ⟨hlarge, hlength, rfl⟩
    · exact ⟨h.good, hplaced.first⟩
    · exact hplaced.second hlarge hlength
  · intro b hb
    exact ⟨(h.mem_dataBlocks hb).2, h.room_iff.mpr hplaced.room b hb⟩
  · rw [h.blocks]
    exact (pairwise_dataBlocks _ _).sublist (List.take_sublist _ _)
  · -- the data blocks start behind the blocks that are kept for the map file
    intro b hb hmap
    have hbehind := (h.mem_dataBlocks hb).1
    rcases (htakes b).mp hmap with rfl | ⟨hlarge, -, rfl⟩
    · omega
    · rw [Device.iReservePos, if_pos hlarge] at hbehind
      omega
  · rw [← h.cells, take_cells _ (iDatFileSize_le h.blockSize_pos _)]

/-- Where the function gets as far as the data file, what it goes by is in the image. -/
theorem placed_iff (h : (nvmRestoreFromBinRegionOneFile d o).result = some r) :
    Placed d ↔ PlacedAt d r.found r.pos r.iDatFileSize := by
  obtain ⟨-, hfound, hmapBlock, x, hread, hx, -⟩ := restore_result h
  simp only [Placed, hfound, Option.mem_some_iff, forall_eq', hmapBlock, hread, hx,
    Restored.iDatFileSize]

end Restored

/-- Where the function gets as far as the data file, the blocks are good, in front of the bitmap's,
increasing and apart from those of the map file, and the data is theirs, exactly if they are placed
so. -/
theorem restore_sound_iff (d : Device) (o : Outcome) :
    (∀ r ∈ (nvmRestoreFromBinRegionOneFile d o).result, Sound d r) ↔
      ((nvmRestoreFromBinRegionOneFile d o).result.isSome → Placed d) := by
  cases h : (nvmRestoreFromBinRegionOneFile d o).result with
  | none => exact iff_of_true nofun nofun
  | some r =>
    simp only [Option.mem_some_iff, forall_eq', Option.isSome_some, true_implies]
    rw [placed_iff h]
    exact ⟨Sound.placedAt (restore_comes h), PlacedAt.sound (restore_comes h)⟩

/-- Five blocks of 32 bytes: a map file that takes two blocks, of which the second is bad, a data
file of four bytes, and the bitmap. -/
def badSecondBlock : Device where
  size := 160
  blockSize := 32
  writeSize := 4
  version := 1
  logBlock := 0
  resvBlock := 0
  dmBlock := 0
  length := 160
  bytes i := if i < 96 then ((24 : UInt8) :: 0 :: 0 :: 0 :: [4]).getD i 0
    else ([0, 1, 0, 0, 0, 0, 1, 0, 0, 0, 0, 1, 0, 0, 0, 0xDD, 0xCC, 0xBB, 0xAA] : List UInt8).getD
      (i - 96) 0
  heap _ := 0
  sizeT := 18446744073709551616
  offT := 9223372036854775808
  size_lt := by decide

/-- The second block of the map file is taken without a look at the bitmap. -/
theorem second_map_block_bad : ¬ ∀ (d : Device) (o : Outcome),
    ∀ r ∈ (nvmRestoreFromBinRegionOneFile d o).result, Sound d r := by
  intro h
  have hrun : (nvmRestoreFromBinRegionOneFile badSecondBlock
      ⟨true, true, true, true, true, true, true, true, true⟩).result.map (fun r =>
        (decide (TakesMap badSecondBlock r.found r.pos 1), r.found.bitmap 1)) = some (true, 1) := by
    decide +kernel
  obtain ⟨r, hr, hboth⟩ := Option.map_eq_some_iff.mp hrun
  obtain ⟨htakes, hbad⟩ := Prod.mk.inj hboth
  have hgood := ((h _ _ r hr).map 1 (of_decide_eq_true htakes)).1
  rw [hbad] at hgood
  cases hgood

/-! ## On a partition -/

section Partition

variable {p : Partition}

/-- A partition as a device that reports it as it is. -/
def device (p : Partition) : Device where
  toLayout := p.toLayout
  length := p.size
  bytes := p.bytes
  heap := p.heap
  sizeT := p.sizeT
  offT := 2147483648
  size_lt := p.size_lt.trans (by decide)

theorem seekable_iff {off : ℕ} : (device p).Seekable off ↔ off ≤ p.size :=
  and_iff_right_of_imp fun h => Nat.lt_of_le_of_lt h p.size_lt

theorem lseek_device (off position : ℕ) :
    (device p).lseek off position = BackupRegion.lseek p off position := by
  unfold Device.lseek BackupRegion.lseek
  simp only [seekable_iff]

theorem read_device (r : Reader) (len : ℕ) : (device p).read r 0 len = r.read p len := by
  simp [Device.read, Reader.read, Device.available, BackupRegion.available, device]

theorem firstRead_device : (device p).firstRead = BackupRegion.firstRead p := by
  unfold Device.firstRead BackupRegion.firstRead
  rw [lseek_device, read_device]
  rfl

theorem largeMap_device : (device p).LargeMap ↔ BackupRegion.LargeMap p := by
  unfold Device.LargeMap BackupRegion.LargeMap
  rw [firstRead_device]
  rfl

theorem iReservePos_device : (device p).iReservePos = BackupRegion.iReservePos p := by
  simp only [Device.iReservePos, BackupRegion.iReservePos, largeMap_device]

theorem restoreOffset_device (b : ℕ) :
    (device p).restoreOffset b = BackupRegion.restoreOffset p b := by
  simp only [Device.restoreOffset, BackupRegion.restoreOffset, iReservePos_device]
  rfl

/-- On a partition the search is the one that its blocks are told from. -/
theorem search_device (m : ℕ) (r : Reader) : (search (device p) m r).result =
    BackupRegion.search p (BackupRegion.restoreOffset p)
      (fun buffer => ThreeCopies p.nvRamBlockNum buffer ∧ CarriesFlag p.nvRamBlockNum buffer)
      m r := by
  induction m generalizing r with
  | zero => rfl
  | succ m ih =>
    have havailable : ∀ position len,
        (device p).available position len = BackupRegion.available p position len :=
      fun _ _ => rfl
    have hblock : (device p).blockSize = p.blockSize := rfl
    have hnum : (device p).nvRamBlockNum = p.nvRamBlockNum := rfl
    simp only [search, BackupRegion.search, lseek_device, restoreOffset_device, read_device,
      havailable, hblock, hnum, Traced.require, Traced.touch]
    by_cases hnone : BackupRegion.available p
      (BackupRegion.lseek p (BackupRegion.restoreOffset p m) r.position) p.blockSize = 0
    · rw [if_neg (not_not.mpr hnone), if_pos hnone]
      rfl
    · rw [if_pos hnone, if_neg hnone]
      simp only
      split
      · rfl
      · exact ih _

theorem searchBitmap_device (hvalid : p.Valid) :
    (searchBitmap (device p)).result = restoreBitmap p := by
  rw [searchBitmap, search_device, restoreBitmap, if_pos hvalid, firstRead_device]
  rfl

theorem search_readAt {m : ℕ} {r : Reader} {found : Found}
    (h : (search (device p) m r).result = some found) (hlow : iReservePos p ≤ found.iBlockNum)
    (hm : m ≤ p.nvRamBlockNum) :
    found.readAt = (found.iBlockNum - iReservePos p) * p.blockSize := by
  induction m generalizing r with
  | zero => cases h
  | succ m ih =>
    simp only [search, result_touch, result_require] at h
    obtain ⟨-, h⟩ := h
    split at h
    · cases h
      simp only at hlow ⊢
      have hwithin := restore_within m hlow hm
      rw [restoreOffset_device, lseek_device, lseek_within _ (by omega),
        restoreOffset_eq hlow hm]
    · exact ih h (by omega)

/-- Where a partition's map file takes one block, the blocks are sound however many are bad. -/
theorem sound_of_smallMap {o : Outcome} {r : Restored} (hsmall : ¬ BackupRegion.LargeMap p)
    (h : (nvmRestoreFromBinRegionOneFile (device p) o).result = some r) : Sound (device p) r := by
  have hcomes := restore_comes h
  have hhigh := hcomes.high
  have hlow := hcomes.low
  have hreserve : iReservePos p = 0 := if_neg hsmall
  have hbitmap : bitmapBlock (device p) r.found = r.found.iBlockNum := by
    have hreadAt := search_readAt (restore_result h).2.1 (by omega) le_rfl
    rw [hreserve, Nat.sub_zero] at hreadAt
    rw [bitmapBlock, hreadAt]
    exact Nat.mul_div_cancel _ hcomes.blockSize_pos
  apply PlacedAt.sound hcomes
  refine ⟨?_, ?_, ?_, ?_⟩
  · have hfits := block_fits (hlow.trans hhigh)
    exact seekable_iff.mpr ((Nat.le_add_right _ _).trans hfits)
  · rw [hbitmap]
    exact hlow
  · exact fun hlarge => absurd (largeMap_device.mp hlarge) hsmall
  · apply hcomes.room_iff.mp
    intro b hb
    rw [hcomes.blocks] at hb
    rw [hbitmap]
    exact (mem_goodBlocks.mp (List.mem_of_mem_take hb)).2.1

end Partition

end BackupRestore
