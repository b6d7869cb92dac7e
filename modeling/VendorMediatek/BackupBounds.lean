import VendorMediatek.BackupRestore

/-!
# Bounds of the restore

When what `NVM_RestoreFromBinRegion_OneFile` touches of its buffers lies in them. The bitmaps and
the data file always do; the copies of the bitmap and the map file only if they fit.
-/

namespace BackupRestore

open HistoryLog (wordAt uint32)
open BackupRegion AccessTraces Traced

/-! ## The bitmap -/

/-- How much of a block is looked at in the search. -/
def comparedBytes (n : ℕ) (buffer : ℕ → UInt8) : ℕ :=
  if ThreeCopies n buffer then 3 * n + 4 else if FirstCopies n buffer then 3 * n else 2 * n

theorem copyAccesses_inBounds (n size : ℕ) (buffer : ℕ → UInt8) :
    (∀ a ∈ copyAccesses n size buffer, a.InBounds) ↔ comparedBytes n buffer ≤ size := by
  by_cases hthree : ThreeCopies n buffer
  · have hfirst : FirstCopies n buffer := hthree.1
    simp only [copyAccesses, comparedBytes, hthree, hfirst, if_true, List.forall_mem_append,
      List.forall_mem_cons, List.not_mem_nil, Access.InBounds]
    simp only [false_implies, implies_true, and_true]
    omega
  · by_cases hfirst : FirstCopies n buffer
    · simp only [copyAccesses, comparedBytes, hthree, hfirst, if_true, if_false,
        List.forall_mem_append, List.forall_mem_cons, List.not_mem_nil, Access.InBounds]
      simp only [false_implies, implies_true, and_true]
      omega
    · simp only [copyAccesses, comparedBytes, hthree, hfirst, if_false, List.append_nil,
        List.forall_mem_cons, List.not_mem_nil, Access.InBounds]
      simp only [false_implies, implies_true, and_true]
      omega

/-- What stands in tempBuffer whenever the search compares the copies. -/
def searched (d : Device) : ℕ → Reader → List (ℕ → UInt8)
  | 0, _ => []
  | iBlockNum + 1, r =>
    let r := { r with position := d.lseek (d.restoreOffset iBlockNum) r.position }
    if d.available r.position d.blockSize ≠ 0 then
      let next := d.read r 0 d.blockSize
      if ThreeCopies d.nvRamBlockNum next.buffer ∧ CarriesFlag d.nvRamBlockNum next.buffer then
        [next.buffer]
      else next.buffer :: searched d iBlockNum next
    else []

theorem search_inBounds (d : Device) (m : ℕ) (r : Reader) : (search d m r).InBounds ↔
    (0 < m → d.blockSize ≤ d.tempSize) ∧
      ∀ buffer ∈ searched d m r, comparedBytes d.nvRamBlockNum buffer ≤ d.tempSize := by
  induction m generalizing r with
  | zero => simp [search, searched]
  | succ m ih =>
    simp only [search, searched, inBounds_touch, inBounds_require, copyAccesses_inBounds,
      Nat.zero_lt_succ, true_implies]
    have hread : (∀ a ∈ [(⟨d.tempSize, 0, d.blockSize⟩ : Access)], a.InBounds) ↔
        d.blockSize ≤ d.tempSize := by simp [Access.InBounds]
    rw [hread]
    apply and_congr_right
    intro hblock
    by_cases havailable :
      d.available (d.lseek (d.restoreOffset m) r.position) d.blockSize ≠ 0
    · rw [if_pos havailable, forall_prop_of_true havailable]
      split
      · simp
      · rw [List.forall_mem_cons, ih]
        exact and_congr_right fun _ => and_iff_right fun _ => hblock
    · rw [if_neg havailable]
      exact iff_of_true (fun h => absurd h havailable) (by simp)

theorem search_lt {d : Device} {m : ℕ} {r : Reader} {found : Found}
    (h : (search d m r).result = some found) : found.iBlockNum < m := by
  induction m generalizing r with
  | zero => cases h
  | succ m ih =>
    simp only [search, result_touch, result_require] at h
    obtain ⟨-, h⟩ := h
    split at h
    · cases h
      exact Nat.lt_succ_self m
    · exact Nat.lt_succ_of_lt (ih h)

theorem bitmapAccesses_inBounds {n low high : ℕ} (h : high ≤ n) :
    ∀ a ∈ bitmapAccesses n low high, a.InBounds := by
  intro a ha
  obtain ⟨i, hi, rfl⟩ := List.mem_map.mp ha
  have := List.mem_range'_1.mp hi
  simp only [Access.InBounds]
  omega

/-! ## The data file -/

theorem length_goodBlocks_le (bitmap : ℕ → UInt8) (low high : ℕ) :
    (goodBlocks bitmap low high).length ≤ high - low := by
  have h := List.length_filter_le (fun i => decide (bitmap i = 0)) (List.range' low (high - low))
  rwa [List.length_range'] at h

theorem mem_goodBlocks {bitmap : ℕ → UInt8} {low high i : ℕ} :
    i ∈ goodBlocks bitmap low high ↔ low ≤ i ∧ i < high ∧ bitmap i = 0 := by
  simp only [goodBlocks, List.mem_filter, List.mem_range'_1, decide_eq_true_eq]
  constructor
  · rintro ⟨⟨hlow, hhigh⟩, hgood⟩
    exact ⟨hlow, by omega, hgood⟩
  · rintro ⟨hlow, hhigh, hgood⟩
    exact ⟨⟨hlow, by omega⟩, hgood⟩

/-- All the blocks of the search lie in the device as it is reported. -/
theorem blocks_le (d : Device) : d.nvRamBlockNum * d.blockSize ≤ d.size := by
  have hcount : d.nvRamBlockNum ≤ d.size / d.blockSize := by
    unfold Layout.nvRamBlockNum Layout.binRegionBlockTotalNum
    generalize d.size / d.blockSize = blocks
    split <;> omega
  exact (Nat.mul_le_mul_right _ hcount).trans (Nat.div_mul_le_self _ _)

theorem iDatFileSize_le {d : Device} (hpos : 0 < d.blockSize) (n : ℕ) :
    n ≤ iReadTime d n * d.blockSize := by
  have hdiv := Nat.div_add_mod n d.blockSize
  have hmod := Nat.mod_lt n hpos
  have hcomm := Nat.mul_comm d.blockSize (n / d.blockSize)
  unfold iReadTime
  split
  · rw [Nat.succ_mul]
    omega
  · omega

theorem dataSize_eq {d : Device} {n : ℕ} (h : iReadTime d n * d.blockSize < 4294967296) :
    dataSize d n = iReadTime d n * d.blockSize := by
  have hdiv := Nat.div_add_mod n d.blockSize
  have hcomm := Nat.mul_comm d.blockSize (n / d.blockSize)
  unfold dataSize uint32
  unfold iReadTime at h ⊢
  split
  · rename_i hmod
    rw [if_pos hmod] at h
    exact Nat.mod_eq_of_lt h
  · rename_i hmod
    rw [if_neg hmod] at h
    rw [not_not] at hmod
    have heq : n = n / d.blockSize * d.blockSize := by omega
    rw [Nat.mod_eq_of_lt (by omega)]
    exact heq

theorem iReadTime_le {d : Device} {n k : ℕ} (h : n ≤ k * d.blockSize) : iReadTime d n ≤ k := by
  have hcomm := Nat.mul_comm k d.blockSize
  unfold iReadTime
  split
  · rename_i hmod
    have hne : n ≠ k * d.blockSize := by
      intro heq
      rw [heq, Nat.mul_mod_left] at hmod
      exact hmod rfl
    exact Nat.div_lt_of_lt_mul (by omega)
  · exact Nat.div_le_of_le_mul (by omega)

theorem readBlocks_inBounds {d : Device} {found : Found} (hfound : found.iBlockNum ≤ d.nvRamBlockNum)
    {size : ℕ} (hsize : size < 4294967296) {k i : ℕ} (hroom : (i + k) * d.blockSize ≤ size)
    (pos : ℕ) (r : Reader) : (readBlocks d found size k i pos r).InBounds := by
  induction k generalizing i pos r with
  | zero => exact inBounds_pure _
  | succ k ih =>
    have hadd : (i + (k + 1)) * d.blockSize = i * d.blockSize + k * d.blockSize + d.blockSize := by
      rw [Nat.add_mul, Nat.succ_mul, Nat.add_assoc]
    have hstart : uint32 (i * d.blockSize) = i * d.blockSize := Nat.mod_eq_of_lt (by omega)
    have hnext : (i + 1 + k) * d.blockSize ≤ size := by
      rw [Nat.add_right_comm]
      exact hroom
    simp only [readBlocks, inBounds_require, inBounds_touch, hstart]
    intro _
    refine ⟨?_, fun _ => ?_⟩
    · intro a ha
      rw [List.mem_singleton.mp ha]
      simp only [Access.InBounds]
      omega
    · split
      · exact inBounds_pure _
      · split
        · exact (inBounds_touch _ _).mpr ⟨bitmapAccesses_inBounds hfound, inBounds_exit⟩
        · rename_i j hj
          have hmem := mem_goodBlocks.mp (List.mem_of_mem_head? hj)
          rw [inBounds_touch, inBounds_bind]
          exact ⟨bitmapAccesses_inBounds (by omega), ih hnext _ _, fun _ _ => inBounds_pure _⟩

/-- The blocks that are found good hold the data file, so it fits the buffer. -/
theorem restoreData_inBounds {d : Device} {found : Found} (hpos : 0 < d.blockSize)
    (hfound : found.iBlockNum ≤ d.nvRamBlockNum) (pos : ℕ) (r : Reader) :
    (restoreData d found pos r).InBounds := by
  simp only [restoreData, inBounds_touch, inBounds_require, inBounds_bind]
  refine ⟨bitmapAccesses_inBounds hfound, fun _ hgood => ?_⟩
  generalize hgoods : goodBlocks found.bitmap (pos + 1 + d.iReservePos) found.iBlockNum = good
    at hgood ⊢
  generalize wordAt r.buffer 4 = iDatFileSize at hgood ⊢
  have hlength : good.length ≤ d.nvRamBlockNum := by
    have := length_goodBlocks_le found.bitmap (pos + 1 + d.iReservePos) found.iBlockNum
    rw [hgoods] at this
    omega
  have hblocks : good.length * d.blockSize ≤ d.size :=
    (Nat.mul_le_mul_right _ hlength).trans (blocks_le d)
  have hlt := d.size_lt
  have hfits : iDatFileSize ≤ good.length * d.blockSize := by
    unfold uint32 at hgood
    rwa [Nat.mod_eq_of_lt (by omega)] at hgood
  have hread : iReadTime d iDatFileSize * d.blockSize ≤ good.length * d.blockSize :=
    Nat.mul_le_mul_right _ (iReadTime_le hfits)
  have hsize := dataSize_eq (d := d) (n := iDatFileSize) (by omega)
  refine ⟨readBlocks_inBounds hfound (by omega) ?_ _ _, fun _ _ => ⟨?_, inBounds_pure _⟩⟩
  · rw [hsize, Nat.zero_add]
  · intro a ha
    rw [List.mem_singleton.mp ha]
    simp only [Access.InBounds, hsize, Nat.zero_add]
    exact iDatFileSize_le hpos _

/-! ## The whole function -/

/-- What is in tempBuffer once the map file has been read. -/
def mapRead (d : Device) : Option Reader :=
  (searchBitmap d).result.bind fun found =>
  (mapBlock found.bitmap found.iBlockNum).bind fun pos => (readMap d found pos).result

/-- As far as the function gets: the first word lies in a block; what the search reads and compares
lies in tempBuffer; and so do the map file and the numbers behind it. -/
def Fits (d : Device) (o : Outcome) : Prop :=
  o.Started d → 4 ≤ d.blockSize ∧
    (o.Allocated d →
      (0 < d.nvRamBlockNum → d.blockSize ≤ d.tempSize) ∧
      (∀ buffer ∈ searched d d.nvRamBlockNum ⟨d.firstRead.position, d.heap⟩,
        comparedBytes d.nvRamBlockNum buffer ≤ d.tempSize) ∧
      ∀ r ∈ mapRead d, wordAt r.buffer 0 + 18 ≤ d.tempSize)

theorem restoreFrom_inBounds {d : Device} (o : Outcome) {found : Found} (hpos : 0 < d.blockSize)
    (hfound : found.iBlockNum ≤ d.nvRamBlockNum) : (restoreFrom d o found).InBounds ↔
    ∀ r ∈ (mapBlock found.bitmap found.iBlockNum).bind fun pos => (readMap d found pos).result,
      wordAt r.buffer 0 + 18 ≤ d.tempSize := by
  simp only [restoreFrom, inBounds_touch, and_iff_right (bitmapAccesses_inBounds le_rfl)]
  cases mapBlock found.bitmap found.iBlockNum with
  | none => exact iff_of_true inBounds_exit (by simp)
  | some pos =>
    have hmap : (readMap d found pos).InBounds := by
      simp [readMap, Access.InBounds]
    simp only [inBounds_bind, and_iff_right hmap, inBounds_touch, inBounds_require,
      Option.bind_some]
    apply forall₂_congr
    intro r _
    have hheader : (∀ a ∈ headerAccesses d.tempSize (wordAt r.buffer 0), a.InBounds) ↔
        wordAt r.buffer 0 + 18 ≤ d.tempSize := by
      simp only [headerAccesses, List.forall_mem_cons, List.not_mem_nil, Access.InBounds,
        false_implies, implies_true, and_true]
      omega
    rw [hheader]
    apply and_iff_left_of_imp
    intro hfits _
    refine ⟨?_, fun _ => restoreData_inBounds hpos hfound pos r⟩
    intro a ha
    rw [List.mem_singleton.mp ha]
    simp only [Access.InBounds]
    omega

/-- Everything that the function touches of its buffers lies in them exactly if the first word, the
copies of the bitmap and the map file fit. -/
theorem restore_inBounds_iff (d : Device) (o : Outcome) :
    (nvmRestoreFromBinRegionOneFile d o).InBounds ↔ Fits d o := by
  simp only [nvmRestoreFromBinRegionOneFile, Fits, inBounds_require, inBounds_touch, inBounds_bind]
  apply forall_congr'
  intro hstarted
  have hpos : 0 < d.blockSize := Nat.pos_of_ne_zero hstarted.2.1
  have hfirst : (∀ a ∈ [(⟨d.blockSize, 0, d.blockSize⟩ : Access), ⟨d.blockSize, 0, 4⟩],
      a.InBounds) ↔ 4 ≤ d.blockSize := by simp [Access.InBounds]
  rw [hfirst]
  apply and_congr_right'
  apply forall_congr'
  intro _
  have hbitmap : (searchBitmap d).InBounds ↔ _ := search_inBounds d _ _
  rw [hbitmap, and_assoc]
  apply and_congr_right'
  apply and_congr_right'
  rw [mapRead]
  cases hfound : (searchBitmap d).result with
  | none => exact iff_of_true (by simp) (by simp)
  | some found =>
    have hlt : found.iBlockNum < d.nvRamBlockNum := search_lt hfound
    simp only [Option.mem_some_iff, forall_eq', Option.bind_some]
    exact restoreFrom_inBounds o hpos hlt.le

/-- Three blocks of 16 bytes: a map file of 100 bytes, and a bitmap without bad blocks. -/
def oversizedMap : Device where
  size := 48
  blockSize := 16
  writeSize := 4
  version := 1
  logBlock := 0
  resvBlock := 0
  dmBlock := 0
  length := 48
  bytes i := ((100 : UInt8) :: (List.replicate 24 0 ++ [0xDD, 0xCC, 0xBB, 0xAA])).getD i 0
  heap _ := 0
  sizeT := 18446744073709551616
  offT := 9223372036854775808
  size_lt := by decide

/-- The numbers behind the map file are read 80 bytes behind the end of the buffer. -/
theorem map_read_out_of_bounds :
    ¬ ∀ (d : Device) (o : Outcome), (nvmRestoreFromBinRegionOneFile d o).InBounds := by
  intro h
  have hcounts := h oversizedMap ⟨true, true, true, true, true, true, true, true, true⟩
    ⟨32, 112, 4⟩ (by decide +kernel)
  exact absurd hcounts (by decide)

end BackupRestore
