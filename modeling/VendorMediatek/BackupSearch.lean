import VendorMediatek.BackupRegion

/-!
# Two searches of the backup region

`NVM_GetBackupFileNum` takes the last block with three copies, `NVM_RestoreFromBinRegion_OneFile`
the last one that carries the flag behind them, and for a large map it leaves out the last block.
When they find the same block.
-/

namespace BackupRegion

open HistoryLog (wordAt uint32)

variable {p : Partition}

/-- A block of the partition, or what stands from an offset on. -/
def Partition.from (p : Partition) (off : ℕ) : ℕ → UInt8 := fun i => p.bytes (off + i)

/-! ## Reading blocks -/

theorem wordAt_congr {buffer buffer' : ℕ → UInt8} {off : ℕ}
    (h : ∀ i, i < 4 → buffer' (off + i) = buffer (off + i)) :
    wordAt buffer' off = wordAt buffer off := by
  have h0 := h 0 (by decide)
  rw [Nat.add_zero] at h0
  simp only [wordAt, h0, h 1 (by decide), h 2 (by decide), h 3 (by decide)]

theorem threeCopies_congr {n : ℕ} {buffer buffer' : ℕ → UInt8}
    (h : ∀ i, i < 3 * n + 4 → buffer' i = buffer i) :
    ThreeCopies n buffer' ↔ ThreeCopies n buffer := by
  unfold ThreeCopies
  have hsecond : ∀ i < n, (buffer' i = buffer' (n + i) ↔ buffer i = buffer (n + i)) := by
    intro i hi
    rw [h i (by omega), h (n + i) (by omega)]
  have hthird : ∀ i < n, (buffer' i = buffer' (2 * n + i) ↔ buffer i = buffer (2 * n + i)) := by
    intro i hi
    rw [h i (by omega), h (2 * n + i) (by omega)]
  exact and_congr (forall₂_congr hsecond) (forall₂_congr hthird)

theorem carriesFlag_congr {n : ℕ} {buffer buffer' : ℕ → UInt8}
    (h : ∀ i, i < 3 * n + 4 → buffer' i = buffer i) :
    CarriesFlag n buffer' ↔ CarriesFlag n buffer := by
  unfold CarriesFlag
  rw [wordAt_congr fun i hi => h (3 * n + i) (by omega)]

theorem available_full {off len : ℕ} (h : off + len ≤ p.size) : available p off len = len := by
  unfold available
  omega

theorem lseek_within {off : ℕ} (position : ℕ) (h : off ≤ p.size) : lseek p off position = off :=
  if_pos h

theorem block_within {b : ℕ} (hb : b < p.nvRamBlockNum) :
    b * p.blockSize + p.blockSize ≤ p.size := by
  have hcount : p.nvRamBlockNum ≤ p.size / p.blockSize := by
    unfold Layout.nvRamBlockNum Layout.binRegionBlockTotalNum
    generalize p.size / p.blockSize = blocks
    split <;> omega
  have hmul : (b + 1) * p.blockSize ≤ p.size / p.blockSize * p.blockSize :=
    Nat.mul_le_mul_right _ (by omega)
  rw [Nat.div_mul_cancel p.blockSize_dvd, Nat.succ_mul] at hmul
  exact hmul

/-! ## The search -/

section Search

variable {offset : ℕ → ℕ} {accepts : (ℕ → UInt8) → Prop} [DecidablePred accepts]

/-- The search ends at a block from some number on, with none behind it that is accepted, or it
goes on below that number. -/
structure EndsAt (p : Partition) (offset : ℕ → ℕ) (accepts : (ℕ → UInt8) → Prop) (lo m : ℕ)
    (found : Found) : Prop where
  low : lo ≤ found.iBlockNum
  high : found.iBlockNum < m
  readAt : found.readAt = offset found.iBlockNum
  bitmap : ∀ i < p.blockSize, found.bitmap i = p.from found.readAt i
  accepted : accepts (p.from found.readAt)
  last : ∀ k, found.iBlockNum < k → k < m → ¬ accepts (p.from (offset k))

theorem search_lt {m : ℕ} {r : Reader} {found : Found}
    (h : search p offset accepts m r = some found) : found.iBlockNum < m := by
  induction m generalizing r with
  | zero => cases h
  | succ m ih =>
    simp only [search] at h
    split at h
    · cases h
    · split at h
      · cases h
        exact Nat.lt_succ_self m
      · exact Nat.lt_succ_of_lt (ih h)

theorem search_accepted {m : ℕ} {r : Reader} {found : Found}
    (h : search p offset accepts m r = some found) : accepts found.bitmap := by
  induction m generalizing r with
  | zero => cases h
  | succ m ih =>
    simp only [search] at h
    split at h
    · cases h
    · split at h
      · rename_i haccepts
        cases h
        exact haccepts
      · exact ih h

theorem read_buffer {off : ℕ} (hfull : off + p.blockSize ≤ p.size) (buffer : ℕ → UInt8) :
    ∀ i < p.blockSize, (Reader.read p ⟨off, buffer⟩ p.blockSize).buffer i = p.from off i := by
  intro i hi
  simp only [Reader.read, available_full hfull]
  exact if_pos hi

theorem forall_between_succ {P : ℕ → Prop} {lo m : ℕ} (h : ∀ k, lo ≤ k → k < m → P k) (hm : P m) :
    ∀ k, lo ≤ k → k < m + 1 → P k := by
  intro k hlo hk
  rcases Nat.lt_or_eq_of_le (Nat.lt_succ_iff.mp hk) with hk | rfl
  · exact h k hlo hk
  · exact hm

theorem search_cases {lo m : ℕ} (hwithin : ∀ k, lo ≤ k → k < m → offset k + p.blockSize ≤ p.size)
    (hcongr : ∀ buffer buffer' : ℕ → UInt8, (∀ i < p.blockSize, buffer' i = buffer i) →
      (accepts buffer' ↔ accepts buffer)) (r : Reader) :
    (∃ found, search p offset accepts m r = some found ∧ EndsAt p offset accepts lo m found) ∨
      ((∀ k, lo ≤ k → k < m → ¬ accepts (p.from (offset k))) ∧
        ∀ found, search p offset accepts m r = some found → found.iBlockNum < lo) := by
  induction m generalizing r with
  | zero =>
    right
    constructor
    · intro k _ hk
      exact absurd hk (Nat.not_lt_zero k)
    · rintro found ⟨⟩
  | succ m ih =>
    rcases Nat.lt_or_ge m lo with hlow | hlow
    · right
      constructor
      · intro k hlo hk
        omega
      · intro found hfound
        exact Nat.lt_of_lt_of_le (search_lt hfound) hlow
    · have hfull := hwithin m hlow (Nat.lt_succ_self m)
      have hread := read_buffer hfull r.buffer
      have hpos := p.blockSize_pos
      have hseek : lseek p (offset m) r.position = offset m := lseek_within _ (by omega)
      simp only [search, hseek, available_full hfull, if_neg (Nat.ne_of_gt hpos)]
      by_cases haccepts : accepts (Reader.read p ⟨offset m, r.buffer⟩ p.blockSize).buffer
      · left
        rw [if_pos haccepts]
        refine ⟨_, rfl, hlow, Nat.lt_succ_self m, rfl, hread, (hcongr _ _ hread).mp haccepts, ?_⟩
        intro k hlo hk
        change m < k at hlo
        omega
      · rw [if_neg haccepts]
        have hnot : ¬ accepts (p.from (offset m)) := fun h => haccepts ((hcongr _ _ hread).mpr h)
        rcases ih (fun k hlo hk => hwithin k hlo (by omega))
          (Reader.read p ⟨offset m, r.buffer⟩ p.blockSize) with ⟨found, hfound, hends⟩ | ⟨hnone, hrest⟩
        · left
          refine ⟨found, hfound, { hends with high := Nat.lt_succ_of_lt hends.high, last := ?_ }⟩
          exact forall_between_succ hends.last hnot
        · right
          exact ⟨forall_between_succ hnone hnot, hrest⟩

end Search

/-! ## The blocks that the functions end at -/

/-- The last block with three copies. -/
structure LastCopies (p : Partition) (b : ℕ) : Prop where
  high : b < p.nvRamBlockNum
  copies : ThreeCopies p.nvRamBlockNum (p.from (b * p.blockSize))
  last : ∀ k, b < k → k < p.nvRamBlockNum →
    ¬ ThreeCopies p.nvRamBlockNum (p.from (k * p.blockSize))

theorem LastCopies.unique {b b' : ℕ} (h : LastCopies p b) (h' : LastCopies p b') : b = b' := by
  rcases Nat.lt_trichotomy b b' with hlt | heq | hgt
  · exact absurd h'.copies (h.last b' hlt h'.high)
  · exact heq
  · exact absurd h.copies (h'.last b hgt h.high)

theorem copies_congr (buffer buffer' : ℕ → UInt8)
    (h : ∀ i < p.blockSize, buffer' i = buffer i) :
    ThreeCopies p.nvRamBlockNum buffer' ↔ ThreeCopies p.nvRamBlockNum buffer :=
  threeCopies_congr fun i hi => h i (Nat.lt_of_lt_of_le hi p.copies_fit)

theorem flag_congr {buffer buffer' : ℕ → UInt8}
    (h : ∀ i < p.blockSize, buffer' i = buffer i) :
    CarriesFlag p.nvRamBlockNum buffer' ↔ CarriesFlag p.nvRamBlockNum buffer :=
  carriesFlag_congr fun i hi => h i (Nat.lt_of_lt_of_le hi p.copies_fit)

theorem backupBitmap_eq (hvalid : p.Valid) {b : ℕ} (h : LastCopies p b) :
    ∃ found, backupBitmap p = some found ∧ found.iBlockNum = b ∧
      found.readAt = b * p.blockSize ∧
      ∀ i < p.blockSize, found.bitmap i = p.from (b * p.blockSize) i := by
  unfold backupBitmap
  rw [if_pos hvalid]
  have hwithin : ∀ k, 0 ≤ k → k < p.nvRamBlockNum → k * p.blockSize + p.blockSize ≤ p.size :=
    fun k _ hk => block_within hk
  rcases search_cases hwithin copies_congr ⟨0, p.heap⟩ with ⟨found, hfound, hends⟩ | ⟨hnone, _⟩
  · have hreadAt : found.readAt = found.iBlockNum * p.blockSize := hends.readAt
    have hcopies := hends.accepted
    rw [hreadAt] at hcopies
    have hlast : LastCopies p found.iBlockNum := ⟨hends.high, hcopies, hends.last⟩
    obtain rfl := hlast.unique h
    refine ⟨found, hfound, rfl, hreadAt, ?_⟩
    rw [← hreadAt]
    exact hends.bitmap
  · exact absurd h.copies (hnone b (Nat.zero_le b) h.high)

theorem backupBitmap_some {found : Found} (h : backupBitmap p = some found) :
    p.Valid ∧ LastCopies p found.iBlockNum := by
  unfold backupBitmap at h
  split at h
  · rename_i hvalid
    have hwithin : ∀ k, 0 ≤ k → k < p.nvRamBlockNum → k * p.blockSize + p.blockSize ≤ p.size :=
      fun k _ hk => block_within hk
    refine ⟨hvalid, ?_⟩
    rcases search_cases hwithin copies_congr ⟨0, p.heap⟩ with ⟨found', hfound, hends⟩ | ⟨_, hrest⟩
    · obtain rfl := Option.some.inj (h.symm.trans hfound)
      have hreadAt : found.readAt = found.iBlockNum * p.blockSize := hends.readAt
      have hcopies := hends.accepted
      rw [hreadAt] at hcopies
      exact ⟨hends.high, hcopies, hends.last⟩
    · exact absurd (hrest found h) (Nat.not_lt_zero _)
  · cases h

/-- NVM_RestoreFromBinRegion_OneFile reads so many blocks further down. -/
theorem restoreOffset_eq {k : ℕ} (hlow : iReservePos p ≤ k) (hk : k < p.nvRamBlockNum) :
    restoreOffset p k = (k - iReservePos p) * p.blockSize := by
  have hfull := block_within (p := p) (b := k - iReservePos p) (by omega)
  have hsize := p.size_lt
  have hshift : k + 4294967296 - iReservePos p = k - iReservePos p + 4294967296 := by omega
  unfold restoreOffset uint32
  rw [hshift, Nat.add_mul, Nat.add_mul_mod_self_left, Nat.mod_eq_of_lt (by omega)]

theorem restore_within (k : ℕ) (hlow : iReservePos p ≤ k) (hk : k < p.nvRamBlockNum) :
    restoreOffset p k + p.blockSize ≤ p.size := by
  rw [restoreOffset_eq hlow hk]
  exact block_within (by omega)

theorem marked_congr (buffer buffer' : ℕ → UInt8)
    (h : ∀ i < p.blockSize, buffer' i = buffer i) :
    (ThreeCopies p.nvRamBlockNum buffer' ∧ CarriesFlag p.nvRamBlockNum buffer') ↔
      (ThreeCopies p.nvRamBlockNum buffer ∧ CarriesFlag p.nvRamBlockNum buffer) :=
  and_congr (copies_congr buffer buffer' h) (flag_congr h)

/-- NVM_RestoreFromBinRegion_OneFile comes to the last block with three copies where the flag
follows them and the block is not left out. -/
theorem restoreBitmap_eq (hvalid : p.Valid) {b : ℕ} (h : LastCopies p b)
    (hflag : CarriesFlag p.nvRamBlockNum (p.from (b * p.blockSize)))
    (hroom : b + iReservePos p < p.nvRamBlockNum) :
    ∃ found, restoreBitmap p = some found ∧ found.iBlockNum = b + iReservePos p ∧
      found.readAt = b * p.blockSize ∧
      ∀ i < p.blockSize, found.bitmap i = p.from (b * p.blockSize) i := by
  have hat : restoreOffset p (b + iReservePos p) = b * p.blockSize := by
    rw [restoreOffset_eq (Nat.le_add_left _ _) hroom, Nat.add_sub_cancel]
  unfold restoreBitmap
  rw [if_pos hvalid]
  rcases search_cases restore_within marked_congr ⟨(firstRead p).position, p.heap⟩ with
    ⟨found, hfound, hends⟩ | ⟨hnone, _⟩
  · have hreadAt : found.readAt = (found.iBlockNum - iReservePos p) * p.blockSize := by
      rw [hends.readAt, restoreOffset_eq hends.low hends.high]
    have hlow := hends.low
    have hhigh := hends.high
    have hnumber : found.iBlockNum = b + iReservePos p := by
      rcases Nat.lt_trichotomy found.iBlockNum (b + iReservePos p) with hlt | heq | hgt
      · have hmarked := hends.last _ hlt hroom
        rw [hat] at hmarked
        exact absurd ⟨h.copies, hflag⟩ hmarked
      · exact heq
      · have hcopies := hends.accepted.1
        rw [hreadAt] at hcopies
        exact absurd hcopies (h.last _ (by omega) (by omega))
    have hsame : found.readAt = b * p.blockSize := by
      rw [hends.readAt, hnumber, hat]
    refine ⟨found, hfound, hnumber, hsame, ?_⟩
    rw [← hsame]
    exact hends.bitmap
  · have hmarked := hnone _ (Nat.le_add_left _ _) hroom
    rw [hat] at hmarked
    exact absurd ⟨h.copies, hflag⟩ hmarked

theorem restoreBitmap_readAt {found : Found} (h : restoreBitmap p = some found)
    (hlow : iReservePos p ≤ found.iBlockNum) :
    found.iBlockNum < p.nvRamBlockNum ∧
      found.readAt = (found.iBlockNum - iReservePos p) * p.blockSize := by
  unfold restoreBitmap at h
  split at h
  · rcases search_cases restore_within marked_congr ⟨(firstRead p).position, p.heap⟩ with
      ⟨found', hfound, hends⟩ | ⟨_, hrest⟩
    · obtain rfl := Option.some.inj (h.symm.trans hfound)
      refine ⟨hends.high, ?_⟩
      rw [hends.readAt, restoreOffset_eq hends.low hends.high]
    · exact absurd (hrest found h) (Nat.not_lt.mpr hlow)
  · cases h

theorem restoreBitmap_flagged {found : Found} (h : restoreBitmap p = some found) :
    CarriesFlag p.nvRamBlockNum found.bitmap := by
  unfold restoreBitmap at h
  split at h
  · exact (search_accepted h).2
  · cases h

/-! ## The map block -/

theorem mapBlock_lt {bitmap : ℕ → UInt8} {k pos : ℕ} (h : mapBlock bitmap k = some pos) :
    pos < k := List.mem_range.mp (List.mem_of_find?_eq_some h)

theorem mapBlock_congr {bitmap bitmap' : ℕ → UInt8} {k : ℕ}
    (h : ∀ i < k, bitmap' i = bitmap i) : mapBlock bitmap' k = mapBlock bitmap k := by
  induction k with
  | zero => rfl
  | succ k ih =>
    have hfirst := ih fun i hi => h i (Nat.lt_succ_of_lt hi)
    unfold mapBlock at hfirst ⊢
    simp only [List.range_succ, List.find?_append, hfirst, List.find?_singleton,
      h k (Nat.lt_succ_self k)]

theorem mapBlock_add {bitmap : ℕ → UInt8} {k pos : ℕ} (h : mapBlock bitmap k = some pos) (j : ℕ) :
    mapBlock bitmap (k + j) = some pos := by
  induction j with
  | zero => exact h
  | succ j ih =>
    unfold mapBlock at ih ⊢
    rw [← Nat.add_assoc, List.range_succ, List.find?_append, ih]
    rfl

/-- The numbers behind the map file are in the partition, or the seek to them fails and what comes
after the size of the map file is read. -/
def CountsFit (p : Partition) (pos : ℕ) : Prop :=
  p.size < (pos * p.blockSize + 12 + wordAt p.bytes (pos * p.blockSize)) % p.sizeT ∨
    (pos * p.blockSize + 12 + wordAt p.bytes (pos * p.blockSize)) % p.sizeT + 6 ≤ p.size

/-- There is a map file by the bitmap of a block. -/
def HasMap (p : Partition) (b : ℕ) : Prop :=
  ∃ pos, mapBlock (p.from (b * p.blockSize)) b = some pos ∧
    wordAt p.bytes (pos * p.blockSize) ≠ 0 ∧ CountsFit p pos

theorem numbers_available {pos : ℕ} (hpos : pos + 2 ≤ p.nvRamBlockNum) :
    (available p (countsAt p pos) 4 = 4 ∧ available p (countsAt p pos + 4) 2 = 2) ↔
      CountsFit p pos := by
  have hfull := block_within (p := p) (b := pos + 1) (by omega)
  rw [Nat.succ_mul] at hfull
  have hroom := p.copies_fit
  unfold countsAt CountsFit available lseek
  generalize (pos * p.blockSize + 12 + wordAt p.bytes (pos * p.blockSize)) % p.sizeT = off
  split
  · rename_i hle
    omega
  · rename_i hgt
    omega

theorem nvmGetBackupFileNum_cases {found : Found} (hfound : backupBitmap p = some found) :
    (∀ r, nvmGetBackupFileNum p = some r → r.found = found ∧
      mapBlock found.bitmap found.iBlockNum = some r.pos ∧ HasMap p found.iBlockNum) ∧
      (HasMap p found.iBlockNum → (nvmGetBackupFileNum p).isSome) := by
  obtain ⟨hvalid, hlast⟩ := backupBitmap_some hfound
  obtain ⟨found', hfound', _, _, hbitmap⟩ := backupBitmap_eq hvalid hlast
  obtain rfl := Option.some.inj (hfound.symm.trans hfound')
  have hhigh := hlast.high
  have hroom := p.copies_fit
  have hmap : mapBlock found.bitmap found.iBlockNum =
      mapBlock (p.from (found.iBlockNum * p.blockSize)) found.iBlockNum :=
    mapBlock_congr fun i hi => hbitmap i (by omega)
  constructor
  · intro r hr
    simp only [nvmGetBackupFileNum, hfound, Option.bind_some] at hr
    cases hpos : mapBlock found.bitmap found.iBlockNum with
    | none =>
      rw [hpos] at hr
      cases hr
    | some pos =>
      have hlt := mapBlock_lt hpos
      rw [hpos, Option.bind_some] at hr
      split_ifs at hr with _ _ hsize hap hmd
      cases hr
      have hfit := (numbers_available (by omega)).mp ⟨not_not.mp hap, not_not.mp hmd⟩
      exact ⟨rfl, rfl, pos, hmap.symm.trans hpos, hsize, hfit⟩
  · rintro ⟨pos, hpos, hsize, hfit⟩
    have hlt := mapBlock_lt hpos
    have hfull := block_within (p := p) (b := pos) (by omega)
    obtain ⟨hap, hmd⟩ := (numbers_available (by omega)).mpr hfit
    have hword : available p (pos * p.blockSize) 4 = 4 := available_full (by omega)
    simp only [nvmGetBackupFileNum, hfound, Option.bind_some, hmap, hpos]
    rw [if_neg (by omega), if_neg (not_not.mpr hword), if_neg hsize, if_neg (not_not.mpr hap),
      if_neg (not_not.mpr hmd)]
    rfl

/-- The rest of NVM_RestoreFromBinRegion_OneFile's search, once a map block is found. -/
theorem nvmRestoreFromBinRegionOneFile_eq {found : Found} {pos : ℕ}
    (hfound : restoreBitmap p = some found)
    (hpos : mapBlock found.bitmap found.iBlockNum = some pos) (hlt : pos < p.nvRamBlockNum) :
    nvmRestoreFromBinRegionOneFile p = some (found, pos) := by
  have hfull := block_within hlt
  have hsize := p.blockSize_pos
  have hcount : 1 ≤ iReserveBlockCount p := by
    unfold iReserveBlockCount
    split <;> decide
  have hlen : p.blockSize ≤ p.blockSize * iReserveBlockCount p := Nat.le_mul_of_pos_right _ hcount
  have hsome : ¬ available p (pos * p.blockSize) (p.blockSize * iReserveBlockCount p) = 0 := by
    unfold available
    omega
  simp only [nvmRestoreFromBinRegionOneFile, hfound, Option.bind_some, hpos]
  rw [lseek_within _ (by omega), if_neg hsome]

theorem nvmRestoreFromBinRegionOneFile_some {found : Found} {pos : ℕ}
    (h : nvmRestoreFromBinRegionOneFile p = some (found, pos)) :
    restoreBitmap p = some found ∧ pos < found.iBlockNum := by
  unfold nvmRestoreFromBinRegionOneFile at h
  obtain ⟨found', hfound, h⟩ := Option.bind_eq_some_iff.mp h
  obtain ⟨pos', hpos, h⟩ := Option.bind_eq_some_iff.mp h
  have hlt := mapBlock_lt hpos
  dsimp only at h
  split at h
  · cases h
  · cases h
    exact ⟨hfound, hlt⟩

/-! ## When the functions agree -/

/-- The bitmap and the map block of a success of NVM_GetBackupFileNum are those that
NVM_RestoreFromBinRegion_OneFile goes by, and neither takes a block without the flag. -/
structure LocateAlike (p : Partition) : Prop where
  same : ∀ r, nvmGetBackupFileNum p = some r →
    ∃ found, nvmRestoreFromBinRegionOneFile p = some (found, r.pos) ∧
      found.readAt = r.found.readAt ∧ ∀ i < p.nvRamBlockNum, found.bitmap i = r.found.bitmap i
  backup_flagged : ∀ found, backupBitmap p = some found → CarriesFlag p.nvRamBlockNum found.bitmap
  restore_flagged : ∀ found, restoreBitmap p = some found → CarriesFlag p.nvRamBlockNum found.bitmap

/-- The last block with three copies carries the flag, and where the map is large it is not the
last of all, unless there is no map file by it. -/
def Marked (p : Partition) : Prop :=
  p.Valid → ∀ b, LastCopies p b →
    CarriesFlag p.nvRamBlockNum (p.from (b * p.blockSize)) ∧
      (LargeMap p → b + 1 = p.nvRamBlockNum → ¬ HasMap p b)

/-- Where the functions agree, what NVM_GetBackupFileNum finds has passed the test of the other. -/
theorem LocateAlike.marked {p : Partition} (halike : LocateAlike p) : Marked p := by
  intro hvalid b hlast
  obtain ⟨found, hfound, hnumber, hreadAt, hbitmap⟩ := backupBitmap_eq hvalid hlast
  constructor
  · exact (flag_congr hbitmap).mp (halike.backup_flagged found hfound)
  · intro hlarge hend hmap
    obtain ⟨hget, hsome⟩ := nvmGetBackupFileNum_cases hfound
    rw [hnumber] at hsome
    obtain ⟨r, hr⟩ := Option.isSome_iff_exists.mp (hsome hmap)
    obtain ⟨found', hrestore, hsame, _⟩ := halike.same r hr
    obtain ⟨hfound', hlt⟩ := nvmRestoreFromBinRegionOneFile_some hrestore
    have hone : iReservePos p = 1 := if_pos hlarge
    obtain ⟨hhigh, hat⟩ := restoreBitmap_readAt hfound' (by omega)
    -- the block is further down than the last
    rw [(hget r hr).1, hreadAt, hat, hone] at hsame
    have hblock := Nat.eq_of_mul_eq_mul_right p.blockSize_pos hsame
    omega

theorem Marked.locateAlike {p : Partition} (hmarked : Marked p) : LocateAlike p := by
  have hflag : ∀ found, backupBitmap p = some found →
      CarriesFlag p.nvRamBlockNum found.bitmap := by
    intro found hfound
    obtain ⟨hvalid, hlast⟩ := backupBitmap_some hfound
    obtain ⟨found', hfound', _, _, hbitmap⟩ := backupBitmap_eq hvalid hlast
    obtain rfl := Option.some.inj (hfound.symm.trans hfound')
    exact (flag_congr hbitmap).mpr (hmarked hvalid _ hlast).1
  refine ⟨?_, hflag, fun _ => restoreBitmap_flagged⟩
  intro r hr
  obtain ⟨found, hfound, _⟩ := Option.bind_eq_some_iff.mp hr
  obtain ⟨hvalid, hlast⟩ := backupBitmap_some hfound
  obtain ⟨found', hfound', _, hreadAt, hbitmap⟩ := backupBitmap_eq hvalid hlast
  obtain rfl := Option.some.inj (hfound.symm.trans hfound')
  obtain ⟨hsame, hpos, hmap⟩ := (nvmGetBackupFileNum_cases hfound).1 r hr
  obtain ⟨hcarries, hlarge⟩ := hmarked hvalid _ hlast
  have hhigh := hlast.high
  have hroom : found.iBlockNum + iReservePos p < p.nvRamBlockNum := by
    unfold iReservePos
    split
    · rename_i h
      have hnot : found.iBlockNum + 1 ≠ p.nvRamBlockNum := fun heq => hlarge h heq hmap
      omega
    · exact hhigh
  obtain ⟨found', hrestore, hnumber, hat, hbitmap'⟩ := restoreBitmap_eq hvalid hlast hcarries hroom
  have hfit := p.copies_fit
  have hequal : ∀ i < p.nvRamBlockNum, found'.bitmap i = found.bitmap i := by
    intro i hi
    rw [hbitmap' i (by omega), hbitmap i (by omega)]
  have hpos' : mapBlock found'.bitmap found'.iBlockNum = some r.pos := by
    rw [hnumber]
    apply mapBlock_add
    rw [mapBlock_congr fun i hi => hequal i (Nat.lt_trans hi hhigh)]
    exact hpos
  have hlt : r.pos < p.nvRamBlockNum := Nat.lt_trans (mapBlock_lt hpos) hhigh
  refine ⟨found', nvmRestoreFromBinRegionOneFile_eq hrestore hpos' hlt, ?_, ?_⟩
  · rw [hsame, hat, hreadAt]
  · rw [hsame]
    exact hequal

theorem locate_alike_iff_marked (p : Partition) : LocateAlike p ↔ Marked p := by
  constructor
  · exact LocateAlike.marked
  · exact Marked.locateAlike

/-- Four blocks of 128K, two of them kept back, with nothing but a map size in the first. -/
def unmarked : Partition where
  size := 524288
  blockSize := 131072
  writeSize := 2048
  version := 1
  logBlock := 0
  resvBlock := 0
  dmBlock := 2
  bytes := fun i => if i = 0 then 16 else 0
  heap := fun _ => 0
  sizeT := 18446744073709551616
  blockSize_pos := by decide
  writeSize_pos := by decide
  blockSize_dvd := by decide
  size_lt := by decide
  copies_fit := by decide

/-- A block of zeros is taken for the bitmap by one function only. -/
theorem unmarked_block_accepted : ¬ ∀ p : Partition, LocateAlike p := by
  intro h
  have hbackup : (nvmGetBackupFileNum unmarked).isSome = true := by decide +kernel
  have hrestore : (nvmRestoreFromBinRegionOneFile unmarked).isSome = false := by decide +kernel
  obtain ⟨r, hr⟩ := Option.isSome_iff_exists.mp hbackup
  obtain ⟨found, hfound, _⟩ := (h unmarked).same r hr
  rw [hfound] at hrestore
  cases hrestore

end BackupRegion
