import VendorMediatek.ConvertAll

/-!
# The size of a file without check bytes

Five functions compute it from the table entry: `NVM_ResetFileToDefault`, `NVM_DataVerConvert`,
`NVM_CheckFileSize`, `NVM_RestoreFromFiles_OneFile` and `NVM_DataVerConvertAll`.
-/

namespace Nvram

open RecordFile

/-- The five agree on n. The file of a performance lid is left without check bytes, so what is
written to it can be measured. -/
structure UnsealedSize (f : TCfgFile) (n : ℕ) : Prop where
  reset : ∀ p lid d, p.tables.cfgFile lid = some f → lid ≠ iFileVerInfoLid → lid ∈ p.aPerformance →
    ∃ file, (nvmResetFileToDefault p lid d).2 lid = some file ∧ file.length = n
  convert : ∀ p env lid d, p.tables.cfgFile lid = some f → lid ≠ iFileVerInfoLid →
    lid ∈ p.aPerformance → (nvmDataVerConvert p env lid d).1 = true →
      ∃ file, (nvmDataVerConvert p env lid d).2 lid = some file ∧ file.length = n
  check : ∀ file, (nvmCheckFileSize f file = 0 ↔ file.length = n) ∧
    (nvmCheckFileSize f file = 1 ↔ file.length = n + 2)
  restore : ∀ p env lid d content, p.tables.cfgFile lid = some f → lid ≠ iFileVerInfoLid →
    env.binRegion = some content → d lid = none →
      ((nvmRestoreFromBinRegionOneFile p env lid d).2 lid = some content ↔ content.length = n + 2)
  load : ∀ size, loadFileSizeMatches f size = true ↔ size = n ∨ size = n + 2

variable {p : Platform} {lid : ℕ} {f : TCfgFile}

section Written

variable (hf : p.tables.cfgFile lid = some f) (hlid : lid ≠ iFileVerInfoLid)

include hf hlid

theorem reset_writes (hperf : lid ∈ p.aPerformance) (d : Disk) :
    (nvmResetFileToDefault p lid d).2 lid = some (f.defaultContent.getD []) := by
  simp only [nvmResetFileToDefault, hf, hlid, if_false]
  cases hc : f.defaultContent with
  | none => exact Function.update_self ..
  | some content =>
    simp only [hperf, if_true]
    rw [updateFileVer_apart hlid, Function.update_self]
    rfl

theorem convert_writes (hperf : lid ∈ p.aPerformance) {env : Surroundings} {d : Disk}
    (h : (nvmDataVerConvert p env lid d).1 = true) :
    ∃ file, (nvmDataVerConvert p env lid d).2 lid = some file ∧
      (file.length = f.i4RecSize * f.i4RecNum ∨ file = f.defaultContent.getD []) := by
  cases hv : d iFileVerInfoLid with
  | none => simp [nvmDataVerConvert, hv] at h
  | some verFile =>
    rw [nvmDataVerConvert_eq hf env hv] at h ⊢
    cases hver : convertedVer lid verFile with
    | none => exact ⟨_, reset_writes hf hlid hperf d, Or.inr rfl⟩
    | some ver =>
      simp only [hver] at h ⊢
      unfold convertData at h ⊢
      split at h
      · rename_i file convert hfile hconvert
        split at h
        · cases h
        · rename_i content hcontent
          simp only [hperf, if_true]
          refine ⟨content.val, ?_, Or.inl content.property⟩
          rw [updateFileVer_apart hlid, Function.update_self]
      · cases h

theorem restore_writes {env : Surroundings} {content : List UInt8} (hb : env.binRegion = some content)
    {d : Disk} (hd : d lid = none) :
    (nvmRestoreFromBinRegionOneFile p env lid d).2 lid = some content ↔
      content.length = f.i4RecNum * f.i4RecSize + 2 := by
  simp only [nvmRestoreFromBinRegionOneFile, hb, hf, hlid, if_false]
  split
  · rename_i hne
    have hsame : (ensureVerFile p.tables d) lid = none := (ensureVerFile_apart hlid ..).trans hd
    simp only [hsame, hne]
    simp
  · rename_i heq
    simpa using heq

end Written

theorem loadFileSizeMatches_iff (f : TCfgFile) (size : ℕ) :
    loadFileSizeMatches f size = true ↔
      size = f.i4RecSize * f.i4RecNum ∨ size = f.i4RecSize * f.i4RecNum + 2 := by
  simp only [loadFileSizeMatches, decide_eq_true_iff]
  constructor
  · rintro (h | h)
    · exact Or.inl h.symm
    · exact Or.inr h.symm
  · rintro (h | h)
    · exact Or.inl h.symm
    · exact Or.inr h.symm

/-- Where the check and the reset go by the size of the records the five agree. -/
theorem unsealedSize_of (hsize : f.contentSize = f.i4RecSize * f.i4RecNum)
    (hdefault : (f.defaultContent.getD []).length = f.i4RecSize * f.i4RecNum) :
    UnsealedSize f (f.i4RecSize * f.i4RecNum) := by
  constructor
  · intro p lid d hf hlid hperf
    exact ⟨_, reset_writes hf hlid hperf d, hdefault⟩
  · intro p env lid d hf hlid hperf h
    obtain ⟨file, hfile, hlen⟩ := convert_writes hf hlid hperf h
    refine ⟨file, hfile, ?_⟩
    rcases hlen with hlen | rfl
    · exact hlen
    · exact hdefault
  · intro file
    rw [nvmCheckFileSize_eq_zero, nvmCheckFileSize_eq_one, hsize]
    exact ⟨Iff.rfl, Iff.rfl⟩
  · intro p env lid d content hf hlid hb hd
    rw [restore_writes hf hlid hb hd, Nat.mul_comm]
  · exact loadFileSizeMatches_iff f

/-- Some platform on which lid 1 is a performance lid with this entry. -/
def platformOf (f : TCfgFile) : Platform where
  tables := ⟨[f, f], []⟩
  aPerformance := [1]
  aBackupToBinRegion := []
  specialLids := []
  erasable := false

theorem reset_of_unsealedSize {n : ℕ} (h : UnsealedSize f n) :
    (f.defaultContent.getD []).length = n := by
  have hf : (platformOf f).tables.cfgFile 1 = some f := rfl
  have hlid : 1 ≠ iFileVerInfoLid := by decide
  have hperf : 1 ∈ (platformOf f).aPerformance := List.mem_singleton.mpr rfl
  obtain ⟨file, hfile, hlen⟩ := h.reset _ 1 (fun _ => none) hf hlid hperf
  rw [reset_writes hf hlid hperf] at hfile
  rw [Option.some.inj hfile, hlen]

theorem load_of_unsealedSize {n : ℕ} (h : UnsealedSize f n) : f.i4RecSize * f.i4RecNum = n := by
  have hself := (h.load (f.i4RecSize * f.i4RecNum)).mp
    ((loadFileSizeMatches_iff f _).mpr (Or.inl rfl))
  have hother := (loadFileSizeMatches_iff f n).mp ((h.load n).mpr (Or.inl rfl))
  omega

/-- A default for several records is written once for each record, or rejected. -/
theorem defaultContent_multiple (ht : f.stDefualType = .multipleDefualtRec) :
    (f.defaultContent.getD []).length = 0 ∨
      2 ≤ f.i4RecNum ∧ (f.defaultContent.getD []).length = f.i4RecNum * (f.i4RecSize * f.i4RecNum) := by
  unfold TCfgFile.defaultContent
  rw [ht]
  cases f.pDefualtVaule with
  | none => exact Or.inl rfl
  | some value =>
    by_cases hfew : f.i4RecNum < 2
    · simp [hfew]
    · refine Or.inr ⟨Nat.le_of_not_lt hfew, ?_⟩
      simp [hfew, List.length_flatten, value.property]

theorem defaultContent_records (ht : f.stDefualType ≠ .multipleDefualtRec) :
    (f.defaultContent.getD []).length = f.i4RecSize * f.i4RecNum := by
  cases hc : f.defaultContent with
  | some content =>
    rw [Option.getD_some, length_defaultContent hc, contentSize_of_ne ht]
  | none =>
    unfold TCfgFile.defaultContent at hc
    cases hty : f.stDefualType with
    | multipleDefualtRec => exact absurd hty ht
    | signleDefualtRec =>
      have hvalue := f.single_value hty
      rw [hty] at hc
      simp only [Option.map_eq_none_iff] at hc
      rw [hc] at hvalue
      cases hvalue
    | defaultZero =>
      rw [hty] at hc
      cases hc
    | defaultFF =>
      rw [hty] at hc
      cases hc

/-- When all code paths agree on one unsealed size. -/
theorem unsealed_size_iff (f : TCfgFile) :
    (∃ n, UnsealedSize f n) ↔
      f.stDefualType ≠ .multipleDefualtRec ∨ f.i4RecNum * f.i4RecSize = 0 := by
  constructor
  · rintro ⟨n, h⟩
    by_cases ht : f.stDefualType = .multipleDefualtRec
    · right
      have hload := load_of_unsealedSize h
      have hreset := reset_of_unsealedSize h
      rw [Nat.mul_comm, hload]
      rcases defaultContent_multiple ht with hzero | ⟨hmany, hlen⟩
      · rw [← hreset, hzero]
      · rw [hreset, hload] at hlen
        by_contra hpos
        have hlt : 1 * n < f.i4RecNum * n :=
          Nat.mul_lt_mul_of_pos_right hmany (Nat.pos_of_ne_zero hpos)
        omega
    · exact Or.inl ht
  · intro h
    refine ⟨_, unsealedSize_of ?_ ?_⟩
    · rcases h with ht | hzero
      · exact contentSize_of_ne ht
      · unfold TCfgFile.contentSize
        cases f.stDefualType with
        | multipleDefualtRec => rw [Nat.mul_assoc, Nat.mul_comm f.i4RecSize, hzero]; rfl
        | _ => exact Nat.mul_comm ..
    · by_cases ht : f.stDefualType = .multipleDefualtRec
      · have hzero : f.i4RecSize * f.i4RecNum = 0 := by
          rw [Nat.mul_comm]
          exact h.resolve_left (not_not.mpr ht)
        rcases defaultContent_multiple ht with hrejected | ⟨_, hlen⟩
        · rw [hrejected, hzero]
        · rw [hlen, hzero, Nat.mul_zero]
      · exact defaultContent_records ht

theorem slash65_length : [slash, 65].length < fileNameLength := by decide

theorem slash65_terminated : 0 ∉ [slash, 65] := by decide

/-- An entry of two records of one byte, with the default of both. -/
def twoRecords : TCfgFile where
  cFileName := [slash, 65]
  cFileVer := [48, 48, 48, 0]
  i4RecSize := 1
  i4RecNum := 2
  stDefualType := .multipleDefualtRec
  pDefualtVaule := some ⟨[7, 7], rfl⟩
  bDataProcessingType := .dataReset
  nvmDataConvertFunc := none
  name_length := slash65_length
  name_terminated := slash65_terminated
  ver_length := rfl
  single_value := by intro h; cases h

/-- The reset writes four bytes, the restore demands the two bytes of the records and two more. -/
theorem two_records_sizes_differ : ¬ ∀ f : TCfgFile, ∃ n, UnsealedSize f n := by
  intro h
  obtain ⟨n, hn⟩ := h twoRecords
  have hreset := reset_of_unsealedSize hn
  have hload := load_of_unsealedSize hn
  rw [← hload] at hreset
  revert hreset
  decide

end Nvram
