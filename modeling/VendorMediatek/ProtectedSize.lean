import VendorMediatek.SessionFrame
import VendorMediatek.UnsealedSizes

/-!
# What NVM_ProtectDataFile leaves behind

The restore demands the size of the records, the check of a type with several defaults another
one. So the file that `NVM_ProtectDataFile` calls protected can have a wrong size, and a converted
file can be replaced.
-/

namespace Nvram

open RecordFile

variable {p : Platform} {lid : ℕ} {f : TCfgFile}

/-- The backup region yields content that a restore of the lid accepts. -/
structure Restorable (p : Platform) (env : Surroundings) (lid : ℕ) (f : TCfgFile)
    (content : List UInt8) : Prop where
  listed : (lid, f.targetName) ∈ p.aBackupToBinRegion
  yields : env.binRegion = some content
  length : content.length = f.i4RecNum * f.i4RecSize + 2
  check : nvmCheckFile content = true
  size : nvmCheckFileSize f content ≠ -1

section OwnFile

variable (hlid : lid ≠ iFileVerInfoLid) (hf : p.tables.cfgFile lid = some f)

include hlid hf

theorem restoreOrReset_restores {env : Surroundings} {content : List UInt8}
    (h : Restorable p env lid f content) (d : Disk) :
    (restoreOrReset p env lid f d).1 = 1 ∧
      (restoreOrReset p env lid f d).2 lid = some content := by
  have hrestored : nvmRestoreFromBinRegionOneFile p env lid d =
      (true, Function.update (ensureVerFile p.tables d) lid (some content)) := by
    simp only [nvmRestoreFromBinRegionOneFile, h.yields, hf, hlid, if_false]
    rw [if_neg (not_not.mpr h.length)]
    simp [h.check, h.size]
  simp only [restoreOrReset, if_pos h.listed, hrestored, if_true]
  exact ⟨trivial, Function.update_self ..⟩

theorem nvmResetFileToDefault_default (hperf : lid ∉ p.aPerformance) (d : Disk) :
    ((nvmResetFileToDefault p lid d).1 = true ↔ f.defaultContent.isSome) ∧
      ∀ content, f.defaultContent = some content →
        (nvmResetFileToDefault p lid d).2 lid = some (sealPayload content) := by
  simp only [nvmResetFileToDefault, hf, hlid, if_false]
  cases hc : f.defaultContent with
  | none => simp
  | some content =>
    simp only [hperf, if_false, Option.isSome_some, true_and]
    rintro _ ⟨⟩
    rw [Function.update_self, nvmSetCheckNo_new]

theorem restoreOrReset_resets (hperf : lid ∉ p.aPerformance) {env : Surroundings}
    (h : ∀ content, ¬ Restorable p env lid f content) (d : Disk) :
    ((restoreOrReset p env lid f d).1 = 1 ↔ f.defaultContent.isSome) ∧
      ∀ content, f.defaultContent = some content →
        (restoreOrReset p env lid f d).2 lid = some (sealPayload content) := by
  have hnot : ¬ (if (lid, f.targetName) ∈ p.aBackupToBinRegion then
      nvmRestoreFromBinRegionOneFile p env lid d else (false, d)).1 = true := by
    split
    · rename_i hlisted
      intro hok
      obtain ⟨content, hb, -, hcheck, hsize, hlen⟩ :=
        nvmRestoreFromBinRegionOneFile_checked hlid hf hok
      exact h content ⟨hlisted, hb, hlen, hcheck, hsize⟩
    · exact Bool.false_ne_true
  rw [restoreOrReset, if_neg hnot]
  obtain ⟨hone, hfile⟩ := nvmResetFileToDefault_default hlid hf hperf
    (if (lid, f.targetName) ∈ p.aBackupToBinRegion then
      nvmRestoreFromBinRegionOneFile p env lid d else (false, d)).2
  refine ⟨?_, hfile⟩
  rw [← hone]
  simp

end OwnFile

/-! ## The size that a restore accepts -/

theorem two_of_squares {n s : ℕ} (h : n * s + 2 = n * n * s) : n = 2 ∧ s = 1 := by
  have hmul : n * (n * s) = n * s + 2 := by
    rw [← Nat.mul_assoc]
    exact h.symm
  have hdvd : n * s ∣ 2 := by
    rw [← Nat.dvd_add_right (Nat.dvd_refl (n * s)), ← hmul]
    exact Nat.dvd_mul_left ..
  have hpos : 0 < n * s := Nat.pos_of_dvd_of_pos hdvd (by decide)
  have hle : n * s ≤ 2 := Nat.le_of_dvd (by decide) hdvd
  have hcases : n * s = 1 ∨ n * s = 2 := by omega
  rcases hcases with hone | htwo
  · rw [hone] at hmul
    obtain rfl : n = 3 := by omega
    omega
  · rw [htwo] at hmul
    obtain rfl : n = 2 := by omega
    exact ⟨rfl, by omega⟩

/-- A restored file has the size of a sealed one, or it is that of two records of one byte. -/
theorem Restorable.size_cases {env : Surroundings} {content : List UInt8}
    (h : Restorable p env lid f content) :
    content.length = f.contentSize + 2 ∨
      f.stDefualType = .multipleDefualtRec ∧ f.i4RecNum = 2 ∧ f.i4RecSize = 1 := by
  rcases nvmCheckFileSize_cases f content with hzero | hone | hbad
  · right
    have hlen := nvmCheckFileSize_eq_zero.mp hzero
    rw [h.length] at hlen
    by_cases ht : f.stDefualType = .multipleDefualtRec
    · refine ⟨ht, two_of_squares ?_⟩
      rw [hlen, TCfgFile.contentSize, ht]
    · rw [contentSize_of_ne ht, Nat.mul_comm] at hlen
      omega
  · exact Or.inl (nvmCheckFileSize_eq_one.mp hone)
  · exact absurd hbad h.size

/-- A file with the size that the check expects of a sealed one, and right check bytes. -/
def WellSealed (f : TCfgFile) (file : Option (List UInt8)) : Prop :=
  ∃ bytes, file = some bytes ∧ bytes.length = f.contentSize + 2 ∧ nvmCheckFile bytes = true

theorem wellSealed_sealPayload {payload : List UInt8} (h : payload.length = f.contentSize) :
    WellSealed f (some (sealPayload payload)) :=
  ⟨_, rfl, by rw [length_sealPayload, h], nvmCheckFile_sealPayload payload⟩

/-- Two sealed bytes in the backup of an entry that defaults to two records of one byte each. -/
structure UndersizedBackup (p : Platform) (env : Surroundings) (lid : ℕ) (f : TCfgFile) :
    Prop where
  type : f.stDefualType = .multipleDefualtRec
  records : f.i4RecNum = 2
  bytes : f.i4RecSize = 1
  listed : (lid, f.targetName) ∈ p.aBackupToBinRegion
  yields : ∃ content, env.binRegion = some content ∧ content.length = 4 ∧
    nvmCheckFile content = true

theorem UndersizedBackup.contentSize_eq {env : Surroundings} (h : UndersizedBackup p env lid f) :
    f.contentSize = 4 := by
  rw [TCfgFile.contentSize, h.type, h.records, h.bytes]

theorem restoreOrReset_wellSealed (hlid : lid ≠ iFileVerInfoLid) (hf : p.tables.cfgFile lid = some f)
    (hperf : lid ∉ p.aPerformance) (env : Surroundings) (d : Disk) :
    ((restoreOrReset p env lid f d).1 = 1 → WellSealed f ((restoreOrReset p env lid f d).2 lid)) ↔
      ¬ UndersizedBackup p env lid f := by
  constructor
  · intro hgood hbad
    obtain ⟨content, hb, hlen, hcheck⟩ := hbad.yields
    have hrestorable : Restorable p env lid f content := by
      refine ⟨hbad.listed, hb, by rw [hlen, hbad.records, hbad.bytes], hcheck, ?_⟩
      rw [nvmCheckFileSize_eq_zero.mpr (by rw [hlen, hbad.contentSize_eq])]
      decide
    obtain ⟨hone, hfile⟩ := restoreOrReset_restores hlid hf hrestorable d
    obtain ⟨bytes, hbytes, hsize, -⟩ := hgood hone
    rw [hfile] at hbytes
    cases hbytes
    rw [hlen, hbad.contentSize_eq] at hsize
    omega
  · intro hgood hone
    by_cases hrestores : ∃ content, Restorable p env lid f content
    · obtain ⟨content, hrestorable⟩ := hrestores
      rw [(restoreOrReset_restores hlid hf hrestorable d).2]
      rcases hrestorable.size_cases with hsize | ⟨ht, hn, hs⟩
      · exact ⟨content, rfl, hsize, hrestorable.check⟩
      · refine absurd ⟨ht, hn, hs, hrestorable.listed, content, hrestorable.yields, ?_,
          hrestorable.check⟩ hgood
        rw [hrestorable.length, hn, hs]
    · push Not at hrestores
      obtain ⟨hdefault, hfile⟩ := restoreOrReset_resets hlid hf hperf hrestores d
      obtain ⟨content, hc⟩ := Option.isSome_iff_exists.mp (hdefault.mp hone)
      rw [hfile content hc]
      exact wellSealed_sealPayload (length_defaultContent hc)

/-- NVM_ProtectDataFile goes on to the label restore. -/
def RestoreReached (f : TCfgFile) : Option (List UInt8) → Prop
  | none => True
  | some file => nvmCheckFileSize f file = -1 ∨ nvmCheckFileSize f file = 1 ∧ nvmCheckFile file = false

/-- Every exit but that of the undersized backup leaves a sealed file of the right size. -/
theorem protected_wellSealed_iff (hf : p.tables.cfgFile lid = some f) (hperf : lid ∉ p.aPerformance)
    (env : Surroundings) (d : Disk) :
    ((nvmProtectDataFile p env lid false d).1 = 1 →
        WellSealed f ((nvmProtectDataFile p env lid false d).2 lid)) ↔
      ¬ (lid ≠ iFileVerInfoLid ∧ RestoreReached f (d lid) ∧ UndersizedBackup p env lid f) := by
  by_cases hlid : lid = iFileVerInfoLid
  · rw [nvmProtectDataFile_version_lid hf hlid]
    simp [hlid]
  · have hrestore := restoreOrReset_wellSealed hlid hf hperf env (ensureVerFile p.tables d)
    cases hd : d lid with
    | none =>
      have heq : nvmProtectDataFile p env lid false d =
          restoreOrReset p env lid f (ensureVerFile p.tables d) := by
        simp only [nvmProtectDataFile, hf, hlid, if_false, ensureVerFile_apart hlid, hd]
      rw [heq, hrestore]
      simp [RestoreReached, hlid]
    | some file =>
      rw [nvmProtectDataFile_eq hlid hf hd]
      rcases nvmCheckFileSize_cases f file with hsize | hsize | hsize
      · have hlen := nvmCheckFileSize_eq_zero.mp hsize
        rw [if_neg (by rw [hsize]; decide), if_pos (Or.inr hsize)]
        refine iff_of_true (fun _ => ?_) (by simp [RestoreReached, hsize])
        simp only [Function.update_self]
        exact wellSealed_sealPayload (by rw [List.length_take, hlen, Nat.min_self])
      · rw [if_neg (by rw [hsize]; decide), if_neg (by rw [hsize]; decide)]
        cases hcheck : nvmCheckFile file with
        | true =>
          refine iff_of_true (fun _ => ?_) (by simp [RestoreReached, hsize, hcheck])
          rw [if_pos rfl]
          change WellSealed f (ensureVerFile p.tables d lid)
          rw [ensureVerFile_apart hlid, hd]
          exact ⟨file, rfl, nvmCheckFileSize_eq_one.mp hsize, hcheck⟩
        | false =>
          rw [if_neg Bool.false_ne_true, hrestore]
          simp [RestoreReached, hlid, hsize, hcheck]
      · rw [if_pos hsize, hrestore]
        simp [RestoreReached, hlid, hsize]

theorem protected_small :
    WellSealed (smallFile 66 (by decide))
      ((nvmProtectDataFile smallPlatform quiet 1 false fun _ => none).2 1) :=
  (protected_wellSealed_iff (f := smallFile 66 (by decide)) rfl (by decide) quiet fun _ => none).mpr
    (fun h => by cases h.2.2.type) (by decide)

/-- A backup of the two records, where the reset writes each of them twice. -/
def twoRecordsPlatform : Platform where
  tables := ⟨[smallFile 65 byte65_ne_zero, twoRecords], []⟩
  aPerformance := []
  aBackupToBinRegion := [(1, [65])]
  specialLids := []
  erasable := false

theorem undersized_backup_accepted :
    ¬ ∀ (p : Platform) (env : Surroundings) (lid : ℕ) (f : TCfgFile) (d : Disk),
      p.tables.cfgFile lid = some f → (f.stDefualType = .multipleDefualtRec → 2 ≤ f.i4RecNum) →
        lid ∉ p.aPerformance → (nvmProtectDataFile p env lid false d).1 = 1 →
          WellSealed f ((nvmProtectDataFile p env lid false d).2 lid) := by
  intro h
  obtain ⟨bytes, hfile, hlen, -⟩ := h twoRecordsPlatform ⟨false, some [7, 7, 0xAA, 0], false, false⟩
    1 twoRecords (fun _ => none) rfl (fun _ => le_rfl) (by decide) (by decide)
  have hrestored : (nvmProtectDataFile twoRecordsPlatform
      ⟨false, some [7, 7, 0xAA, 0], false, false⟩ 1 false fun _ => none).2 1 =
        some [7, 7, 0xAA, 0] := by decide
  rw [hrestored] at hfile
  cases hfile
  revert hlen
  decide

/-! ## Converted files -/

theorem contentSize_eq_iff (f : TCfgFile) :
    f.contentSize = f.i4RecSize * f.i4RecNum ↔
      f.stDefualType ≠ .multipleDefualtRec ∨ f.i4RecNum = 1 ∨ f.i4RecNum * f.i4RecSize = 0 := by
  by_cases ht : f.stDefualType = .multipleDefualtRec
  · have hsize : f.contentSize = f.i4RecNum * (f.i4RecNum * f.i4RecSize) := by
      rw [TCfgFile.contentSize, ht, ← Nat.mul_assoc]
    rw [hsize, Nat.mul_comm f.i4RecSize]
    simp only [ht, ne_eq, not_true_eq_false, false_or]
    constructor
    · intro h
      by_cases hzero : f.i4RecNum * f.i4RecSize = 0
      · exact Or.inr hzero
      · exact Or.inl (Nat.eq_of_mul_eq_mul_right (Nat.pos_of_ne_zero hzero)
          (h.trans (Nat.one_mul _).symm))
    · rintro (hone | hzero)
      · rw [hone, Nat.one_mul]
      · rw [hzero, Nat.mul_zero]
  · exact iff_of_true (contentSize_of_ne ht) (Or.inl ht)

/-- NVM_DataVerConvert reaches the convert function, which returns 1 with this buffer. -/
def ConvertsTo (lid : ℕ) (f : TCfgFile) (d : Disk)
    (dest : Record UInt8 (f.i4RecSize * f.i4RecNum)) : Prop :=
  ∃ verFile ver file convert, d iFileVerInfoLid = some verFile ∧
    convertedVer lid verFile = some ver ∧ d lid = some file ∧
    f.nvmDataConvertFunc = some convert ∧
    convert (atoi (cString ver)) (atoi (cString f.cFileVer)) file = some dest

theorem nvmDataVerConvert_converts (hf : p.tables.cfgFile lid = some f)
    (hperf : lid ∉ p.aPerformance) (env : Surroundings) {d : Disk}
    {dest : Record UInt8 (f.i4RecSize * f.i4RecNum)} (h : ConvertsTo lid f d dest) :
    nvmDataVerConvert p env lid d =
      let outcome := nvmProtectDataFile p env lid true
        (updateFileVer p.tables lid (Function.update d lid (some dest.val)))
      (decide (outcome.1 = 1), outcome.2) := by
  obtain ⟨verFile, ver, file, convert, hv, hver, hfile, hconvert, hdest⟩ := h
  rw [nvmDataVerConvert_eq hf env hv, hver]
  simp only [convertData, hfile, hconvert, hdest, hperf, if_false]

theorem checkFileSize_converted {content : List UInt8}
    (hsize : f.contentSize ≠ f.i4RecSize * f.i4RecNum)
    (hlen : content.length = f.i4RecSize * f.i4RecNum) : nvmCheckFileSize f content = -1 := by
  have hlarger : f.i4RecSize * f.i4RecNum ≤ f.contentSize := by
    have hothers := (contentSize_eq_iff f).not.mp hsize
    push Not at hothers
    rw [TCfgFile.contentSize, hothers.1, Nat.mul_assoc, Nat.mul_comm f.i4RecSize]
    have hpos : f.i4RecNum ≠ 0 := left_ne_zero_of_mul hothers.2.2
    exact Nat.le_mul_of_pos_left _ (Nat.pos_of_ne_zero hpos)
  rcases nvmCheckFileSize_cases f content with hzero | hone | hbad
  · rw [nvmCheckFileSize_eq_zero, hlen] at hzero
    exact absurd hzero.symm hsize
  · rw [nvmCheckFileSize_eq_one, hlen] at hone
    omega
  · exact hbad

/-- A converted file of another size than the check expects is restored or reset. -/
theorem restoreOrReset_converted (hlid : lid ≠ iFileVerInfoLid) (hf : p.tables.cfgFile lid = some f)
    (hperf : lid ∉ p.aPerformance) (env : Surroundings) (d : Disk)
    (dest : Record UInt8 (f.i4RecSize * f.i4RecNum))
    (hsize : f.contentSize ≠ f.i4RecSize * f.i4RecNum) :
    ((restoreOrReset p env lid f d).1 = 1 →
        (restoreOrReset p env lid f d).2 lid = some (sealPayload dest.val)) ↔
      (∀ content, Restorable p env lid f content → content = sealPayload dest.val) ∧
        ((∀ content, ¬ Restorable p env lid f content) → f.defaultContent = none) := by
  by_cases hrestores : ∃ content, Restorable p env lid f content
  · obtain ⟨content, hrestorable⟩ := hrestores
    obtain ⟨hone, hcontent⟩ := restoreOrReset_restores hlid hf hrestorable d
    simp only [hone, hcontent, forall_const, Option.some_inj]
    constructor
    · rintro rfl
      refine ⟨fun content' h => ?_, fun h => absurd hrestorable (h _)⟩
      exact Option.some.inj (h.yields.symm.trans hrestorable.yields)
    · rintro ⟨h, -⟩
      exact h content hrestorable
  · push Not at hrestores
    obtain ⟨hone, hcontent⟩ := restoreOrReset_resets hlid hf hperf hrestores d
    rw [hone]
    cases hc : f.defaultContent with
    | none => simp [hrestores]
    | some content =>
      have hlonger : sealPayload content ≠ sealPayload dest.val := by
        intro heq
        have hlens := congrArg List.length heq
        rw [length_sealPayload, length_sealPayload, length_defaultContent hc,
          dest.property] at hlens
        exact hsize (Nat.add_right_cancel hlens)
      simp [hcontent content hc, hlonger, hrestores]

/-- A converted file stays where the check goes by the size of the records. -/
theorem converted_kept_iff (hf : p.tables.cfgFile lid = some f) (hperf : lid ∉ p.aPerformance)
    (env : Surroundings) {d : Disk} {dest : Record UInt8 (f.i4RecSize * f.i4RecNum)}
    (hconv : ConvertsTo lid f d dest) :
    ((nvmDataVerConvert p env lid d).1 = true →
        (nvmDataVerConvert p env lid d).2 lid = some (sealPayload dest.val)) ↔
      lid = iFileVerInfoLid ∨ f.stDefualType ≠ .multipleDefualtRec ∨ f.i4RecNum = 1 ∨
        f.i4RecNum * f.i4RecSize = 0 ∨
        (∀ content, Restorable p env lid f content → content = sealPayload dest.val) ∧
        ((∀ content, ¬ Restorable p env lid f content) → f.defaultContent = none) := by
  rw [nvmDataVerConvert_converts hf hperf env hconv]
  generalize hd' : updateFileVer p.tables lid (Function.update d lid (some dest.val)) = d'
  by_cases hlid : lid = iFileVerInfoLid
  · have hrejected := nvmProtectDataFile_version_lid hf hlid env true d'
    refine iff_of_true (fun h => ?_) (Or.inl hlid)
    simp [hrejected] at h
  · have hfile : d' lid = some dest.val := by
      rw [← hd', updateFileVer_apart hlid, Function.update_self]
    have hlen : dest.val.length = f.i4RecSize * f.i4RecNum := dest.property
    by_cases hsize : f.contentSize = f.i4RecSize * f.i4RecNum
    · have hkept : nvmCheckFileSize f dest.val ≠ -1 := by
        rw [nvmCheckFileSize_eq_zero.mpr (hlen.trans hsize.symm)]
        decide
      have htake : dest.val.take f.contentSize = dest.val :=
        List.take_of_length_le (hlen.trans hsize.symm).le
      refine iff_of_true (fun _ => ?_) ?_
      · rw [(nvmProtectDataFile_set hlid hf env hfile hkept).2, htake]
      · rcases (contentSize_eq_iff f).mp hsize with ht | hone | hzero
        · exact Or.inr (Or.inl ht)
        · exact Or.inr (Or.inr (Or.inl hone))
        · exact Or.inr (Or.inr (Or.inr (Or.inl hzero)))
    · rw [nvmProtectDataFile_eq hlid hf hfile, if_pos (checkFileSize_converted hsize hlen)]
      have hothers := (contentSize_eq_iff f).not.mp hsize
      push Not at hothers
      simp only [decide_eq_true_eq, hlid, hothers, ne_eq, not_true_eq_false, false_or]
      exact restoreOrReset_converted hlid hf hperf env (ensureVerFile p.tables d') dest hsize

/-- One entry that is to be converted, besides the version file. -/
def convertPlatform (f : TCfgFile) : Platform where
  tables := ⟨[smallFile 65 byte65_ne_zero, f], []⟩
  aPerformance := []
  aBackupToBinRegion := []
  specialLids := []
  erasable := false

/-- A version file in the old format, and this data file. -/
def convertDisk (file : List UInt8) : Disk
  | 0 => some (List.replicate 8 48)
  | 1 => some file
  | _ => none

def smallConverted : TCfgFile :=
  { smallFile 66 byte66_ne_zero with nvmDataConvertFunc := some fun _ _ _ => some ⟨[8], rfl⟩ }

def twoRecordsConverted : TCfgFile :=
  { twoRecords with nvmDataConvertFunc := some fun _ _ _ => some ⟨[8, 9], rfl⟩ }

theorem converted_kept_small :
    (nvmDataVerConvert (convertPlatform smallConverted) quiet 1 (convertDisk [5, 0xAA, 5])).2 1 =
      some (sealPayload [8]) := by
  have hconv : ConvertsTo 1 smallConverted (convertDisk [5, 0xAA, 5]) ⟨[8], rfl⟩ :=
    ⟨_, [48, 48, 48, 0], _, _, rfl, by decide, rfl, rfl, rfl⟩
  exact (converted_kept_iff (p := convertPlatform smallConverted) rfl (by decide) quiet hconv).mpr
    (Or.inr (Or.inl (by decide))) (by decide)

/-- The two converted bytes are replaced by the four of the default. -/
theorem converted_replaced :
    (nvmDataVerConvert (convertPlatform twoRecordsConverted) quiet 1
        (convertDisk [5, 6, 0xAA, 3])).1 = true ∧
      (nvmDataVerConvert (convertPlatform twoRecordsConverted) quiet 1
        (convertDisk [5, 6, 0xAA, 3])).2 1 = some (sealPayload [7, 7, 7, 7]) ∧
      ¬ ∀ (p : Platform) (env : Surroundings) (lid : ℕ) (f : TCfgFile) (d : Disk)
        (dest : Record UInt8 (f.i4RecSize * f.i4RecNum)), p.tables.cfgFile lid = some f →
          lid ∉ p.aPerformance → ConvertsTo lid f d dest →
            (nvmDataVerConvert p env lid d).1 = true →
              (nvmDataVerConvert p env lid d).2 lid = some (sealPayload dest.val) := by
  have hone : (nvmDataVerConvert (convertPlatform twoRecordsConverted) quiet 1
      (convertDisk [5, 6, 0xAA, 3])).1 = true := by decide
  have hfile : (nvmDataVerConvert (convertPlatform twoRecordsConverted) quiet 1
      (convertDisk [5, 6, 0xAA, 3])).2 1 = some (sealPayload [7, 7, 7, 7]) := by decide
  refine ⟨hone, hfile, fun h => ?_⟩
  have hkept := h (convertPlatform twoRecordsConverted) quiet 1 twoRecordsConverted
    (convertDisk [5, 6, 0xAA, 3]) ⟨[8, 9], rfl⟩ rfl (by decide)
    ⟨_, [48, 48, 48, 0], _, _, rfl, by decide, rfl, rfl, rfl⟩ hone
  rw [hfile] at hkept
  revert hkept
  decide

end Nvram
