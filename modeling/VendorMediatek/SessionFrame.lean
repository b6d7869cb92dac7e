import VendorMediatek.VersionsCurrent

/-!
# What the calls of a session do to the files

First the file of the lid itself: when `NVM_ProtectDataFile` succeeds it is sealed, and a
sealed file of the right size and version goes through `NVM_GetFileDesc` unchanged. Then the rest
of the disk: an up-to-date version file stays so, and the files of other lids are not touched.
-/

namespace Nvram

open ByteFile RecordFile SlotDirectory

variable {p : Platform} {lid : ℕ} {f : TCfgFile}

/-! ## The version file apart -/

section Apart

variable (h : lid ≠ iFileVerInfoLid) (t : Tables) (d : Disk)

include h

theorem nvmGenerateFileVer_apart : nvmGenerateFileVer t d lid = d lid :=
  Function.update_of_ne h ..

theorem ensureVerFile_apart : ensureVerFile t d lid = d lid := by
  unfold ensureVerFile
  split
  · rfl
  · exact nvmGenerateFileVer_apart h t d

theorem updateFileVer_apart (lid' : ℕ) : updateFileVer t lid' d lid = d lid := by
  unfold updateFileVer
  cases d iFileVerInfoLid with
  | none => rfl
  | some file =>
    simp only
    cases nvmUpdateFileVerNo t lid' .verUpdate file with
    | none => rfl
    | some result => exact Function.update_of_ne h ..

theorem cmpFileVer_apart (lid' : ℕ) : (cmpFileVer t lid' d).2 lid = d lid := by
  unfold cmpFileVer
  split
  · rfl
  · split
    · exact ensureVerFile_apart h t d
    · rfl

end Apart

/-! ## The file of the lid -/

section OwnFile

variable (hlid : lid ≠ iFileVerInfoLid) (hf : p.tables.cfgFile lid = some f)

include hlid hf

theorem nvmResetFileToDefault_sealed (hperf : lid ∉ p.aPerformance) {d : Disk}
    (h : (nvmResetFileToDefault p lid d).1 = true) :
    ∃ payload, (nvmResetFileToDefault p lid d).2 lid = some (sealPayload payload) ∧
      payload.length = f.contentSize := by
  simp only [nvmResetFileToDefault, hf, hlid, if_false] at h ⊢
  cases hc : f.defaultContent with
  | none => simp [hc] at h
  | some content =>
    refine ⟨content, ?_, length_defaultContent hc⟩
    simp only [hperf, if_false, Function.update_self, nvmSetCheckNo_new]

/-- What a successful restore writes passes the check it makes itself. -/
theorem nvmRestoreFromBinRegionOneFile_checked {env : Surroundings} {d : Disk}
    (h : (nvmRestoreFromBinRegionOneFile p env lid d).1 = true) :
    ∃ file, env.binRegion = some file ∧
      (nvmRestoreFromBinRegionOneFile p env lid d).2 lid = some file ∧
      nvmCheckFile file = true ∧ nvmCheckFileSize f file ≠ -1 ∧
      file.length = f.i4RecNum * f.i4RecSize + 2 := by
  unfold nvmRestoreFromBinRegionOneFile at h ⊢
  cases hb : env.binRegion with
  | none => simp [hb] at h
  | some content =>
    simp only [hb, hf, hlid, if_false] at h ⊢
    by_cases hlen : content.length = f.i4RecNum * f.i4RecSize + 2
    · simp only [hlen, ne_eq, not_true_eq_false, if_false, decide_eq_true_eq] at h ⊢
      exact ⟨content, rfl, Function.update_self .., h.1, h.2, hlen⟩
    · simp [hlen] at h

/-- A file whose check bytes are right, with the size of its type. -/
structure Checked (f : TCfgFile) (file : List UInt8) : Prop where
  check : nvmCheckFile file = true
  size : nvmCheckFileSize f file ≠ -1
  sealed_size : f.stDefualType ≠ .multipleDefualtRec → nvmCheckFileSize f file = 1

omit hlid hf in
theorem checked_sealPayload {payload : List UInt8} (h : payload.length = f.contentSize) :
    Checked f (sealPayload payload) := by
  have hsize : nvmCheckFileSize f (sealPayload payload) = 1 := by
    rw [nvmCheckFileSize_eq_one, length_sealPayload, h]
  exact ⟨nvmCheckFile_sealPayload payload, by rw [hsize]; decide, fun _ => hsize⟩

theorem restoreOrReset_checked (hperf : lid ∉ p.aPerformance) {env : Surroundings} {d : Disk}
    (h : (restoreOrReset p env lid f d).1 = 1) :
    ∃ file, (restoreOrReset p env lid f d).2 lid = some file ∧ Checked f file := by
  unfold restoreOrReset at h ⊢
  generalize hr : (if (lid, f.targetName) ∈ p.aBackupToBinRegion then
    nvmRestoreFromBinRegionOneFile p env lid d else (false, d)) = restored at h ⊢
  by_cases hok : restored.1 = true
  · -- only a restore from the region succeeds
    simp only [hok, if_true]
    by_cases hbackup : (lid, f.targetName) ∈ p.aBackupToBinRegion
    · rw [if_pos hbackup] at hr
      rw [← hr] at hok ⊢
      obtain ⟨file, -, hfile, hcheck, hsize, hlen⟩ :=
        nvmRestoreFromBinRegionOneFile_checked hlid hf hok
      refine ⟨file, hfile, hcheck, hsize, fun hty => ?_⟩
      rw [nvmCheckFileSize_eq_one, hlen, contentSize_of_ne hty, Nat.mul_comm]
    · rw [if_neg hbackup] at hr
      rw [← hr] at hok
      cases hok
  · simp only [hok, Bool.false_eq_true, if_false] at h ⊢
    have hreset : (nvmResetFileToDefault p lid restored.2).1 = true := by
      by_contra hn
      simp [hn] at h
    obtain ⟨payload, hfile, hlen⟩ := nvmResetFileToDefault_sealed hlid hf hperf hreset
    exact ⟨_, hfile, checked_sealPayload hlen⟩

theorem nvmProtectDataFile_eq {env : Surroundings} {setflag : Bool} {d : Disk} {file : List UInt8}
    (hd : d lid = some file) :
    nvmProtectDataFile p env lid setflag d =
      if nvmCheckFileSize f file = -1 then restoreOrReset p env lid f (ensureVerFile p.tables d)
      else if setflag ∨ nvmCheckFileSize f file = 0 then
        (1, Function.update (ensureVerFile p.tables d) lid
          (some (sealPayload (file.take f.contentSize))))
      else if nvmCheckFile file then (1, ensureVerFile p.tables d)
      else restoreOrReset p env lid f (ensureVerFile p.tables d) := by
  simp only [nvmProtectDataFile, hf, hlid, if_false, ensureVerFile_apart hlid, hd]
  split
  · rfl
  · rename_i hsize
    rw [(nvmSetCheckNo_seals hsize).1]

theorem nvmProtectDataFile_checked (hperf : lid ∉ p.aPerformance) {env : Surroundings}
    {setflag : Bool} {d : Disk} (h : (nvmProtectDataFile p env lid setflag d).1 = 1) :
    ∃ file, (nvmProtectDataFile p env lid setflag d).2 lid = some file ∧ Checked f file := by
  cases hd : d lid with
  | none =>
    simp only [nvmProtectDataFile, hf, hlid, if_false, ensureVerFile_apart hlid, hd] at h ⊢
    exact restoreOrReset_checked hlid hf hperf h
  | some file =>
    rw [nvmProtectDataFile_eq hlid hf hd] at h ⊢
    split_ifs at h ⊢ with hsize hset hcheck
    · exact restoreOrReset_checked hlid hf hperf h
    · exact ⟨_, Function.update_self .., checked_sealPayload (nvmSetCheckNo_seals hsize).2⟩
    · refine ⟨file, (ensureVerFile_apart hlid ..).trans hd, hcheck, hsize, fun _ => ?_⟩
      rcases nvmCheckFileSize_cases f file with h0 | h1 | hbad
      · exact absurd (Or.inr h0) hset
      · exact h1
      · exact absurd hbad hsize
    · exact restoreOrReset_checked hlid hf hperf h

theorem nvmProtectDataFile_set (env : Surroundings) {d : Disk} {file : List UInt8}
    (hd : d lid = some file) (hsize : nvmCheckFileSize f file ≠ -1) :
    (nvmProtectDataFile p env lid true d).1 = 1 ∧
      (nvmProtectDataFile p env lid true d).2 lid =
        some (sealPayload (file.take f.contentSize)) := by
  rw [nvmProtectDataFile_eq hlid hf hd, if_neg hsize, if_pos (Or.inl rfl)]
  exact ⟨rfl, Function.update_self ..⟩

/-- What a later NVM_GetFileDesc must find in the file to leave the payload alone. -/
def Acceptable (f : TCfgFile) (file : List UInt8) : Prop :=
  nvmCheckFileSize f file = 0 ∨ nvmCheckFileSize f file = 1 ∧ nvmCheckFile file = true

omit hlid hf in
instance (f : TCfgFile) (file : List UInt8) : Decidable (Acceptable f file) :=
  inferInstanceAs (Decidable (_ ∨ _ ∧ _))

theorem nvmProtectDataFile_accepts (env : Surroundings) {d : Disk} {file : List UInt8}
    (hd : d lid = some file) (hok : Acceptable f file) :
    (nvmProtectDataFile p env lid false d).1 = 1 ∧
      (nvmProtectDataFile p env lid false d).2 lid =
        some (sealPayload (file.take f.contentSize)) := by
  rw [nvmProtectDataFile_eq hlid hf hd]
  rcases hok with hsize | ⟨hsize, hcheck⟩
  · rw [if_neg (by rw [hsize]; decide), if_pos (Or.inr hsize)]
    exact ⟨rfl, Function.update_self ..⟩
  · rw [if_neg (by rw [hsize]; decide), if_neg (by rw [hsize]; decide), if_pos hcheck]
    refine ⟨rfl, ?_⟩
    rw [← eq_sealPayload hsize hcheck]
    exact (ensureVerFile_apart hlid ..).trans hd

omit hlid in
theorem nvmProtectDataFile_version_lid (h : lid = iFileVerInfoLid) (env : Surroundings)
    (setflag : Bool) (d : Disk) : (nvmProtectDataFile p env lid setflag d).1 = -1 := by
  subst h
  simp [nvmProtectDataFile, hf]

variable (hspecial : lid ∉ p.specialLids) (hname : f.cFileName ≠ reservedName)
  (hperf : lid ∉ p.aPerformance)

include hspecial hname hperf

theorem nvmGetFileDesc_checked {env : Surroundings} {isRead : Bool} {d : Disk} {fileId : FId}
    (h : (nvmGetFileDesc p env lid isRead d).1 = some fileId) :
    fileId = ⟨lid, isRead⟩ ∧
      ∃ file, (nvmGetFileDesc p env lid isRead d).2 lid = some file ∧ Checked f file := by
  simp only [nvmGetFileDesc, hf, hspecial, hname, hperf, if_false] at h ⊢
  generalize prepareFile p env lid f d = prepared at h ⊢
  by_cases hprepared : prepared.1 = true
  · simp only [hprepared, if_true] at h ⊢
    by_cases hone : (nvmProtectDataFile p env lid false prepared.2).1 = 1
    · rw [if_pos hone] at h
      cases h
      exact ⟨rfl, nvmProtectDataFile_checked hlid hf hperf hone⟩
    · rw [if_neg hone] at h
      cases h
  · simp [hprepared] at h

theorem nvmGetFileDesc_accepts (env : Surroundings) (isRead : Bool) {d : Disk} {file : List UInt8}
    (hd : d lid = some file) (hok : Acceptable f file)
    (hcmp : (cmpFileVer p.tables lid d).1 = true) :
    (nvmGetFileDesc p env lid isRead d).1 = some ⟨lid, isRead⟩ ∧
      (nvmGetFileDesc p env lid isRead d).2 lid =
        some (sealPayload (file.take f.contentSize)) := by
  have hd' : (cmpFileVer p.tables lid d).2 lid = some file :=
    (cmpFileVer_apart hlid ..).trans hd
  obtain ⟨hone, hfile⟩ := nvmProtectDataFile_accepts hlid hf env hd' hok
  simp only [nvmGetFileDesc, prepareFile, hf, hspecial, hname, hperf, if_false, hd, bringUpToDate,
    hcmp, if_true, hone]
  exact ⟨trivial, hfile⟩

end OwnFile

theorem nvmGetFileDesc_id {env : Surroundings} {isRead : Bool} {d : Disk} {fileId : FId}
    (h : (nvmGetFileDesc p env lid isRead d).1 = some fileId) : fileId = ⟨lid, isRead⟩ := by
  have hpair : ∀ {b : Prop} [Decidable b], (if b then some (⟨lid, isRead⟩ : FId) else none) =
      some fileId → fileId = ⟨lid, isRead⟩ := by
    intro b _ hb
    split at hb <;> cases hb
    rfl
  unfold nvmGetFileDesc at h
  cases hf : p.tables.cfgFile lid with
  | none => simp [hf] at h
  | some f =>
    simp only [hf] at h
    split at h
    · unfold solveSpecialLid at h
      split at h
      · exact hpair h
      · cases h
    · split at h
      · cases h
      · generalize prepareFile p env lid f d = prepared at h
        split at h
        · split at h
          · exact (Option.some.inj h).symm
          · exact hpair h
        · cases h

/-- A valid descriptor of a lid that is not special stands for a data file. -/
theorem nvmGetFileDesc_filed (hf : p.tables.cfgFile lid = some f) (hspecial : lid ∉ p.specialLids)
    (hperf : lid ∉ p.aPerformance) {env : Surroundings} {isRead : Bool} {d : Disk} {fileId : FId}
    (h : (nvmGetFileDesc p env lid isRead d).1 = some fileId) :
    lid ≠ iFileVerInfoLid ∧ f.cFileName ≠ reservedName := by
  have hname : f.cFileName ≠ reservedName := by
    intro hname
    simp [nvmGetFileDesc, hf, hspecial, hname] at h
  refine ⟨fun hlid => ?_, hname⟩
  simp only [nvmGetFileDesc, hf, hspecial, hname, hperf, if_false,
    nvmProtectDataFile_version_lid hf hlid] at h
  split at h <;> cases h

end Nvram
