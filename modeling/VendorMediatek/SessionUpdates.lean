import VendorMediatek.SessionFrame
import VendorMediatek.VersionReaders

/-!
# Version updates of a reset and of a conversion

On any version file, `NVM_ResetFileToDefault` and `NVM_DataVerConvert` update the version of
their lid a number of times and leave the rest of the disk alone.
-/

namespace Nvram

open ByteFile

/-- From one disk to another the version of the lid is updated n times, only the version file
and the file of the lid are written, and the latter is not removed. -/
structure Carries (lid : ℕ) (f : TCfgFile) (n : ℕ) (d d' : Disk) : Prop where
  version : d' iFileVerInfoLid = (d iFileVerInfoLid).map (updated f lid)^[n]
  others : ∀ lid', lid' ≠ iFileVerInfoLid → lid' ≠ lid → d' lid' = d lid'
  own : (d lid).isSome → (d' lid).isSome

variable {p : Platform} {lid : ℕ} {f : TCfgFile} {m n : ℕ} {d d' d'' : Disk}

theorem Carries.refl (lid : ℕ) (f : TCfgFile) (d : Disk) : Carries lid f 0 d d :=
  ⟨by simp, fun _ _ _ => rfl, id⟩

theorem Carries.trans (h : Carries lid f m d d') (h' : Carries lid f n d' d'') :
    Carries lid f (n + m) d d'' := by
  constructor
  · rw [h'.version, h.version, Option.map_map, Function.iterate_add]
  · intro lid' h0 hne
    exact (h'.others lid' h0 hne).trans (h.others lid' h0 hne)
  · exact fun hown => h'.own (h.own hown)

theorem Carries.present (h : Carries lid f n d d') (hd : (d iFileVerInfoLid).isSome) :
    (d' iFileVerInfoLid).isSome := by
  rw [h.version, Option.isSome_map]
  exact hd

/-- The backup region yields a file for the lid that passes the checks. -/
def restores (p : Platform) (env : Surroundings) (lid : ℕ) (f : TCfgFile) : Bool :=
  p.aBackupToBinRegion.contains (lid, f.targetName) ∧ env.binRegion.any fun content =>
    content.length = f.i4RecNum * f.i4RecSize + 2 ∧ nvmCheckFile content ∧
      nvmCheckFileSize f content ≠ -1

/-- A conversion that succeeds with a content that NVM_ProtectDataFile refuses, and cannot restore:
the file is reset behind it. -/
def resetsConverted (p : Platform) (env : Surroundings) (lid : ℕ) (f : TCfgFile) (current : ℤ)
    (file : List UInt8) : Bool :=
  (f.nvmDataConvertFunc.bind fun convert =>
    convert current (atoi (cString f.cFileVer)) file).any fun content =>
      lid ∉ p.aPerformance ∧ nvmCheckFileSize f content.val = -1 ∧ restores p env lid f = false

/-- How often the version is updated where the conversion or the reset succeeds. -/
def updates (p : Platform) (env : Surroundings) (lid : ℕ) (f : TCfgFile)
    (verFile file : List UInt8) : ℕ :=
  if (convertedVer lid verFile).any fun ver => resetsConverted p env lid f (atoi (cString ver)) file
  then 2 else 1

section Calls

variable (hlid : lid ≠ iFileVerInfoLid) (hf : p.tables.cfgFile lid = some f)
  (hd : (d iFileVerInfoLid).isSome)

include hlid in
theorem carries_write (content : List UInt8) (d : Disk) :
    Carries lid f 0 d (Function.update d lid (some content)) := by
  constructor
  · rw [Function.update_of_ne hlid.symm]
    simp
  · intro lid' _ hne
    exact Function.update_of_ne hne ..
  · intro _
    rw [Function.update_self]
    rfl

include hlid hf in
theorem carries_update (d : Disk) : Carries lid f 1 d (updateFileVer p.tables lid d) := by
  constructor
  · unfold updateFileVer
    cases hv : d iFileVerInfoLid with
    | none => simp [hv]
    | some file =>
      simp only [nvmUpdateFileVerNo_verUpdate hf]
      rw [Function.update_self]
      rfl
  · intro lid' h0 _
    exact updateFileVer_apart h0 ..
  · rw [updateFileVer_apart hlid]
    exact id

include hd

theorem ensureVerFile_present (t : Tables) : ensureVerFile t d = d := by
  rw [ensureVerFile, if_pos hd]

include hlid hf

/-- A reset updates the version once, where the entry has a valid default. -/
theorem carries_reset :
    Carries lid f (if f.defaultContent.isSome then 1 else 0) d (nvmResetFileToDefault p lid d).2 ∧
      (nvmResetFileToDefault p lid d).1 = f.defaultContent.isSome := by
  simp only [nvmResetFileToDefault, ensureVerFile_present hd, hf, hlid, if_false]
  cases hc : f.defaultContent with
  | none => exact ⟨carries_write hlid _ d, rfl⟩
  | some content =>
    have hupdate := (carries_write (f := f) hlid content d).trans (carries_update hlid hf _)
    simp only [Option.isSome_some, if_true]
    split
    · exact ⟨hupdate, rfl⟩
    · exact ⟨hupdate.trans (carries_write hlid _ _), rfl⟩

theorem carries_restore (env : Surroundings) :
    Carries lid f 0 d (nvmRestoreFromBinRegionOneFile p env lid d).2 := by
  unfold nvmRestoreFromBinRegionOneFile
  cases env.binRegion with
  | none => exact Carries.refl lid f d
  | some content =>
    simp only [ensureVerFile_present hd, hf, hlid, if_false]
    split
    · exact Carries.refl lid f d
    · exact carries_write hlid _ d

theorem restoreFromBinRegion_result (env : Surroundings) :
    (nvmRestoreFromBinRegionOneFile p env lid d).1 = env.binRegion.any fun content =>
      content.length = f.i4RecNum * f.i4RecSize + 2 ∧ nvmCheckFile content ∧
        nvmCheckFileSize f content ≠ -1 := by
  unfold nvmRestoreFromBinRegionOneFile
  cases env.binRegion with
  | none => rfl
  | some content =>
    simp only [ensureVerFile_present hd, hf, hlid, if_false, Option.any_some]
    split
    · next hne => simp [hne]
    · next heq => simp [not_not.mp heq]

theorem carries_restoreOrReset (env : Surroundings) :
    ∃ n, Carries lid f n d (restoreOrReset p env lid f d).2 ∧
      ((restoreOrReset p env lid f d).1 = 1 → n = if restores p env lid f then 0 else 1) ∧
      ((restoreOrReset p env lid f d).1 ≠ 1 → f.defaultContent = none) := by
  have hrestored : Carries lid f 0 d (if (lid, f.targetName) ∈ p.aBackupToBinRegion then
      nvmRestoreFromBinRegionOneFile p env lid d else (false, d)).2 ∧
      (if (lid, f.targetName) ∈ p.aBackupToBinRegion then
        nvmRestoreFromBinRegionOneFile p env lid d else (false, d)).1 = restores p env lid f := by
    unfold restores
    split
    · next hmem =>
      rw [restoreFromBinRegion_result hlid hf hd env]
      exact ⟨carries_restore hlid hf hd env, by simp [hmem]⟩
    · next hmem => exact ⟨Carries.refl lid f d, by simp [hmem]⟩
  unfold restoreOrReset
  generalize (if (lid, f.targetName) ∈ p.aBackupToBinRegion then
    nvmRestoreFromBinRegionOneFile p env lid d else (false, d)) = restored at hrestored ⊢
  obtain ⟨hrestored, hres⟩ := hrestored
  rw [← hres]
  by_cases hok : restored.1 = true
  · simp only [hok, if_true]
    exact ⟨0, hrestored, fun _ => rfl, fun h => absurd rfl h⟩
  · obtain ⟨hreset, hresult⟩ := carries_reset hlid hf (hrestored.present hd)
    simp only [hok, Bool.false_eq_true, if_false]
    refine ⟨_, hrestored.trans hreset, ?_, ?_⟩
    · rw [hresult]
      intro h
      cases hc : f.defaultContent with
      | none => simp [hc] at h
      | some content => rfl
    · rw [hresult]
      intro h
      cases hc : f.defaultContent with
      | none => rfl
      | some content => simp [hc] at h

theorem carries_protect (env : Surroundings) {file : List UInt8} (hfile : d lid = some file) :
    ∃ n, Carries lid f n d (nvmProtectDataFile p env lid true d).2 ∧
      ((nvmProtectDataFile p env lid true d).1 = 1 →
        n = if nvmCheckFileSize f file = -1 ∧ restores p env lid f = false then 1 else 0) ∧
      ((nvmProtectDataFile p env lid true d).1 ≠ 1 → f.defaultContent = none) := by
  rw [nvmProtectDataFile_eq hlid hf hfile, ensureVerFile_present hd]
  by_cases hsize : nvmCheckFileSize f file = -1
  · rw [if_pos hsize]
    obtain ⟨n, hn, hcount, hresult⟩ := carries_restoreOrReset hlid hf hd env
    refine ⟨n, hn, fun h => ?_, hresult⟩
    rw [hcount h]
    cases restores p env lid f <;> simp [hsize]
  · rw [if_neg hsize, if_pos (Or.inl rfl)]
    exact ⟨0, carries_write hlid _ d, fun _ => by simp [hsize], fun h => absurd rfl h⟩

theorem carries_convertData (env : Surroundings) (current : ℤ) {file : List UInt8}
    (hfile : d lid = some file) :
    ∃ n, Carries lid f n d (convertData p env lid f current d).2 ∧
      ((convertData p env lid f current d).1 = true →
        n = if resetsConverted p env lid f current file then 2 else 1) ∧
      ((convertData p env lid f current d).1 = false →
        n = 0 ∧ resetsConverted p env lid f current file = false ∨ f.defaultContent = none) := by
  unfold convertData resetsConverted
  rw [hfile]
  cases f.nvmDataConvertFunc with
  | none => exact ⟨0, Carries.refl lid f d, by simp, fun _ => Or.inl ⟨rfl, rfl⟩⟩
  | some convert =>
    simp only [Option.bind_some]
    split
    · next hnone =>
      exact ⟨0, Carries.refl lid f d, by simp, fun _ => Or.inl ⟨rfl, by rw [hnone]; rfl⟩⟩
    · next content hsome =>
      have hupdate := (carries_write (f := f) hlid content.val d).trans (carries_update hlid hf _)
      simp only [hsome, Option.any_some]
      by_cases hmem : lid ∈ p.aPerformance
      · rw [if_pos hmem]
        exact ⟨1, hupdate, fun _ => by simp [hmem], by simp⟩
      · rw [if_neg hmem]
        have hwritten : updateFileVer p.tables lid (Function.update d lid (some content.val)) lid =
            some content.val := by
          rw [updateFileVer_apart hlid, Function.update_self]
        obtain ⟨n, hn, hcount, hresult⟩ :=
          carries_protect hlid hf (hupdate.present hd) env hwritten
        refine ⟨n + 1, hupdate.trans hn, fun h => ?_, fun h => Or.inr ?_⟩
        · rw [hcount (by simpa using h)]
          by_cases hagain : nvmCheckFileSize f content.val = -1 ∧ restores p env lid f = false
          · simp [hmem, hagain]
          · rw [if_neg hagain, if_neg]
            simpa [hmem] using hagain
        · exact hresult (by simpa using h)

theorem carries_dataVerConvert (env : Surroundings) {verFile file : List UInt8}
    (hv : d iFileVerInfoLid = some verFile) (hfile : d lid = some file) :
    ∃ n, Carries lid f n d (nvmDataVerConvert p env lid d).2 ∧
      ((nvmDataVerConvert p env lid d).1 = true → n = updates p env lid f verFile file) ∧
      ((nvmDataVerConvert p env lid d).1 = false →
        n = 0 ∧ updates p env lid f verFile file = 1 ∨ f.defaultContent = none) := by
  rw [nvmDataVerConvert_eq hf env hv]
  unfold updates
  cases convertedVer lid verFile with
  | some ver =>
    obtain ⟨n, hn, htrue, hfalse⟩ :=
      carries_convertData hlid hf hd env (atoi (cString ver)) hfile
    refine ⟨n, hn, htrue, fun h => ?_⟩
    rcases hfalse h with ⟨hzero, hnot⟩ | hnone
    · exact Or.inl ⟨hzero, by simp [hnot]⟩
    · exact Or.inr hnone
  | none =>
    obtain ⟨hreset, hresult⟩ := carries_reset hlid hf hd
    refine ⟨_, hreset, ?_, ?_⟩
    · intro h
      rw [hresult] at h
      rw [if_pos h]
      rfl
    · intro h
      rw [hresult] at h
      exact Or.inr (Option.not_isSome_iff_eq_none.mp (by simp [h]))

end Calls

end Nvram
