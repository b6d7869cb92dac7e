import VendorMediatek.SessionFrame

/-!
# What the calls of a session leave alone

On a disk with an up-to-date version file every call keeps the version file up to date and
touches no file but that and the file of its own lid.
-/

namespace Nvram

open ByteFile

def Current (t : Tables) (d : Disk) : Prop :=
  ∃ file, d iFileVerInfoLid = some file ∧ VersionsCurrent t file

section Current

variable {t : Tables} {d : Disk} {lid : ℕ} {f : TCfgFile}

theorem current_generate (t : Tables) (d : Disk) : Current t (nvmGenerateFileVer t d) :=
  ⟨_, Function.update_self iFileVerInfoLid _ d, generated_current t _⟩

theorem Current.ensure (h : Current t d) : ensureVerFile t d = d := by
  obtain ⟨file, hd, _⟩ := h
  rw [ensureVerFile, hd]
  rfl

theorem Current.write (h : Current t d) (hlid : lid ≠ iFileVerInfoLid) (content : Option (List UInt8)) :
    Current t (Function.update d lid content) := by
  obtain ⟨file, hd, hfile⟩ := h
  exact ⟨file, (Function.update_of_ne hlid.symm ..).trans hd, hfile⟩

theorem Current.update (hn : DistinctBasenames t) (h : Current t d) (hf : t.cfgFile lid = some f)
    (hs : slash ∈ f.cFileName) : Current t (updateFileVer t lid d) := by
  obtain ⟨file, hd, hfile⟩ := h
  simp only [updateFileVer, hd, nvmUpdateFileVerNo_verUpdate hf]
  exact ⟨_, Function.update_self .., hfile.updated hn hf hs⟩

theorem Current.compares (h : Current t d) (hf : t.cfgFile lid = some f)
    (hs : slash ∈ f.cFileName) : cmpFileVer t lid d = (true, d) := by
  simp only [cmpFileVer, hf, hs, if_true, h.ensure]
  obtain ⟨file, hd, hfile⟩ := h
  rw [hd, Option.getD_some, hfile.compares hf hs]

end Current

/-- From a disk with an up-to-date version file: it stays so, and other lids keep their files. -/
structure Keeps (t : Tables) (lid : ℕ) (d d' : Disk) : Prop where
  current : Current t d'
  others : ∀ lid', lid' ≠ iFileVerInfoLid → lid' ≠ lid → d' lid' = d lid'

variable {p : Platform} {lid : ℕ} {f : TCfgFile} {d d' d'' : Disk}

theorem Keeps.refl (h : Current p.tables d) : Keeps p.tables lid d d := ⟨h, fun _ _ _ => rfl⟩

theorem Keeps.trans (h : Keeps p.tables lid d d') (h' : Keeps p.tables lid d' d'') :
    Keeps p.tables lid d d'' :=
  ⟨h'.current, fun lid' h0 hne => (h'.others lid' h0 hne).trans (h.others lid' h0 hne)⟩

theorem Keeps.write (h : Keeps p.tables lid d d') (hlid : lid ≠ iFileVerInfoLid)
    (content : Option (List UInt8)) : Keeps p.tables lid d (Function.update d' lid content) :=
  ⟨h.current.write hlid content,
    fun lid' h0 hne => (Function.update_of_ne hne ..).trans (h.others lid' h0 hne)⟩

theorem Keeps.generate (h : Keeps p.tables lid d d') :
    Keeps p.tables lid d (nvmGenerateFileVer p.tables d') :=
  ⟨current_generate p.tables d',
    fun lid' h0 hne => (nvmGenerateFileVer_apart h0 ..).trans (h.others lid' h0 hne)⟩

section Calls

variable (hn : DistinctBasenames p.tables) (hf : p.tables.cfgFile lid = some f)
  (hs : slash ∈ f.cFileName)

include hn hf hs

theorem Keeps.update (h : Keeps p.tables lid d d') :
    Keeps p.tables lid d (updateFileVer p.tables lid d') :=
  ⟨h.current.update hn hf hs,
    fun lid' h0 hne => (updateFileVer_apart h0 ..).trans (h.others lid' h0 hne)⟩

theorem Keeps.reset (h : Keeps p.tables lid d d') :
    Keeps p.tables lid d (nvmResetFileToDefault p lid d').2 := by
  simp only [nvmResetFileToDefault, h.current.ensure, hf]
  by_cases hlid : lid = iFileVerInfoLid
  · rw [if_pos hlid]
    exact h.generate
  · rw [if_neg hlid]
    cases f.defaultContent with
    | none => exact h.write hlid _
    | some content =>
      have hu := (h.write hlid (some content)).update hn hf hs
      simp only
      split
      · exact hu
      · exact hu.write hlid _

omit hn hs in
theorem Keeps.restore (h : Keeps p.tables lid d d') (env : Surroundings) :
    Keeps p.tables lid d (nvmRestoreFromBinRegionOneFile p env lid d').2 := by
  unfold nvmRestoreFromBinRegionOneFile
  cases env.binRegion with
  | none => exact h
  | some content =>
    simp only [h.current.ensure, hf]
    by_cases hlid : lid = iFileVerInfoLid
    · rw [if_pos hlid]
      exact h.generate
    · rw [if_neg hlid]
      split
      · exact h
      · exact h.write hlid _

theorem Keeps.restoreOrReset (h : Keeps p.tables lid d d') (env : Surroundings) :
    Keeps p.tables lid d (restoreOrReset p env lid f d').2 := by
  have hrestored : Keeps p.tables lid d (if (lid, f.targetName) ∈ p.aBackupToBinRegion then
      nvmRestoreFromBinRegionOneFile p env lid d' else (false, d')).2 := by
    split
    · exact h.restore hf env
    · exact h
  unfold Nvram.restoreOrReset
  generalize (if (lid, f.targetName) ∈ p.aBackupToBinRegion then
    nvmRestoreFromBinRegionOneFile p env lid d' else (false, d')) = restored at hrestored ⊢
  by_cases hok : restored.1 = true
  · rw [if_pos hok]
    exact hrestored
  · rw [if_neg hok]
    exact hrestored.reset hn hf hs

theorem Keeps.protect (h : Keeps p.tables lid d d') (env : Surroundings) (setflag : Bool) :
    Keeps p.tables lid d (nvmProtectDataFile p env lid setflag d').2 := by
  simp only [nvmProtectDataFile, h.current.ensure, hf]
  by_cases hlid : lid = iFileVerInfoLid
  · rw [if_pos hlid]
    exact h.generate
  · rw [if_neg hlid]
    cases d' lid with
    | none => exact h.restoreOrReset hn hf hs env
    | some file =>
      simp only
      split_ifs
      · exact h.restoreOrReset hn hf hs env
      · exact h.write hlid _
      · exact h
      · exact h.restoreOrReset hn hf hs env

omit hn in
/-- An existing file whose version compares equal is neither converted nor reset. -/
theorem bringUpToDate_current (h : Current p.tables d) (env : Surroundings) :
    bringUpToDate p env lid f d = (true, d) := by
  simp only [bringUpToDate, h.compares hf hs, if_true]

theorem Keeps.prepare (h : Keeps p.tables lid d d') (env : Surroundings) :
    Keeps p.tables lid d (prepareFile p env lid f d').2 := by
  unfold prepareFile
  cases hd : d' lid with
  | some file =>
    simp only
    rw [bringUpToDate_current hf hs h.current env]
    exact h
  | none =>
    have hlid : lid ≠ iFileVerInfoLid := by
      rintro rfl
      obtain ⟨file, hfile, _⟩ := h.current
      rw [hd] at hfile
      cases hfile
    have hrestored : Keeps p.tables lid d
        (if env.nvmFlag ∧ lid ∈ p.aBackupToBinRegion.map Prod.fst then
          nvmRestoreFromBinRegionOneFile p env lid d' else (false, d')).2 := by
      split
      · exact h.restore hf env
      · exact h
    unfold bringIntoBeing
    generalize (if env.nvmFlag ∧ lid ∈ p.aBackupToBinRegion.map Prod.fst then
      nvmRestoreFromBinRegionOneFile p env lid d' else (false, d')) = restored at hrestored ⊢
    simp only
    by_cases hok : restored.1 = true
    · rw [if_pos hok]
      exact hrestored
    · rw [if_neg hok]
      exact (hrestored.write hlid _).reset hn hf hs

end Calls

theorem keeps_get (hn : DistinctBasenames p.tables) (h : Current p.tables d) (env : Surroundings)
    (lid : ℕ) (isRead : Bool) (hread : lid ∈ p.specialLids → isRead = true) :
    Keeps p.tables lid d (nvmGetFileDesc p env lid isRead d).2 := by
  unfold nvmGetFileDesc
  cases hf : p.tables.cfgFile lid with
  | none => exact Keeps.refl h
  | some f =>
    simp only
    split
    · rename_i hspecial
      simp only [solveSpecialLid, hread hspecial, true_or, if_true]
      split
      · exact Keeps.refl h
      · exact Keeps.refl h
    · split
      · exact Keeps.refl h
      · rename_i hname
        have hs := hn.has_basename hf hname
        have hstart : Keeps p.tables lid d d := Keeps.refl h
        have hprepared := hstart.prepare hn hf hs env
        split
        · split
          · exact hprepared
          · exact hprepared.protect hn hf hs env false
        · exact hprepared

end Nvram
