import Mathlib.Data.List.Basic
import VendorMediatek.RecordFile

/-!
# The NVRAM file tables

`TCFG_FILE` and the two tables g_akCFG_File and g_akCFG_File_Custom, which the platform
generates: they are arbitrary here, but a table entry always holds terminated strings.
-/

namespace Nvram

open ByteFile RecordFile

def fileNameLength : ℕ := 70
def fileVerLength : ℕ := 4

inductive FileDefaultType where
  | multipleDefualtRec | signleDefualtRec | defaultZero | defaultFF
  deriving DecidableEq, Repr

inductive DataProcessing where
  | dataReset | dataConvert
  deriving DecidableEq, Repr

/-- A default value is as long as the records it stands for, and so is what a conversion
function fills in; that function fails where it does not return 1. -/
structure TCfgFile where
  cFileName : List UInt8
  cFileVer : List UInt8
  i4RecSize : ℕ
  i4RecNum : ℕ
  stDefualType : FileDefaultType
  pDefualtVaule : Option (Record UInt8 (i4RecSize * i4RecNum))
  bDataProcessingType : DataProcessing
  nvmDataConvertFunc :
    Option (ℤ → ℤ → List UInt8 → Option (Record UInt8 (i4RecSize * i4RecNum)))
  name_length : cFileName.length < fileNameLength
  name_terminated : 0 ∉ cFileName
  ver_length : cFileVer.length = fileVerLength
  single_value : stDefualType = .signleDefualtRec → pDefualtVaule.isSome

structure Tables where
  gAkCfgFile : List TCfgFile
  gAkCfgFileCustom : List TCfgFile

def Tables.iCustomBeginLid (t : Tables) : ℕ := t.gAkCfgFile.length

def Tables.iNvRamFileMaxLid (t : Tables) : ℕ := t.gAkCfgFile.length + t.gAkCfgFileCustom.length

/-- The entry that NVM_GetCfgFileTable and the real lid select. -/
def Tables.cfgFile (t : Tables) (lid : ℕ) : Option TCfgFile :=
  if lid < t.iCustomBeginLid then t.gAkCfgFile[lid]?
  else t.gAkCfgFileCustom[lid - t.iCustomBeginLid]?

def slash : UInt8 := 47

/-- What stands behind the last slash of a path. -/
def afterSlash : List UInt8 → Option (List UInt8)
  | [] => none
  | b :: path =>
    match afterSlash path with
    | some name => some name
    | none => if b = slash then some path else none

/-- The buffer tempstr stays empty where the path has no slash. -/
def TCfgFile.targetName (f : TCfgFile) : List UInt8 := (afterSlash f.cFileName).getD []

/-- A string in a buffer of n bytes that was cleared before. -/
def zeroPad (n : ℕ) (s : List UInt8) : List UInt8 := s ++ List.replicate (n - s.length) 0

/-- The string that a buffer holds. -/
def cString (buf : List UInt8) : List UInt8 := buf.takeWhile (· ≠ 0)

theorem cString_zeroPad {s : List UInt8} (hs : 0 ∉ s) (n : ℕ) : cString (zeroPad n s) = s := by
  unfold cString zeroPad
  generalize n - s.length = m
  induction s with
  | nil => cases m <;> simp [List.replicate_succ]
  | cons b s ih =>
    have hb : b ≠ 0 := fun he => hs (he ▸ List.mem_cons_self)
    have hrest := ih fun hm => hs (List.mem_cons_of_mem b hm)
    simpa [hb] using hrest

theorem afterSlash_suffix {path name : List UInt8} (h : afterSlash path = some name) :
    name.length < path.length ∧ name ⊆ path := by
  induction path with
  | nil => simp [afterSlash] at h
  | cons b path ih =>
    simp only [afterSlash] at h
    split at h
    · rename_i found hf
      cases h
      obtain ⟨hl, hs⟩ := ih hf
      exact ⟨by rw [List.length_cons]; omega, fun x hx => List.mem_cons_of_mem b (hs hx)⟩
    · split at h
      · cases h
        exact ⟨by simp, fun x hx => List.mem_cons_of_mem b hx⟩
      · cases h

theorem TCfgFile.targetName_length (f : TCfgFile) : f.targetName.length < fileNameLength := by
  unfold TCfgFile.targetName
  cases h : afterSlash f.cFileName with
  | none => decide
  | some name => exact (afterSlash_suffix h).1.trans f.name_length

theorem TCfgFile.targetName_terminated (f : TCfgFile) : 0 ∉ f.targetName := by
  unfold TCfgFile.targetName
  cases h : afterSlash f.cFileName with
  | none => simp
  | some name => exact fun hm => f.name_terminated ((afterSlash_suffix h).2 hm)

/-- The name field of a version record. -/
def TCfgFile.nameField (f : TCfgFile) : List UInt8 := zeroPad fileNameLength f.targetName

theorem TCfgFile.nameField_length (f : TCfgFile) : f.nameField.length = fileNameLength := by
  have := f.targetName_length
  simp only [TCfgFile.nameField, zeroPad, List.length_append, List.length_replicate]
  omega

/-- One entry of a version file in the new format: a file name and a version. -/
abbrev VerRecord := Record UInt8 (fileNameLength + fileVerLength)

def TCfgFile.verRecord (f : TCfgFile) : VerRecord :=
  ⟨f.nameField ++ f.cFileVer, by rw [List.length_append, f.nameField_length, f.ver_length]⟩

theorem Tables.cfgFile_common (t : Tables) {lid : ℕ} (h : lid < t.gAkCfgFile.length) :
    t.cfgFile lid = some t.gAkCfgFile[lid] := by
  simp [Tables.cfgFile, Tables.iCustomBeginLid, h]

theorem Tables.cfgFile_custom (t : Tables) {i : ℕ} (h : i < t.gAkCfgFileCustom.length) :
    t.cfgFile (t.iCustomBeginLid + i) = some t.gAkCfgFileCustom[i] := by
  simp [Tables.cfgFile, h]

theorem Tables.cfgFile_eq_none_iff (t : Tables) (lid : ℕ) :
    t.cfgFile lid = none ↔ t.iNvRamFileMaxLid ≤ lid := by
  unfold Tables.cfgFile Tables.iNvRamFileMaxLid Tables.iCustomBeginLid
  split
  · rw [List.getElem?_eq_none_iff]
    omega
  · rw [List.getElem?_eq_none_iff]
    omega

theorem Tables.lt_of_cfgFile {t : Tables} {lid : ℕ} {f : TCfgFile} (h : t.cfgFile lid = some f) :
    lid < t.iNvRamFileMaxLid := by
  by_contra hge
  rw [(t.cfgFile_eq_none_iff lid).mpr (Nat.le_of_not_lt hge)] at h
  cases h

theorem Tables.exists_cfgFile {t : Tables} {lid : ℕ} (h : lid < t.iNvRamFileMaxLid) :
    ∃ f, t.cfgFile lid = some f := by
  refine Option.ne_none_iff_exists'.mp fun hnone => ?_
  exact Nat.not_le_of_lt h ((t.cfgFile_eq_none_iff lid).mp hnone)

/-- A table entry of one byte, for the file of this name in the root directory. -/
def smallFile (name : UInt8) (hn : name ≠ 0) : TCfgFile where
  cFileName := [slash, name]
  cFileVer := [48, 48, 49, 0]
  i4RecSize := 1
  i4RecNum := 1
  stDefualType := .defaultZero
  pDefualtVaule := none
  bDataProcessingType := .dataReset
  nvmDataConvertFunc := none
  name_length := by simp [fileNameLength]
  name_terminated := by simp [slash, hn.symm]
  ver_length := rfl
  single_value := by intro h; cases h

theorem byte65_ne_zero : (65 : UInt8) ≠ 0 := by decide

theorem byte66_ne_zero : (66 : UInt8) ≠ 0 := by decide

def smallTables : Tables where
  gAkCfgFile := [smallFile 65 (by decide), smallFile 66 (by decide)]
  gAkCfgFileCustom := [smallFile 67 (by decide), smallFile 68 (by decide)]

end Nvram
