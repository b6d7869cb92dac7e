import VendorMediatek.NvramSession

/-!
# The readers of a recorded version

`NVM_CmpFileVerNo` finds the record of a lid by its slot or by name, while `NVM_DataVerConvert` and
`NVM_ReadFileVerInfo` go by the slot alone.
-/

namespace Nvram

open ByteFile

/-- Where the version of a lid stands by its slot. -/
def slotVerOffset (file : List UInt8) (lid : ℕ) : ℕ :=
  if bIsNewVerInfo file then (lid + 1) * recordSize + fileNameLength else lid * fileVerLength

/-- The buffer pFileVerInfo, which the convert function gets the number in. It holds three bytes and
a terminator. A lid whose slot is not within the file is reset instead. -/
def convertedVer (lid : ℕ) (file : List UInt8) : Option (List UInt8) :=
  if slotVerOffset file lid + fileVerLength > file.length then none
  else some (readAt file (slotVerOffset file lid) (fileVerLength - 1) ++ [0])

/-- What the last part of NVM_ReadFileVerInfo reads. -/
def readVer (lid : ℕ) (file : List UInt8) : List UInt8 := cFbyte file (slotVerOffset file lid)

structure FInfo where
  cFileVer : List UInt8
  cFileName : List UInt8
  i4RecSize : ℕ
  i4RecNum : ℕ
  i4MaxFileLid : ℕ
  deriving DecidableEq, Repr

def FInfo.cleared : FInfo where
  cFileVer := List.replicate fileVerLength 0
  cFileName := List.replicate fileNameLength 0
  i4RecSize := 0
  i4RecNum := 0
  i4MaxFileLid := 0

def fileInfo (t : Tables) (lid : ℕ) (f : TCfgFile) (verFile : List UInt8) : FInfo where
  cFileVer := readVer lid verFile
  cFileName := zeroPad fileNameLength f.cFileName
  i4RecSize := f.i4RecSize
  i4RecNum := f.i4RecNum
  i4MaxFileLid := t.iNvRamFileMaxLid

def nvmReadFileVerInfo (p : Platform) (env : Surroundings) (lid : ℕ) (d : Disk) : FInfo × Disk :=
  match p.tables.cfgFile lid with
  | none => (.cleared, d)
  | some f =>
    let prepared :=
      if (d iFileVerInfoLid).isSome then
        if (cmpFileVer p.tables lid d).1 ∧ d lid = none then nvmResetFileToDefault p lid d
        else bringUpToDate p env lid f d
      else nvmResetFileToDefault p lid (nvmGenerateFileVer p.tables d)
    match prepared.1, prepared.2 iFileVerInfoLid with
    | true, some verFile => (fileInfo p.tables lid f verFile, prepared.2)
    | _, _ => (.cleared, prepared.2)

variable {p : Platform} {lid : ℕ} {f : TCfgFile}

theorem nvmDataVerConvert_eq (hf : p.tables.cfgFile lid = some f) (env : Surroundings) {d : Disk}
    {verFile : List UInt8} (hd : d iFileVerInfoLid = some verFile) :
    nvmDataVerConvert p env lid d =
      match convertedVer lid verFile with
      | none => nvmResetFileToDefault p lid d
      | some ver => convertData p env lid f (atoi (cString ver)) d := by
  have hterminated : ∀ s : List UInt8, cString (s ++ [0]) = cString s := fun s =>
    cString_append_zeros s 1
  simp only [nvmDataVerConvert, hd, hf]
  change (if slotVerOffset verFile lid + fileVerLength > verFile.length then _ else _) = _
  unfold convertedVer
  split
  · rfl
  · simp only [hterminated]
    rfl

/-- A version that is returned is the one that the version file, as it is left, has in the slot. -/
theorem nvmReadFileVerInfo_ver (hf : p.tables.cfgFile lid = some f) (env : Surroundings) (d : Disk) :
    (nvmReadFileVerInfo p env lid d).1 = .cleared ∨
      ∃ verFile ∈ (nvmReadFileVerInfo p env lid d).2 iFileVerInfoLid,
        (nvmReadFileVerInfo p env lid d).1.cFileVer = readVer lid verFile := by
  simp only [nvmReadFileVerInfo, hf]
  split
  · rename_i verFile _ hv
    exact Or.inr ⟨verFile, hv, rfl⟩
  · exact Or.inl rfl

/-- The versions that the three take from one version file, those that do take one, are one
string. -/
structure ReadersAgree (f : TCfgFile) (lid : ℕ) (file : List UInt8) : Prop where
  compared : slash ∈ f.cFileName → ∀ ver ∈ recordedVer f lid file,
    cString ver = cString (readVer lid file)
  converted : ∀ ver ∈ convertedVer lid file, cString ver = cString (readVer lid file)

/-- The version in the slot of the lid is terminated. In the new format the slot has the lid's
name, or the first record with it, if there is one, has the same version as the slot. -/
def ReadersAligned (f : TCfgFile) (lid : ℕ) (file : List UInt8) : Prop :=
  (slotVerOffset file lid + fileVerLength ≤ file.length →
    0 ∈ readAt file (slotVerOffset file lid) fileVerLength) ∧
  (bIsNewVerInfo file = true → slash ∈ f.cFileName →
    nameAt file ((lid + 1) * recordSize) = f.targetName ∨
      ∀ idx ∈ findTarget file f.targetName,
        cString (cFbyte file (idx * recordSize + fileNameLength)) =
          cString (cFbyte file ((lid + 1) * recordSize + fileNameLength)))

instance (f : TCfgFile) (lid : ℕ) (file : List UInt8) : Decidable (ReadersAligned f lid file) := by
  unfold ReadersAligned
  infer_instance

/-- The first three of four bytes are the same string as all of them just when one of the four
is a terminator. -/
theorem cString_three_iff {s : List UInt8} (h : s.length = 4) :
    cString (s.take 3) = cString s ↔ 0 ∈ s := by
  match s, h with
  | [a, b, c, d], _ =>
    simp only [cString, List.take_succ_cons, List.take_zero, List.takeWhile_cons, List.takeWhile_nil,
      List.mem_cons, List.not_mem_nil, or_false]
    by_cases ha : a = 0
    · simp [ha]
    · by_cases hb : b = 0
      · simp [ha, hb]
      · by_cases hc : c = 0
        · simp [ha, hb, hc]
        · by_cases hd : d = 0
          · simp [ha, hb, hc, hd]
          · simp [ha, hb, hc, hd, Ne.symm ha, Ne.symm hb, Ne.symm hc, Ne.symm hd]

theorem converted_agrees_iff (lid : ℕ) (file : List UInt8) :
    (∀ ver ∈ convertedVer lid file, cString ver = cString (readVer lid file)) ↔
      (slotVerOffset file lid + fileVerLength ≤ file.length →
        0 ∈ readAt file (slotVerOffset file lid) fileVerLength) := by
  unfold convertedVer readVer cFbyte
  generalize slotVerOffset file lid = off
  by_cases hfits : off + fileVerLength > file.length
  · simp [hfits, Nat.not_le_of_lt hfits]
  · have hle : off + fileVerLength ≤ file.length := Nat.le_of_not_lt hfits
    have hlen : (readAt file off fileVerLength).length = 4 := by
      rw [length_readAt]
      simp only [fileVerLength] at hle ⊢
      omega
    have hpad : zeroPad fileVerLength (readAt file off fileVerLength) =
        readAt file off fileVerLength := by
      rw [zeroPad, hlen]
      exact List.append_nil _
    have hthree : readAt file off (fileVerLength - 1) = (readAt file off fileVerLength).take 3 := by
      rw [readAt, readAt, List.take_take]
      rfl
    have hterminated : cString ((readAt file off fileVerLength).take 3 ++ [0]) =
        cString ((readAt file off fileVerLength).take 3) := cString_append_zeros _ 1
    simp only [hfits, if_false, Option.mem_some_iff, forall_eq', hle, true_implies, hpad, hthree,
      hterminated]
    exact cString_three_iff hlen

theorem compared_agrees_iff (f : TCfgFile) (lid : ℕ) (file : List UInt8) :
    (∀ ver ∈ recordedVer f lid file, cString ver = cString (readVer lid file)) ↔
      (bIsNewVerInfo file = true →
        nameAt file ((lid + 1) * recordSize) = f.targetName ∨
          ∀ idx ∈ findTarget file f.targetName,
            cString (cFbyte file (idx * recordSize + fileNameLength)) =
              cString (cFbyte file ((lid + 1) * recordSize + fileNameLength))) := by
  unfold recordedVer readVer slotVerOffset
  by_cases hnew : bIsNewVerInfo file = true
  · simp only [hnew, if_true, true_implies]
    by_cases hname : nameAt file ((lid + 1) * recordSize) = f.targetName
    · simp [hname]
    · simp [hname]
  · simp [hnew]

/-- When the three readers agree on a lid's recorded version. -/
theorem readers_agree_iff (f : TCfgFile) (lid : ℕ) (file : List UInt8) :
    ReadersAgree f lid file ↔ ReadersAligned f lid file := by
  constructor
  · intro h
    refine ⟨(converted_agrees_iff lid file).mp h.converted, fun hnew hs => ?_⟩
    exact (compared_agrees_iff f lid file).mp (h.compared hs) hnew
  · rintro ⟨hterminated, hslot⟩
    constructor
    · intro hs
      exact (compared_agrees_iff f lid file).mpr fun hnew => hslot hnew hs
    · exact (converted_agrees_iff lid file).mpr hterminated

/-- A record that stands one slot behind its lid: the compare finds it by name, the others read the
record in front of it. -/
def shiftedVerFile : List UInt8 :=
  zeroPad fileNameLength strVerInfo ++ List.replicate fileVerLength 0 ++
    (smallFile 65 byte65_ne_zero).nameField ++ [48, 48, 48, 0] ++
    (smallFile 65 byte65_ne_zero).nameField ++ [48, 48, 48, 0] ++
    (smallFile 66 byte66_ne_zero).nameField ++
    [48, 48, 49, 0]

theorem shifted_record_read_twice : ¬ ∀ (t : Tables) (lid : ℕ) (f : TCfgFile) (file : List UInt8),
    t.cfgFile lid = some f → ReadersAgree f lid file := by
  intro h
  have hcompared := (h smallTables 1 (smallFile 66 (by decide)) shiftedVerFile rfl).compared
    (by decide) [48, 48, 49, 0] (by decide +kernel)
  revert hcompared
  decide +kernel

end Nvram
