import VendorMediatek.VersionSlots

/-!
# What is read after a version update

`NVM_CmpFileVerNo` behind `NVM_UpdateFileVerNo` with VerUpdate: one lemma for each of its write
paths gives the version that is then read for any lid, in terms of the file before.
-/

namespace Nvram

open ByteFile SlotDirectory

/-- The content that NVM_UpdateFileVerNo leaves with VerUpdate. -/
def updated (f : TCfgFile) (lid : ℕ) (file : List UInt8) : List UInt8 :=
  match findTarget file f.targetName with
  | some idx => verUpdateInPlace f lid idx file
  | none => verAdd f lid file

theorem nvmUpdateFileVerNo_verUpdate {t : Tables} {lid : ℕ} {f : TCfgFile}
    (hf : t.cfgFile lid = some f) (file : List UInt8) :
    nvmUpdateFileVerNo t lid .verUpdate file = some (true, updated f lid file) := by
  simp only [nvmUpdateFileVerNo, hf, updated]
  cases findTarget file f.targetName <;> rfl

variable {f : TCfgFile} {lid : ℕ} {file : List UInt8}

/-! ## New format -/

theorem recordedVer_of_slots {file' : List UInt8}
    {d : Directory (List UInt8) (List UInt8)} (hslots : slots file' = d)
    (hhead : d.name 0 = (slots file).name 0) (hnew : bIsNewVerInfo file = true) (g : TCfgFile)
    (lid' : ℕ) : recordedVer g lid' file' = d.lookup g.targetName (lid' + 1) := by
  have hname : nameAt file' (0 * recordSize) = nameAt file (0 * recordSize) := by
    rw [← hslots] at hhead
    exact hhead
  have hnew' : bIsNewVerInfo file' = true := by
    rw [Nat.zero_mul] at hname
    rwa [bIsNewVerInfo, hname]
  rw [recordedVer_new hnew', hslots]

section NewFormat

variable (hnew : bIsNewVerInfo file = true) (g : TCfgFile) (lid' : ℕ)

include hnew

theorem recordedVer_overwritten {idx : ℕ} (hidx : findTarget file f.targetName = some idx) :
    recordedVer g lid' (updated f lid file) =
      ((slots file).put idx f.targetName f.cFileVer).lookup g.targetName (lid' + 1) := by
  simp only [updated, hidx, verUpdateInPlace, hnew, if_true]
  exact recordedVer_of_slots (slots_writeRecord f idx file)
    (Directory.name_put_found (d := slots file) hidx f.cFileVer 0) hnew g lid'

theorem recordedVer_appended (hnone : findTarget file f.targetName = none)
    (hend : file.length ≤ (lid + 1) * recordSize) :
    recordedVer g lid' (updated f lid file) =
      ((slots file).put (lid + 1) f.targetName f.cFileVer).lookup g.targetName (lid' + 1) := by
  simp only [updated, hnone, verAdd, hnew, if_true, hend]
  exact recordedVer_of_slots (slots_writeRecord f (lid + 1) file)
    (Directory.name_put_of_ne _ _ _ (Nat.succ_ne_zero lid).symm) hnew g lid'

theorem recordedVer_inserted (hnone : findTarget file f.targetName = none)
    (hmid : ¬ file.length ≤ (lid + 1) * recordSize) :
    recordedVer g lid' (updated f lid file) =
      ((slots file).insert (lid + 1) f.targetName f.cFileVer).lookup g.targetName (lid' + 1) := by
  simp only [updated, hnone, verAdd, hnew, if_true, hmid, if_false]
  rw [List.append_assoc _ f.nameField]
  exact recordedVer_of_slots (slots_insert f (Nat.le_of_not_le hmid))
    (Directory.name_insert_before _ _ _ (Nat.succ_pos lid)) hnew g lid'

end NewFormat

/-! ## Old format -/

/-- The version of a lid, put in at its place, makes up a header with the bytes around it. -/
def CompletesHeader (f : TCfgFile) (lid : ℕ) (file : List UInt8) : Prop :=
  bIsNewVerInfo (file.take (lid * fileVerLength) ++ f.cFileVer ++
    file.drop (lid * fileVerLength)) = true

instance (f : TCfgFile) (lid : ℕ) (file : List UInt8) : Decidable (CompletesHeader f lid file) :=
  inferInstanceAs (Decidable (_ = true))

/-- The version for a lid in records that begin four bytes earlier than the slots, behind
a record of the header. -/
def shiftedVer (g : TCfgFile) (lid' : ℕ) (file : List UInt8) : Option (List UInt8) :=
  let behind := file.drop fileNameLength
  if nameAt behind (lid' * recordSize) = g.targetName then
    some (cFbyte behind (lid' * recordSize + fileNameLength))
  else if g.targetName = strVerInfo ∧ fileNameLength ≤ file.length then
    some (cFbyte file (fileNameLength - fileVerLength))
  else
    (findTarget behind g.targetName).map fun i =>
      cFbyte behind (i * recordSize + fileNameLength)

theorem shiftedVer_eq (g : TCfgFile) (lid' : ℕ) (file : List UInt8) :
    shiftedVer g lid' file =
      if (slots (file.drop fileNameLength)).name lid' = g.targetName then
        some ((slots (file.drop fileNameLength)).value lid')
      else if g.targetName = strVerInfo ∧ fileNameLength ≤ file.length then
        some (cFbyte file (fileNameLength - fileVerLength))
      else (slots (file.drop fileNameLength)).found g.targetName :=
  rfl

/-- The update goes to the place of the lid without making room for it. -/
def WritesBehind (f : TCfgFile) (lid : ℕ) (file : List UInt8) : Prop :=
  findTarget file f.targetName = none → file.length ≤ lid * fileVerLength

section OldFormat

variable (hold : bIsNewVerInfo file = false)

include hold

theorem updated_old_written (h : WritesBehind f lid file) :
    updated f lid file = writeAt file (lid * fileVerLength + fileNameLength) f.cFileVer := by
  unfold updated
  cases hfind : findTarget file f.targetName with
  | some idx => simp [verUpdateInPlace, hold]
  | none => simp [verAdd, hold, h hfind]

theorem updated_old_inserted (h : ¬ WritesBehind f lid file) :
    updated f lid file = file.take (lid * fileVerLength) ++ f.cFileVer ++
      file.drop (lid * fileVerLength) := by
  simp only [WritesBehind, Classical.not_imp] at h
  simp [updated, h.1, verAdd, hold, h.2]

theorem recordedVer_written (h : WritesBehind f lid file) (g : TCfgFile) (lid' : ℕ) :
    recordedVer g lid' (updated f lid file) =
      some (cFbyte (writeAt file (lid * fileVerLength + fileNameLength) f.cFileVer)
        (lid' * fileVerLength)) := by
  rw [updated_old_written hold h]
  apply recordedVer_old
  rw [← hold]
  apply bIsNewVerInfo_congr
  apply window_writeAt_of_disjoint
  simp only [headerLength, fileNameLength]
  omega

theorem recordedVer_old_inserted (h : ¬ WritesBehind f lid file)
    (hc : ¬ CompletesHeader f lid file) (g : TCfgFile) (lid' : ℕ) :
    recordedVer g lid' (updated f lid file) =
      some (cFbyte (file.take (lid * fileVerLength) ++ f.cFileVer ++
        file.drop (lid * fileVerLength)) (lid' * fileVerLength)) := by
  rw [updated_old_inserted hold h]
  exact recordedVer_old (Bool.eq_false_iff.mpr hc) g lid'

theorem completesHeader_place (h : ¬ WritesBehind f lid file) (hc : CompletesHeader f lid file) :
    lid * fileVerLength < headerLength := by
  simp only [WritesBehind, Classical.not_imp] at h
  by_contra hge
  have hsame : bIsNewVerInfo (file.take (lid * fileVerLength) ++ f.cFileVer ++
      file.drop (lid * fileVerLength)) = bIsNewVerInfo file := by
    apply bIsNewVerInfo_congr
    apply window_insert_before (by omega)
    omega
  rw [CompletesHeader, hsame, hold] at hc
  cases hc

theorem slot_completed (h : ¬ WritesBehind f lid file) (hc : CompletesHeader f lid file) (i : ℕ) :
    nameAt (file.take (lid * fileVerLength) ++ f.cFileVer ++ file.drop (lid * fileVerLength))
        ((i + 1) * recordSize) = nameAt (file.drop fileNameLength) (i * recordSize) ∧
      cFbyte (file.take (lid * fileVerLength) ++ f.cFileVer ++ file.drop (lid * fileVerLength))
        ((i + 1) * recordSize + fileNameLength) =
          cFbyte (file.drop fileNameLength) (i * recordSize + fileNameLength) := by
  have hplace := completesHeader_place hold h hc
  simp only [WritesBehind, Classical.not_imp] at h
  apply slot_congr
  have hin : lid * fileVerLength ≤ file.length := by omega
  have hbehind := window_insert_behind hin f.cFileVer (n := recordSize)
    (show lid * fileVerLength ≤ i * recordSize + fileNameLength by
      simp only [headerLength] at hplace
      simp only [fileNameLength]
      omega)
  rw [f.ver_length, Nat.add_assoc] at hbehind
  rw [Nat.succ_mul, window_drop]
  exact hbehind

theorem slots_completed (h : ¬ WritesBehind f lid file) (hc : CompletesHeader f lid file)
    (hlen : fileNameLength ≤ file.length) :
    slots (file.take (lid * fileVerLength) ++ f.cFileVer ++ file.drop (lid * fileVerLength)) =
      (slots (file.drop fileNameLength)).insert 0 strVerInfo
        (cFbyte file (fileNameLength - fileVerLength)) := by
  have hplace := completesHeader_place hold h hc
  have hslot := slot_completed hold h hc
  simp only [WritesBehind, Classical.not_imp] at h
  have hin : lid * fileVerLength ≤ file.length := by omega
  apply Directory.ext_slots
  · intro i
    cases i with
    | zero =>
      rw [Directory.name_insert_at]
      have hhead := of_decide_eq_true hc
      rwa [← Nat.zero_mul recordSize] at hhead
    | succ i =>
      rw [Directory.name_insert_behind _ _ _ (Nat.succ_pos i)]
      exact (hslot i).1
  · intro i
    cases i with
    | zero =>
      rw [Directory.value_insert_at]
      simp only [slots, cFbyte_eq_window, Nat.zero_mul, Nat.zero_add]
      have hbehind := window_insert_behind hin f.cFileVer (n := fileVerLength)
        (show lid * fileVerLength ≤ fileNameLength - fileVerLength by
          simp only [headerLength] at hplace
          simp only [fileNameLength, fileVerLength] at hplace ⊢
          omega)
      rwa [f.ver_length] at hbehind
    | succ i =>
      rw [Directory.value_insert_behind _ _ _ (Nat.succ_pos i)]
      exact (hslot i).2
  · have hsum : min (lid * fileVerLength) file.length + fileVerLength +
        (file.length - lid * fileVerLength) = file.length - fileNameLength + recordSize := by
      simp only [recordSize]
      omega
    simp only [slots, Directory.insert, List.length_append, List.length_take, List.length_drop,
      f.ver_length, hsum]
    exact Nat.add_div_right _ (by decide)

theorem recordedVer_completed (h : ¬ WritesBehind f lid file) (hc : CompletesHeader f lid file)
    (g : TCfgFile) (lid' : ℕ) : recordedVer g lid' (updated f lid file) = shiftedVer g lid' file := by
  rw [updated_old_inserted hold h, recordedVer_new hc]
  by_cases hlen : fileNameLength ≤ file.length
  · rw [slots_completed hold h hc hlen, Directory.lookup_insert_behind _ _ (Nat.zero_le _)
      (fun j hj => absurd hj (Nat.not_lt_zero j)) _ (Nat.succ_pos lid'), shiftedVer_eq]
    simp only [Nat.succ_sub_one, hlen, and_true]
    by_cases hname : (slots (file.drop fileNameLength)).name lid' = g.targetName
    · rw [Directory.lookup_of_name hname, if_pos hname, if_neg]
      rintro ⟨hg, hne⟩
      exact hne (hname.trans hg)
    · rw [Directory.lookup_of_ne hname, if_neg hname]
      by_cases hg : g.targetName = strVerInfo
      · rw [if_pos hg, if_pos ⟨hg, hg ▸ hname⟩]
      · rw [if_neg hg, if_neg (fun hcond => hg hcond.1)]
  · -- neither file holds a whole record
    have hslot := slot_completed hold h hc lid'
    have hshort : (file.drop fileNameLength).length / recordSize = 0 := by
      rw [List.length_drop, Nat.sub_eq_zero_of_le (Nat.le_of_not_le hlen), Nat.zero_div]
    have hcount : (file.take (lid * fileVerLength) ++ f.cFileVer ++
        file.drop (lid * fileVerLength)).length / recordSize = 0 := by
      apply Nat.div_eq_of_lt
      simp only [List.length_append, List.length_take, List.length_drop, f.ver_length, recordSize]
      omega
    have hnone : ∀ {d : Directory (List UInt8) (List UInt8)}, d.count = 0 →
        d.found g.targetName = none := fun hd =>
      Directory.found_eq_none.mpr fun i hi => absurd (hd ▸ hi) (Nat.not_lt_zero i)
    rw [shiftedVer_eq, Directory.lookup, hnone hcount, hnone hshort]
    simp only [hlen, and_false, if_false]
    simp only [slots, hslot.1, hslot.2]
    rfl

end OldFormat

theorem cFbyte_written (f : TCfgFile) (lid lid' : ℕ) (file : List UInt8) :
    cFbyte (writeAt file (lid * fileVerLength + fileNameLength) f.cFileVer)
        (lid' * fileVerLength) =
      if lid' = lid + 17 then
        (cFbyte file (lid' * fileVerLength)).take 2 ++ f.cFileVer.take 2
      else if lid' = lid + 18 then
        f.cFileVer.drop 2 ++ (cFbyte file (lid' * fileVerLength)).drop 2
      else cFbyte file (lid' * fileVerLength) := by
  have hver : f.cFileVer.length = 4 := f.ver_length
  have hhalf (file : List UInt8) (off : ℕ) :
      window file off 4 = window file off 2 ++ window file (off + 2) 2 :=
    window_add file off 2 2
  have hread : readAt f.cFileVer 2 2 = f.cFileVer.drop 2 := by
    rw [readAt, List.take_of_length_le (by simp [hver])]
  simp only [cFbyte_eq_window, fileVerLength, fileNameLength]
  by_cases h17 : lid' = lid + 17
  · have hoff : lid' * 4 + 2 = lid * 4 + 70 + 0 := by omega
    rw [if_pos h17, hhalf, hoff, window_writeAt (by omega), take_window _ _ (by decide),
      window_writeAt_of_disjoint (by omega)]
    rfl
  · rw [if_neg h17]
    by_cases h18 : lid' = lid + 18
    · have hoff : lid' * 4 = lid * 4 + 70 + 2 := by omega
      rw [if_pos h18, hhalf, hoff, window_writeAt (by omega), hread,
        window_writeAt_of_disjoint (by omega), drop_window _ _ 2 2]
    · rw [if_neg h18, window_writeAt_of_disjoint (by omega)]

theorem cFbyte_inserted {f : TCfgFile} {lid : ℕ} {file : List UInt8}
    (h : lid * fileVerLength ≤ file.length) (lid' : ℕ) :
    cFbyte (file.take (lid * fileVerLength) ++ f.cFileVer ++ file.drop (lid * fileVerLength))
        (lid' * fileVerLength) =
      if lid' < lid then cFbyte file (lid' * fileVerLength)
      else if lid' = lid then f.cFileVer
      else cFbyte file ((lid' - 1) * fileVerLength) := by
  have hver := f.ver_length
  simp only [cFbyte_eq_window]
  rcases lt_trichotomy lid' lid with hlt | rfl | hgt
  · rw [if_pos hlt]
    apply window_insert_before h
    rw [← Nat.succ_mul]
    exact Nat.mul_le_mul_right _ hlt
  · rw [if_neg (Nat.lt_irrefl lid'), if_pos rfl]
    have hself := window_insert_at h f.cFileVer (a := 0) (n := fileVerLength) (by omega)
    rwa [readAt_all hver.le] at hself
  · rw [if_neg (by omega), if_neg (by omega)]
    obtain ⟨k, rfl⟩ := Nat.exists_eq_add_of_lt hgt
    have hbehind := window_insert_behind h f.cFileVer (n := fileVerLength)
      (Nat.mul_le_mul_right fileVerLength (Nat.le_add_right lid k))
    rwa [hver, ← Nat.succ_mul] at hbehind

end Nvram
