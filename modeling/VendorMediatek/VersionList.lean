import Mathlib.Data.List.Nodup
import VendorMediatek.VersionSlots

/-!
# The version file as a list of records

On a file of the header and records with distinct names, each operation of `NVM_UpdateFileVerNo` is
one on the list of the records.
-/

namespace Nvram

open ByteFile RecordFile SlotDirectory

/-- The string in the name field of a record. -/
def VerRecord.name (r : VerRecord) : List UInt8 := cString (r.val.take fileNameLength)

/-- The search reads one byte less than the field has. A string that is shorter than what it reads
is the same there. -/
theorem cString_take_iff {buf s : List UInt8} (m : ℕ) (h : s.length < m) :
    cString (buf.take m) = s ↔ cString (buf.take (m + 1)) = s := by
  have htake : ∀ i, cString (buf.take i) = (cString buf).take i := fun i =>
    List.take_takeWhile.symm
  rw [htake, htake]
  constructor
  · rintro rfl
    rw [List.length_take] at h
    rw [List.take_of_length_le (by omega), List.take_of_length_le (by omega)]
  · rintro rfl
    rw [List.length_take] at h
    rw [List.take_of_length_le (by omega), List.take_of_length_le (by omega)]

theorem TCfgFile.targetName_short (f : TCfgFile) : f.targetName.length < fileNameLength - 1 := by
  unfold TCfgFile.targetName
  cases h : afterSlash f.cFileName with
  | none => decide
  | some name =>
    have hshort := (afterSlash_suffix h).1
    have hname := f.name_length
    rw [Option.getD_some]
    omega

theorem nameAt_encode_iff (rs : List VerRecord) {i : ℕ} (hi : i < rs.length) (f : TCfgFile) :
    nameAt (encode rs) (i * recordSize) = f.targetName ↔ rs[i].name = f.targetName := by
  rw [nameAt_encode rs hi, cString_take_iff _ f.targetName_short]
  rfl

theorem findTarget_encode {rs : List VerRecord} (hdistinct : (rs.map VerRecord.name).Nodup) {i : ℕ}
    (hi : i < rs.length) {f : TCfgFile} (hname : rs[i].name = f.targetName) :
    findTarget (encode rs) f.targetName = some i := by
  have hcount : (slots (encode rs)).count = rs.length := by
    simp only [slots, length_encode]
    exact Nat.mul_div_cancel _ (by decide)
  rw [findTarget_eq, Directory.find_eq_some, hcount]
  refine ⟨hi, (nameAt_encode_iff rs hi f).mpr hname, fun j hj hsame => ?_⟩
  have hsame' := (nameAt_encode_iff rs (hj.trans hi) f).mp hsame
  have hrecord : rs[j] = rs[i] := List.inj_on_of_nodup_map hdistinct (List.getElem_mem _)
    (List.getElem_mem _) (hsame'.trans hname.symm)
  exact hj.ne ((List.Nodup.of_map _ hdistinct).getElem_inj_iff.mp hrecord)

theorem writeRecord_encode {rs : List VerRecord} {i : ℕ} (hi : i < rs.length) (f : TCfgFile) :
    writeRecord f (i * recordSize) (encode rs) = encode (rs.set i f.verRecord) := by
  have hle : i * recordSize ≤ (encode rs).length := by
    rw [length_encode]
    exact Nat.mul_le_mul_right _ hi.le
  rw [writeRecord, show i * recordSize + fileNameLength = i * recordSize + f.nameField.length by
    rw [f.nameField_length], writeAt_behind hle]
  exact writeAt_encode hi f.verRecord

/-- VerAdd inserts, VerDel removes and VerUpdate replaces the record, and the file is the header
and the records that are then in the list. -/
theorem nvmUpdateFileVerNo_list {t : Tables} {h : VerRecord} {rs : List VerRecord}
    (hh : IsHeader h) (hdistinct : ((h :: rs).map VerRecord.name).Nodup) :
    (∀ lid f, t.cfgFile lid = some f → lid ≤ rs.length →
      nvmUpdateFileVerNo t lid .verAdd (encode (h :: rs)) =
          some (true, encode (h :: (rs.take lid ++ f.verRecord :: rs.drop lid))) ∧
        (encode (h :: (rs.take lid ++ f.verRecord :: rs.drop lid))).length =
          recordSize + (rs.length + 1) * recordSize) ∧
    (∀ lid, lid < rs.length →
      nvmUpdateFileVerNo t lid .verDel (encode (h :: rs)) =
          some (true, encode (h :: rs.eraseIdx lid)) ∧
        (encode (h :: rs.eraseIdx lid)).length = recordSize + (rs.length - 1) * recordSize) ∧
    ∀ lid f i, t.cfgFile lid = some f → (∃ r, rs[i]? = some r ∧ r.name = f.targetName) →
      nvmUpdateFileVerNo t lid .verUpdate (encode (h :: rs)) =
          some (true, encode (h :: rs.set i f.verRecord)) ∧
        (encode (h :: rs.set i f.verRecord)).length = recordSize + rs.length * recordSize := by
  have hsize : ∀ rs' : List VerRecord,
      (encode (h :: rs')).length = recordSize + rs'.length * recordSize := by
    intro rs'
    rw [encode_cons, List.length_append, length_encode, h.property]
    rfl
  refine ⟨?_, ?_, ?_⟩
  · intro lid f hf hle
    simp only [nvmUpdateFileVerNo, hf, verAdd_encode hh rs f hle, hsize, true_and]
    congr 2
    simp only [List.length_append, List.length_cons, List.length_take, List.length_drop]
    omega
  · intro lid hlt
    simp only [nvmUpdateFileVerNo, verDel_encode hh rs lid, if_pos hlt, hsize,
      List.length_eraseIdx_of_lt hlt, true_and]
  · rintro lid f i hf ⟨r, hget, hname⟩
    obtain ⟨hi, rfl⟩ := List.getElem?_eq_some_iff.mp hget
    have hfound : findTarget (encode (h :: rs)) f.targetName = some (i + 1) :=
      findTarget_encode hdistinct (Nat.succ_lt_succ hi) hname
    have hwrite : writeRecord f ((i + 1) * recordSize) (encode (h :: rs)) =
        encode (h :: rs.set i f.verRecord) :=
      writeRecord_encode (Nat.succ_lt_succ hi) f
    simp only [nvmUpdateFileVerNo, hf, hfound, verUpdateInPlace, bIsNewVerInfo_encode hh rs,
      if_true, hwrite, hsize, List.length_set, true_and]

def smallHeader : VerRecord := ⟨zeroPad fileNameLength strVerInfo ++ [48, 48, 48, 0], by decide⟩

/-- The records of two files, in the other order. -/
def smallRecords : List VerRecord :=
  [(smallFile 66 byte66_ne_zero).verRecord, (smallFile 65 byte65_ne_zero).verRecord]

theorem nvmUpdateFileVerNo_small :
    nvmUpdateFileVerNo smallTables 1 .verDel (encode (smallHeader :: smallRecords)) =
      some (true, encode (smallHeader :: smallRecords.eraseIdx 1)) :=
  ((nvmUpdateFileVerNo_list (t := smallTables) (h := smallHeader) rfl (by decide)).2.1 1
    (by decide)).1

end Nvram
