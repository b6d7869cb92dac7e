import VendorMediatek.SlotDirectory
import VendorMediatek.VersionFile

/-!
# The version file as a directory

In the new format `NVM_CmpFileVerNo` looks a version up in the directory of the file's record
slots, and the writes of `NVM_UpdateFileVerNo` overwrite a slot of it or put one in.
-/

namespace Nvram

open ByteFile SlotDirectory

def slots (file : List UInt8) : Directory (List UInt8) (List UInt8) where
  name i := nameAt file (i * recordSize)
  value i := cFbyte file (i * recordSize + fileNameLength)
  count := file.length / recordSize

theorem findTarget_eq (file name : List UInt8) : findTarget file name = (slots file).find name := rfl

theorem recordedVer_new {file : List UInt8} (h : bIsNewVerInfo file = true) (f : TCfgFile)
    (lid : ℕ) : recordedVer f lid file = (slots file).lookup f.targetName (lid + 1) := by
  rw [recordedVer, if_pos h]
  rfl

theorem recordedVer_old {file : List UInt8} (h : bIsNewVerInfo file = false) (f : TCfgFile)
    (lid : ℕ) : recordedVer f lid file = some (cFbyte file (lid * fileVerLength)) := by
  rw [recordedVer, h]
  rfl

theorem nvmCmpFileVerNo_iff {t : Tables} {lid : ℕ} {f : TCfgFile} (hf : t.cfgFile lid = some f)
    (hs : slash ∈ f.cFileName) (file : List UInt8) :
    nvmCmpFileVerNo t lid file = true ↔ recordedVer f lid file = some f.cFileVer := by
  simp [nvmCmpFileVerNo, hf, hs]

/-! ## Names and versions as windows -/

theorem cFbyte_eq_window (file : List UInt8) (off : ℕ) :
    cFbyte file off = window file off fileVerLength :=
  readAt_padded file off fileVerLength

theorem cString_append_zeros (s : List UInt8) (n : ℕ) :
    cString (s ++ List.replicate n 0) = cString s := by
  induction s with
  | nil => cases n <;> simp [cString, List.replicate_succ]
  | cons b s ih =>
    by_cases hb : b = 0
    · simp [cString, hb]
    · simpa [cString, hb] using ih

theorem nameAt_eq_window (file : List UInt8) (off : ℕ) :
    nameAt file off = cString (window file off (fileNameLength - 1)) := by
  rw [nameAt, ← readAt_padded, cString_append_zeros]

/-! ## Slots as windows -/

theorem slot_name (file : List UInt8) (off : ℕ) :
    nameAt file off = cString ((window file off recordSize).take (fileNameLength - 1)) := by
  rw [nameAt_eq_window, take_window _ _ (by decide)]

theorem slot_version (file : List UInt8) (off : ℕ) :
    cFbyte file (off + fileNameLength) = (window file off recordSize).drop fileNameLength := by
  rw [cFbyte_eq_window, recordSize, drop_window]

theorem nameField_name (f : TCfgFile) :
    cString (f.nameField.take (fileNameLength - 1)) = f.targetName := by
  have hlen := f.targetName_length
  have hpad : f.nameField.take (fileNameLength - 1) = zeroPad (fileNameLength - 1) f.targetName := by
    rw [TCfgFile.nameField, zeroPad, zeroPad, List.take_append, List.take_of_length_le (by omega),
      List.take_replicate, Nat.min_eq_left (by omega)]
  rw [hpad, cString_zeroPad f.targetName_terminated]

theorem slot_record {file : List UInt8} {off : ℕ} {f : TCfgFile}
    (h : window file off recordSize = f.verRecord.val) :
    nameAt file off = f.targetName ∧ cFbyte file (off + fileNameLength) = f.cFileVer := by
  have hlen := f.nameField_length
  constructor
  · rw [slot_name, h, TCfgFile.verRecord, List.take_append_of_le_length (by rw [hlen]; decide),
      nameField_name]
  · rw [slot_version, h, TCfgFile.verRecord, List.drop_left' hlen]

theorem slot_congr {file file' : List UInt8} {off off' : ℕ}
    (h : window file' off' recordSize = window file off recordSize) :
    nameAt file' off' = nameAt file off ∧
      cFbyte file' (off' + fileNameLength) = cFbyte file (off + fileNameLength) := by
  constructor
  · rw [slot_name, slot_name, h]
  · rw [slot_version, slot_version, h]

/-! ## The header -/

theorem cString_eq_iff {s : List UInt8} (hs : 0 ∉ s) {w : List UInt8} (hw : s.length < w.length) :
    cString w = s ↔ w.take (s.length + 1) = s ++ [0] := by
  induction s generalizing w with
  | nil =>
    cases w with
    | nil => simp at hw
    | cons b w => by_cases hb : b = 0 <;> simp [cString, hb]
  | cons c s ih =>
    have hc : c ≠ 0 := fun he => hs (he ▸ List.mem_cons_self)
    cases w with
    | nil => simp at hw
    | cons b w =>
      have ih' := ih (fun hm => hs (List.mem_cons_of_mem c hm)) (Nat.lt_of_succ_lt_succ hw)
      rw [cString] at ih'
      by_cases hb : b = 0
      · simp [cString, hb, hc.symm]
      · simp only [cString, List.takeWhile_cons, decide_eq_true hb, if_true, List.cons.injEq, ih',
          List.length_cons, List.take_succ_cons, List.cons_append]

/-- The bytes that tell the formats apart. -/
def headerLength : ℕ := 15

theorem bIsNewVerInfo_iff (file : List UInt8) :
    bIsNewVerInfo file = true ↔ window file 0 headerLength = strVerInfo ++ [0] := by
  rw [bIsNewVerInfo, decide_eq_true_iff, nameAt_eq_window,
    cString_eq_iff (by decide) (by rw [length_window]; decide), take_window _ _ (by decide)]
  rfl

theorem bIsNewVerInfo_congr {file file' : List UInt8}
    (h : window file' 0 headerLength = window file 0 headerLength) :
    bIsNewVerInfo file' = bIsNewVerInfo file := by
  rw [Bool.eq_iff_iff, bIsNewVerInfo_iff, bIsNewVerInfo_iff, h]


/-! ## The writes in the new format -/

theorem length_writeRecord (f : TCfgFile) (off : ℕ) (file : List UInt8) :
    (writeRecord f off file).length = max file.length (off + recordSize) := by
  have hname := f.nameField_length
  have hver := f.ver_length
  have hn : f.nameField ≠ [] := List.ne_nil_of_length_pos (by rw [hname]; decide)
  have hv : f.cFileVer ≠ [] := List.ne_nil_of_length_pos (by rw [hver]; decide)
  rw [writeRecord, length_writeAt_max hv, length_writeAt_max hn, hname, hver, recordSize]
  omega

theorem window_writeRecord (f : TCfgFile) (off : ℕ) (file : List UInt8) :
    window (writeRecord f off file) off recordSize = f.verRecord.val := by
  have hname := f.nameField_length
  have hver := f.ver_length
  have hnames : window (writeRecord f off file) off fileNameLength = f.nameField := by
    rw [writeRecord, window_writeAt_of_disjoint (Or.inl le_rfl)]
    have hwritten := window_writeAt
      (show 0 + fileNameLength ≤ f.nameField.length by omega) file off
    rwa [readAt_all hname.le] at hwritten
  have hvers : window (writeRecord f off file) (off + fileNameLength) fileVerLength =
      f.cFileVer := by
    have hwritten := window_writeAt
      (show 0 + fileVerLength ≤ f.cFileVer.length by omega) (writeAt file off f.nameField)
      (off + fileNameLength)
    rwa [readAt_all hver.le] at hwritten
  rw [recordSize, window_add, hnames, hvers]
  rfl

theorem window_writeRecord_of_disjoint (f : TCfgFile) {off off' n : ℕ}
    (h : off' + n ≤ off ∨ off + recordSize ≤ off') (file : List UInt8) :
    window (writeRecord f off file) off' n = window file off' n := by
  have hname := f.nameField_length
  have hver := f.ver_length
  rw [recordSize] at h
  rw [writeRecord, window_writeAt_of_disjoint (by omega), window_writeAt_of_disjoint (by omega)]

theorem slots_writeRecord (f : TCfgFile) (i : ℕ) (file : List UInt8) :
    slots (writeRecord f (i * recordSize) file) =
      (slots file).put i f.targetName f.cFileVer := by
  have hself := slot_record (window_writeRecord f (i * recordSize) file)
  have hother : ∀ j ≠ i, window (writeRecord f (i * recordSize) file) (j * recordSize) recordSize =
      window file (j * recordSize) recordSize := by
    intro j hj
    apply window_writeRecord_of_disjoint
    rw [← Nat.succ_mul, ← Nat.succ_mul]
    rcases Nat.lt_or_gt_of_ne hj with hlt | hgt
    · exact Or.inl (Nat.mul_le_mul_right _ hlt)
    · exact Or.inr (Nat.mul_le_mul_right _ hgt)
  apply Directory.ext_slots
  · intro j
    by_cases hj : j = i
    · subst hj
      exact hself.1.trans (Directory.name_put_at ..).symm
    · rw [Directory.name_put_of_ne _ _ _ hj]
      exact (slot_congr (hother j hj)).1
  · intro j
    by_cases hj : j = i
    · subst hj
      exact hself.2.trans (Directory.value_put_at ..).symm
    · rw [Directory.value_put_of_ne _ _ _ hj]
      exact (slot_congr (hother j hj)).2
  · have hcount : ((i + 1) * recordSize) / recordSize = i + 1 := Nat.mul_div_cancel _ (by decide)
    simp only [slots, Directory.put, length_writeRecord, ← Nat.succ_mul]
    rw [← hcount]
    rcases Nat.le_total file.length ((i + 1) * recordSize) with hle | hle
    · rw [Nat.max_eq_right hle, Nat.max_eq_right (Nat.div_le_div_right hle)]
    · rw [Nat.max_eq_left hle, Nat.max_eq_left (Nat.div_le_div_right hle)]

theorem slots_insert (f : TCfgFile) {i : ℕ} {file : List UInt8} (h : i * recordSize ≤ file.length) :
    slots (file.take (i * recordSize) ++ f.verRecord.val ++ file.drop (i * recordSize)) =
      (slots file).insert i f.targetName f.cFileVer := by
  have hlen : f.verRecord.val.length = recordSize := f.verRecord.property
  have hwhole : 0 + recordSize ≤ f.verRecord.val.length := by rw [hlen, Nat.zero_add]
  have hat := window_insert_at h f.verRecord.val hwhole
  rw [Nat.add_zero, readAt_all hlen.le] at hat
  have hself := slot_record hat
  have hbefore : ∀ j < i, window (file.take (i * recordSize) ++ f.verRecord.val ++
      file.drop (i * recordSize)) (j * recordSize) recordSize =
        window file (j * recordSize) recordSize := by
    intro j hj
    apply window_insert_before h
    rw [← Nat.succ_mul]
    exact Nat.mul_le_mul_right _ hj
  have hbehind : ∀ j, i < j → window (file.take (i * recordSize) ++ f.verRecord.val ++
      file.drop (i * recordSize)) (j * recordSize) recordSize =
        window file ((j - 1) * recordSize) recordSize := by
    intro j hj
    obtain ⟨k, rfl⟩ := Nat.exists_eq_add_of_lt hj
    have hk := window_insert_behind h f.verRecord.val (n := recordSize)
      (show i * recordSize ≤ (i + k) * recordSize from
        Nat.mul_le_mul_right _ (Nat.le_add_right i k))
    rw [hlen, ← Nat.succ_mul] at hk
    rw [Nat.add_sub_cancel]
    exact hk
  apply Directory.ext_slots
  · intro j
    rcases lt_trichotomy j i with hlt | rfl | hgt
    · rw [Directory.name_insert_before _ _ _ hlt]
      exact (slot_congr (hbefore j hlt)).1
    · rw [Directory.name_insert_at]
      exact hself.1
    · rw [Directory.name_insert_behind _ _ _ hgt]
      exact (slot_congr (hbehind j hgt)).1
  · intro j
    rcases lt_trichotomy j i with hlt | rfl | hgt
    · rw [Directory.value_insert_before _ _ _ hlt]
      exact (slot_congr (hbefore j hlt)).2
    · rw [Directory.value_insert_at]
      exact hself.2
    · rw [Directory.value_insert_behind _ _ _ hgt]
      exact (slot_congr (hbehind j hgt)).2
  · simp only [slots, Directory.insert, List.length_append, List.length_take, List.length_drop,
      hlen]
    rw [show min (i * recordSize) file.length + recordSize + (file.length - i * recordSize) =
      file.length + recordSize by omega, Nat.add_div_right _ (by decide)]

end Nvram
