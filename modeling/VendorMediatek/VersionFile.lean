import VendorMediatek.NvramTable

/-!
# The version file

`NVM_UpdateFileVerNo`, `NVM_CmpFileVerNo` and `NVM_GenerateFileVer` on the content of the version
file. In the new format it holds a header and then a record for each lid, in the old
format a version for each lid. The system calls succeed in full and sizes fit an int.
-/

namespace Nvram

open ByteFile RecordFile

def recordSize : ℕ := fileNameLength + fileVerLength

/-- "NVRAM_VER_INFO" -/
def strVerInfo : List UInt8 := [78, 86, 82, 65, 77, 95, 86, 69, 82, 95, 73, 78, 70, 79]

inductive VerInfoUpdateFlag where
  | verAdd | verDel | verUpdate
  deriving DecidableEq, Repr

/-- The name that a read of FILENAMELENGTH-1 bytes finds at an offset. -/
def nameAt (file : List UInt8) (offset : ℕ) : List UInt8 :=
  cString (readAt file offset (fileNameLength - 1))

def bIsNewVerInfo (file : List UInt8) : Bool := nameAt file 0 = strVerInfo

/-- The search loop: the first record slot with the name. -/
def findTarget (file : List UInt8) (name : List UInt8) : Option ℕ :=
  (List.range (file.length / recordSize)).find? fun i => nameAt file (i * recordSize) = name

/-- Two calls of pwrite. -/
def writeRecord (f : TCfgFile) (offset : ℕ) (file : List UInt8) : List UInt8 :=
  writeAt (writeAt file offset f.nameField) (offset + fileNameLength) f.cFileVer

/-- In the old format the offset is that of the lid, but FILENAMELENGTH is added to it all the same. -/
def verUpdateInPlace (f : TCfgFile) (lid idx : ℕ) (file : List UInt8) : List UInt8 :=
  if bIsNewVerInfo file then writeRecord f (idx * recordSize) file
  else writeAt file (lid * fileVerLength + fileNameLength) f.cFileVer

def verAdd (f : TCfgFile) (lid : ℕ) (file : List UInt8) : List UInt8 :=
  if bIsNewVerInfo file then
    let offset := (lid + 1) * recordSize
    if file.length ≤ offset then writeRecord f offset file
    else file.take offset ++ f.nameField ++ f.cFileVer ++ file.drop offset
  else
    let offset := lid * fileVerLength
    if file.length ≤ offset then writeAt file (offset + fileNameLength) f.cFileVer
    else file.take offset ++ f.cFileVer ++ file.drop offset

/-- none where the length of the last memcpy is negative: the behaviour is undefined there. -/
def verDel (lid : ℕ) (file : List UInt8) : Option (Bool × List UInt8) :=
  let size := if bIsNewVerInfo file then recordSize else fileVerLength
  let offset := if bIsNewVerInfo file then (lid + 1) * recordSize else lid * fileVerLength
  if file.length < size then some (false, file)
  else if offset + size ≤ file.length then
    some (true, file.take offset ++ file.drop (offset + size))
  else none

def nvmUpdateFileVerNo (t : Tables) (lid : ℕ) (flag : VerInfoUpdateFlag) (file : List UInt8) :
    Option (Bool × List UInt8) :=
  match flag with
  | .verUpdate =>
    match t.cfgFile lid with
    | none => some (false, file)
    | some f =>
      match findTarget file f.targetName with
      | some idx => some (true, verUpdateInPlace f lid idx file)
      | none => some (true, verAdd f lid file)
  | .verDel => verDel lid file
  | .verAdd =>
    match t.cfgFile lid with
    | none => none
    | some f => some (true, verAdd f lid file)

/-- The buffer cFbyte is cleared before the read. -/
def cFbyte (file : List UInt8) (offset : ℕ) : List UInt8 :=
  zeroPad fileVerLength (readAt file offset fileVerLength)

/-- The version that NVM_CmpFileVerNo compares with the table's, none where it finds no record. -/
def recordedVer (f : TCfgFile) (lid : ℕ) (file : List UInt8) : Option (List UInt8) :=
  if bIsNewVerInfo file then
    if nameAt file ((lid + 1) * recordSize) = f.targetName then
      some (cFbyte file ((lid + 1) * recordSize + fileNameLength))
    else (findTarget file f.targetName).map fun i => cFbyte file (i * recordSize + fileNameLength)
  else some (cFbyte file (lid * fileVerLength))

def nvmCmpFileVerNo (t : Tables) (lid : ℕ) (file : List UInt8) : Bool :=
  match t.cfgFile lid with
  | none => false
  | some f => slash ∈ f.cFileName ∧ recordedVer f lid file = some f.cFileVer

/-! ## Files of records -/

/-- The record at the head of a file in the new format. -/
def IsHeader (h : VerRecord) : Prop := cString (h.val.take (fileNameLength - 1)) = strVerInfo

theorem nameAt_encode (rs : List VerRecord) {i : ℕ} (hi : i < rs.length) :
    nameAt (encode rs) (i * recordSize) = cString (rs[i].val.take (fileNameLength - 1)) := by
  have hr := readAt_encode rs hi
  rw [readAt] at hr
  rw [nameAt, readAt, ← hr, List.take_take]
  rfl

theorem bIsNewVerInfo_encode {h : VerRecord} (hh : IsHeader h) (rs : List VerRecord) :
    bIsNewVerInfo (encode (h :: rs)) = true := by
  have hn := nameAt_encode (h :: rs) (Nat.zero_lt_succ rs.length)
  rw [Nat.zero_mul] at hn
  exact decide_eq_true (hn.trans hh)

theorem writeRecord_length (f : TCfgFile) (file : List UInt8) :
    writeRecord f file.length file = file ++ f.verRecord.val := by
  have hlen : (file ++ f.nameField).length = file.length + fileNameLength := by
    rw [List.length_append, f.nameField_length]
  rw [writeRecord, writeAt_length, ← hlen, writeAt_length, List.append_assoc]
  rfl

/-- On a file of records VerAdd is the insertion of the lid's record behind the header. -/
theorem verAdd_encode {h : VerRecord} (hh : IsHeader h) (rs : List VerRecord) (f : TCfgFile)
    {lid : ℕ} (hl : lid ≤ rs.length) :
    verAdd f lid (encode (h :: rs)) =
      encode (h :: (rs.take lid ++ f.verRecord :: rs.drop lid)) := by
  have hlen : (encode (h :: rs)).length = (rs.length + 1) * recordSize := length_encode _
  simp only [verAdd, bIsNewVerInfo_encode hh rs, if_true]
  split
  · rename_i hend
    have hlast : lid = rs.length := by
      rw [hlen] at hend
      have := Nat.le_of_mul_le_mul_right hend (by decide)
      omega
    rw [hlast, ← hlen, writeRecord_length, List.take_length, List.drop_length, encode_cons,
      encode_cons, encode_append, encode_cons, encode_nil, List.append_nil, List.append_assoc]
  · rw [List.append_assoc _ f.nameField]
    exact encode_insert (h :: rs) (lid + 1) f.verRecord

theorem verDel_encode {h : VerRecord} (hh : IsHeader h) (rs : List VerRecord) (lid : ℕ) :
    verDel lid (encode (h :: rs)) =
      if lid < rs.length then some (true, encode (h :: rs.eraseIdx lid)) else none := by
  have hlen : (encode (h :: rs)).length = (rs.length + 1) * recordSize := length_encode _
  have hfit : (lid + 1) * recordSize + recordSize ≤ (rs.length + 1) * recordSize ↔
      lid < rs.length := by
    rw [← Nat.succ_mul, Nat.mul_le_mul_right_iff (by decide)]
    omega
  have hsize : ¬ (rs.length + 1) * recordSize < recordSize := by
    rw [Nat.succ_mul]
    omega
  simp only [verDel, bIsNewVerInfo_encode hh rs, if_true, hlen, hfit, hsize, if_false]
  split
  · rw [show (encode (h :: rs)).take ((lid + 1) * recordSize) ++
        (encode (h :: rs)).drop ((lid + 1) * recordSize + recordSize) =
          encode ((h :: rs).eraseIdx (lid + 1)) from encode_erase (h :: rs) (lid + 1)]
    rfl
  · rfl

end Nvram
