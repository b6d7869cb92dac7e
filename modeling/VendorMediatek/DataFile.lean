import VendorMediatek.VersionFile

/-!
# Data files and their check bytes

The content of the file of a lid: a payload, then the check flag 0xAA and the check
number that `NVM_ComputeCheckNo` computes over the payload.
-/

namespace Nvram

open ByteFile RecordFile

/-- One turn of the loop, with the check number and the flag that picks the operation. -/
def checkStep (acc : UInt8 × Bool) (buf : UInt8) : UInt8 × Bool :=
  if acc.2 then (acc.1 ^^^ buf, false) else (acc.1 + buf, true)

def nvmComputeCheckNo (isOldFile : Bool) (file : List UInt8) : UInt8 :=
  ((if isOldFile then file.take (file.length - 2) else file).foldl checkStep (0, false)).1

def cFlagValue : UInt8 := 0xAA

/-- Two writes of a byte each, at the end or over the last two bytes. -/
def nvmSetCheckNo (isOldFile : Bool) (file : List UInt8) : List UInt8 :=
  writeAt file (if isOldFile then file.length - 2 else file.length)
    [cFlagValue, nvmComputeCheckNo isOldFile file]

/-- On a file of less than two bytes the seek to the check bytes fails. -/
def nvmCheckFile (file : List UInt8) : Bool :=
  2 ≤ file.length ∧ readAt file (file.length - 2) 2 = [cFlagValue, nvmComputeCheckNo true file]

/-- The size of the content without check bytes, for each default type. -/
def TCfgFile.contentSize (f : TCfgFile) : ℕ :=
  match f.stDefualType with
  | .defaultZero | .defaultFF | .signleDefualtRec => f.i4RecNum * f.i4RecSize
  | .multipleDefualtRec => f.i4RecNum * f.i4RecNum * f.i4RecSize

def nvmCheckFileSize (f : TCfgFile) (file : List UInt8) : ℤ :=
  if f.contentSize = file.length then 0
  else if f.contentSize + 2 = file.length then 1
  else -1

/-- What NVM_ResetFileToDefault writes, none where it rejects the table entry. -/
def TCfgFile.defaultContent (f : TCfgFile) : Option (List UInt8) :=
  match f.stDefualType with
  | .defaultZero => some (List.replicate (f.i4RecSize * f.i4RecNum) 0)
  | .defaultFF => some (List.replicate (f.i4RecSize * f.i4RecNum) 0xFF)
  | .signleDefualtRec => f.pDefualtVaule.map Subtype.val
  | .multipleDefualtRec =>
    match f.pDefualtVaule with
    | none => none
    | some value =>
      if f.i4RecNum < 2 then none else some (List.replicate f.i4RecNum value.val).flatten

/-! ## Sealed files -/

/-- A payload with the check bytes that belong to it. -/
def sealPayload (payload : List UInt8) : List UInt8 :=
  payload ++ [cFlagValue, nvmComputeCheckNo false payload]

@[simp] theorem length_sealPayload (payload : List UInt8) :
    (sealPayload payload).length = payload.length + 2 := by
  simp [sealPayload]

theorem sealPayload_take (payload : List UInt8) :
    (sealPayload payload).take payload.length = payload := by
  simp [sealPayload]

theorem nvmComputeCheckNo_old (payload : List UInt8) {rest : List UInt8} (h : rest.length = 2) :
    nvmComputeCheckNo true (payload ++ rest) = nvmComputeCheckNo false payload := by
  have htake : (payload ++ rest).take ((payload ++ rest).length - 2) = payload := by
    rw [List.length_append, h, Nat.add_sub_cancel, List.take_left']
    rfl
  simp only [nvmComputeCheckNo, htake, if_true, Bool.false_eq_true, if_false]

theorem nvmSetCheckNo_new (payload : List UInt8) :
    nvmSetCheckNo false payload = sealPayload payload := by
  rw [nvmSetCheckNo, if_neg Bool.false_ne_true, writeAt_length, sealPayload]

theorem nvmSetCheckNo_old (payload : List UInt8) {rest : List UInt8} (h : rest.length = 2) :
    nvmSetCheckNo true (payload ++ rest) = sealPayload payload := by
  have hoff : (payload ++ rest).length - 2 = payload.length := by
    rw [List.length_append, h, Nat.add_sub_cancel]
  rw [nvmSetCheckNo, nvmComputeCheckNo_old payload h, if_pos rfl, hoff, writeAt_of_le (by simp)]
  simp [sealPayload, h]

/-- A file passes the check just when its last two bytes are those that belong to the rest. -/
theorem nvmCheckFile_iff (file : List UInt8) :
    nvmCheckFile file = true ↔ ∃ payload, file = sealPayload payload := by
  rw [nvmCheckFile, decide_eq_true_iff]
  constructor
  · rintro ⟨hlen, hread⟩
    refine ⟨file.take (file.length - 2), ?_⟩
    have hrest : (file.drop (file.length - 2)).length = 2 := by
      rw [List.length_drop]
      omega
    have hread' : file.drop (file.length - 2) = [cFlagValue, nvmComputeCheckNo true file] := by
      rw [← hread, readAt, List.take_of_length_le hrest.le]
    have hno := nvmComputeCheckNo_old (file.take (file.length - 2)) hrest
    rw [List.take_append_drop] at hno
    rw [sealPayload, ← hno, ← hread', List.take_append_drop]
  · rintro ⟨payload, rfl⟩
    have hno : nvmComputeCheckNo true (sealPayload payload) = nvmComputeCheckNo false payload :=
      nvmComputeCheckNo_old payload rfl
    refine ⟨by simp, ?_⟩
    rw [hno, length_sealPayload, Nat.add_sub_cancel, readAt, sealPayload, List.drop_left' rfl]
    rfl

theorem nvmCheckFile_sealPayload (payload : List UInt8) : nvmCheckFile (sealPayload payload) = true :=
  (nvmCheckFile_iff _).mpr ⟨payload, rfl⟩

example : nvmSetCheckNo false [0x31, 0x41, 0x59] = [0x31, 0x41, 0x59, 0xAA, 0xC9] := by decide

/-! ## Sizes -/

theorem nvmCheckFileSize_eq_one {f : TCfgFile} {file : List UInt8} :
    nvmCheckFileSize f file = 1 ↔ file.length = f.contentSize + 2 := by
  unfold nvmCheckFileSize
  split
  · simp
    omega
  · split <;> simp <;> omega

theorem nvmCheckFileSize_eq_zero {f : TCfgFile} {file : List UInt8} :
    nvmCheckFileSize f file = 0 ↔ file.length = f.contentSize := by
  unfold nvmCheckFileSize
  split
  · simp
    omega
  · split <;> simp <;> omega

theorem nvmCheckFileSize_cases (f : TCfgFile) (file : List UInt8) :
    nvmCheckFileSize f file = 0 ∨ nvmCheckFileSize f file = 1 ∨ nvmCheckFileSize f file = -1 := by
  unfold nvmCheckFileSize
  split
  · exact Or.inl rfl
  · split
    · exact Or.inr (Or.inl rfl)
    · exact Or.inr (Or.inr rfl)

/-- Setting the check number of a file of either size seals its payload. -/
theorem nvmSetCheckNo_seals {f : TCfgFile} {file : List UInt8} (h : nvmCheckFileSize f file ≠ -1) :
    nvmSetCheckNo (nvmCheckFileSize f file ≠ 0) file =
        sealPayload (file.take f.contentSize) ∧
      (file.take f.contentSize).length = f.contentSize := by
  rcases nvmCheckFileSize_cases f file with hsize | hsize | hsize
  · have hlen := nvmCheckFileSize_eq_zero.mp hsize
    rw [← hlen, List.take_length, hsize]
    exact ⟨nvmSetCheckNo_new file, rfl⟩
  · have hlen := nvmCheckFileSize_eq_one.mp hsize
    have hrest : (file.drop f.contentSize).length = 2 := by
      rw [List.length_drop, hlen]
      omega
    have hold := nvmSetCheckNo_old (file.take f.contentSize) hrest
    rw [List.take_append_drop] at hold
    rw [hsize]
    exact ⟨hold, by rw [List.length_take, hlen]; omega⟩
  · exact absurd hsize h

theorem eq_sealPayload {f : TCfgFile} {file : List UInt8} (hsize : nvmCheckFileSize f file = 1)
    (hcheck : nvmCheckFile file = true) : file = sealPayload (file.take f.contentSize) := by
  obtain ⟨payload, rfl⟩ := (nvmCheckFile_iff file).mp hcheck
  have hlen := nvmCheckFileSize_eq_one.mp hsize
  rw [length_sealPayload] at hlen
  rw [show f.contentSize = payload.length by omega, sealPayload_take]

theorem contentSize_of_ne {f : TCfgFile} (h : f.stDefualType ≠ .multipleDefualtRec) :
    f.contentSize = f.i4RecSize * f.i4RecNum := by
  unfold TCfgFile.contentSize
  cases ht : f.stDefualType with
  | multipleDefualtRec => exact absurd ht h
  | signleDefualtRec => exact Nat.mul_comm ..
  | defaultZero => exact Nat.mul_comm ..
  | defaultFF => exact Nat.mul_comm ..

theorem length_defaultContent {f : TCfgFile} {content : List UInt8}
    (h : f.defaultContent = some content) : content.length = f.contentSize := by
  unfold TCfgFile.defaultContent at h
  unfold TCfgFile.contentSize
  cases ht : f.stDefualType with
  | defaultZero =>
    simp only [ht, Option.some_inj] at h
    rw [← h, List.length_replicate, Nat.mul_comm]
  | defaultFF =>
    simp only [ht, Option.some_inj] at h
    rw [← h, List.length_replicate, Nat.mul_comm]
  | signleDefualtRec =>
    simp only [ht, Option.map_eq_some_iff] at h
    obtain ⟨value, _, rfl⟩ := h
    rw [value.property, Nat.mul_comm]
  | multipleDefualtRec =>
    simp only [ht] at h
    split at h
    · cases h
    · rename_i value _
      split at h
      · cases h
      · cases h
        simp [List.length_flatten, value.property]
        ring

end Nvram
