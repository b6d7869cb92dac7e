import VendorMediatek.CheckNo
import VendorMediatek.ProtectedSize

/-!
# A reset whose writes fall short

`NVM_ResetFileToDefault` on the data file of a lid that is neither the version file nor a
performance lid, with the outcome of every write to that file. The results of the writes of the
content are not looked at, and neither is that of the version update.
-/

namespace ResetWrites

open Nvram

/-- The buffers that are written in turn, none where the entry is rejected. -/
def defaultWrites (f : TCfgFile) : Option (List (List UInt8)) :=
  match f.stDefualType with
  | .defaultZero => some [List.replicate (f.i4RecSize * f.i4RecNum) 0]
  | .defaultFF => some [List.replicate (f.i4RecSize * f.i4RecNum) 0xFF]
  | .signleDefualtRec => f.pDefualtVaule.map fun value => [value.val]
  | .multipleDefualtRec =>
    match f.pDefualtVaule with
    | none => none
    | some value => if f.i4RecNum < 2 then none else some (List.replicate f.i4RecNum value.val)

/-- Whether the version file exists or can be generated, how many bytes arrive of each write of the
content, none of a failed one, and whether the two writes of the check bytes succeed. -/
structure ResetCalls where
  verFile : Bool
  arrives : ℕ → ℕ
  writesFlag : Bool
  writesNo : Bool

/-- Every write goes to where the one before it has ended. -/
def writeDefaults (arrives : ℕ → ℕ) : ℕ → List (List UInt8) → List UInt8 → List UInt8
  | _, [], file => file
  | i, databuf :: bufs, file =>
    writeDefaults arrives (i + 1) bufs (file ++ databuf.take (arrives i))

/-- The result and the data file afterwards. -/
def nvmResetFileToDefault (signed : Bool) (calls : ResetCalls) (f : TCfgFile)
    (file : Option (List UInt8)) : Bool × Option (List UInt8) :=
  if !calls.verFile then (false, file)
  else
    match defaultWrites f with
    | none => (false, some [])
    | some bufs =>
      CheckNo.nvmSetCheckNo signed false ⟨.ok, true, true, calls.writesFlag, calls.writesNo⟩
        (some (writeDefaults calls.arrives 0 bufs []))

/-- No write falls short. -/
def AllArrive (arrives : ℕ → ℕ) : ℕ → List (List UInt8) → Prop
  | _, [] => True
  | i, databuf :: bufs => databuf.length ≤ arrives i ∧ AllArrive arrives (i + 1) bufs

theorem defaultWrites_flatten (f : TCfgFile) :
    (defaultWrites f).map List.flatten = f.defaultContent := by
  unfold defaultWrites TCfgFile.defaultContent
  cases f.stDefualType with
  | defaultZero => simp
  | defaultFF => simp
  | signleDefualtRec => cases f.pDefualtVaule <;> simp
  | multipleDefualtRec =>
    cases f.pDefualtVaule with
    | none => rfl
    | some value =>
      by_cases hfew : f.i4RecNum < 2
      · simp [hfew]
      · simp [hfew]

theorem length_writeDefaults (arrives : ℕ → ℕ) (i : ℕ) (bufs : List (List UInt8))
    (file : List UInt8) :
    (writeDefaults arrives i bufs file).length ≤ file.length + bufs.flatten.length := by
  induction bufs generalizing i file with
  | nil => exact le_rfl
  | cons databuf bufs ih =>
    have hrest := ih (i + 1) (file ++ databuf.take (arrives i))
    rw [List.length_append, List.length_take] at hrest
    rw [writeDefaults, List.flatten_cons, List.length_append]
    omega

/-- The content is that of the buffers just where all their bytes arrive. -/
theorem writeDefaults_eq_iff (arrives : ℕ → ℕ) (i : ℕ) (bufs : List (List UInt8))
    (file : List UInt8) :
    writeDefaults arrives i bufs file = file ++ bufs.flatten ↔ AllArrive arrives i bufs := by
  induction bufs generalizing i file with
  | nil => simp [writeDefaults, AllArrive]
  | cons databuf bufs ih =>
    rw [writeDefaults, List.flatten_cons, ← List.append_assoc, AllArrive]
    by_cases hfull : databuf.length ≤ arrives i
    · rw [List.take_of_length_le hfull, ih]
      simp [hfull]
    · refine iff_of_false (fun heq => ?_) (fun h => hfull h.1)
      have hlen := length_writeDefaults arrives (i + 1) bufs (file ++ databuf.take (arrives i))
      rw [heq] at hlen
      simp only [List.length_append, List.length_take] at hlen
      omega

theorem setCheckNo_writes (signed : Bool) (writesFlag writesNo : Bool) (payload : List UInt8) :
    (CheckNo.nvmSetCheckNo signed false ⟨.ok, true, true, writesFlag, writesNo⟩ (some payload)).1 =
        (writesFlag && writesNo) ∧
      (writesFlag = true → writesNo = true →
        CheckNo.nvmSetCheckNo signed false ⟨.ok, true, true, writesFlag, writesNo⟩ (some payload) =
          (true, some (payload ++ CheckNo.trailer payload))) := by
  constructor
  · have hflag : ¬ CheckNo.promote signed 0 = 0xFF := by
      rw [CheckNo.promote_zero]
      decide
    simp only [CheckNo.nvmSetCheckNo, CheckNo.nvmComputeCheckNo_new, hflag, if_false]
    cases writesFlag <;> cases writesNo <;> rfl
  · rintro rfl rfl
    exact CheckNo.nvmSetCheckNo_new signed payload

/-- Where the reset returns true the file is the sealed default. -/
def ResetExact (signed : Bool) (calls : ResetCalls) (f : TCfgFile) (file : Option (List UInt8)) :
    Prop :=
  (nvmResetFileToDefault signed calls f file).1 = true →
    ∃ content, f.defaultContent = some content ∧
      (nvmResetFileToDefault signed calls f file).2 =
        some (content ++ [cFlagValue, CheckNo.ck content])

theorem resetExact_iff (signed : Bool) (calls : ResetCalls) (f : TCfgFile)
    (file : Option (List UInt8)) :
    ResetExact signed calls f file ↔
      (calls.verFile = true → calls.writesFlag = true → calls.writesNo = true →
        ∀ bufs, defaultWrites f = some bufs → AllArrive calls.arrives 0 bufs ∧
          CheckNo.ck (bufs.flatten.take (bufs.flatten.length % 4294967296)) =
            CheckNo.ck bufs.flatten) := by
  rw [ResetExact, ← defaultWrites_flatten]
  obtain ⟨verFile, arrives, writesFlag, writesNo⟩ := calls
  cases verFile with
  | false => simp [nvmResetFileToDefault]
  | true =>
    cases hbufs : defaultWrites f with
    | none => simp [nvmResetFileToDefault, hbufs]
    | some bufs =>
      obtain ⟨hdone, hsealed⟩ := setCheckNo_writes signed writesFlag writesNo
        (writeDefaults arrives 0 bufs [])
      simp only [nvmResetFileToDefault, hbufs, Bool.not_true, Bool.false_eq_true, if_false, hdone,
        Bool.and_eq_true, Option.map_some, Option.some_inj, exists_eq_left', forall_const,
        and_imp]
      refine forall_congr' fun hflag => forall_congr' fun hno => ?_
      rw [hsealed hflag hno, Option.some_inj]
      have hwritten := writeDefaults_eq_iff arrives 0 bufs []
      rw [List.nil_append] at hwritten
      constructor
      · rintro heq _ rfl
        obtain ⟨hcontent, htrailer⟩ := List.append_inj' heq rfl
        rw [hcontent] at htrailer
        injection htrailer with _ hno
        injection hno with hno
        exact ⟨hwritten.mp hcontent, hno⟩
      · intro h
        obtain ⟨harrive, hck⟩ := h bufs rfl
        rw [hwritten.mpr harrive, CheckNo.trailer, hck]

/-- The byte of the content does not arrive, and the reset succeeds. -/
theorem short_write_sealed :
    nvmResetFileToDefault false ⟨true, fun _ => 0, true, true⟩ (smallFile 66 (by decide)) none =
        (true, some [0xAA, 0]) ∧
      ¬ ∀ (signed : Bool) (calls : ResetCalls) (f : TCfgFile) (file : Option (List UInt8)),
        ResetExact signed calls f file := by
  have hreset : nvmResetFileToDefault false ⟨true, fun _ => 0, true, true⟩
      (smallFile 66 (by decide)) none = (true, some [0xAA, 0]) := by decide
  refine ⟨hreset, fun h => ?_⟩
  obtain ⟨content, hcontent, hfile⟩ := h false ⟨true, fun _ => 0, true, true⟩
    (smallFile 66 (by decide)) none (by rw [hreset])
  rw [hreset] at hfile
  cases hcontent
  revert hfile
  decide

theorem nvmResetFileToDefault_eq {p : Platform} {lid : ℕ} {f : TCfgFile}
    (hlid : lid ≠ iFileVerInfoLid) (hf : p.tables.cfgFile lid = some f)
    (hperf : lid ∉ p.aPerformance) (hsize : f.contentSize < 4294967296) (signed : Bool)
    {calls : ResetCalls} (hver : calls.verFile = true) (hflag : calls.writesFlag = true)
    (hno : calls.writesNo = true)
    (harrive : ∀ bufs, defaultWrites f = some bufs → AllArrive calls.arrives 0 bufs) (d : Disk) :
    nvmResetFileToDefault signed calls f (d lid) =
      ((Nvram.nvmResetFileToDefault p lid d).1, (Nvram.nvmResetFileToDefault p lid d).2 lid) := by
  have hdefault := defaultWrites_flatten f
  cases hbufs : defaultWrites f with
  | none =>
    rw [hbufs] at hdefault
    simp only [nvmResetFileToDefault, Nvram.nvmResetFileToDefault, hver, hbufs, hf, hlid,
      ← hdefault, Option.map_none, Bool.not_true, Bool.false_eq_true, if_false,
      Function.update_self]
  | some bufs =>
    rw [hbufs, Option.map_some] at hdefault
    have hlen := length_defaultContent hdefault.symm
    have hwritten := (writeDefaults_eq_iff calls.arrives 0 bufs []).mpr (harrive bufs hbufs)
    obtain ⟨hdone, hfile⟩ := nvmResetFileToDefault_default hlid hf hperf d
    rw [hfile _ hdefault.symm, hdone.mpr (by rw [← hdefault]; rfl)]
    simp only [nvmResetFileToDefault, hver, hbufs, Bool.not_true, Bool.false_eq_true, if_false]
    rw [(setCheckNo_writes signed _ _ _).2 hflag hno, hwritten, List.nil_append,
      CheckNo.append_trailer (by omega)]

end ResetWrites
