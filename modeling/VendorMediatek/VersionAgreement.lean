import VendorMediatek.VersionUpdate

/-!
# Does an update hold, and does it leave the other lids alone

`NVM_CmpFileVerNo` behind `NVM_UpdateFileVerNo`: when the lid that was updated compares equal, and
when every other lid still reads the version it read before.
-/

namespace Nvram

open ByteFile SlotDirectory

/-! ## The updated lid -/

/-- In the new format the slot of the lid and the first slot with its name must not be two slots
with different versions. In the old format room must be made for the version, or it is there
already; and a header made up by it must lead to the same version. -/
def UpdateAgrees (f : TCfgFile) (lid : ℕ) (file : List UInt8) : Prop :=
  if bIsNewVerInfo file then
    ∀ idx ∈ findTarget file f.targetName,
      nameAt file ((lid + 1) * recordSize) = f.targetName →
        lid + 1 = idx ∨ cFbyte file ((lid + 1) * recordSize + fileNameLength) = f.cFileVer
  else if findTarget file f.targetName = none ∧ lid * fileVerLength < file.length then
    CompletesHeader f lid file → shiftedVer f lid file = some f.cFileVer
  else cFbyte file (lid * fileVerLength) = f.cFileVer

instance (f : TCfgFile) (lid : ℕ) (file : List UInt8) : Decidable (UpdateAgrees f lid file) := by
  unfold UpdateAgrees
  infer_instance

variable {f : TCfgFile} {lid : ℕ} {file : List UInt8}

theorem agrees_new (hnew : bIsNewVerInfo file = true) :
    recordedVer f lid (updated f lid file) = some f.cFileVer ↔ UpdateAgrees f lid file := by
  rw [UpdateAgrees, if_pos hnew]
  cases hidx : findTarget file f.targetName with
  | none =>
    simp only [Option.mem_def, reduceCtorEq, false_implies, implies_true, iff_true]
    by_cases hend : file.length ≤ (lid + 1) * recordSize
    · rw [recordedVer_appended hnew f lid hidx hend]
      exact Directory.lookup_put_at _ _
    · rw [recordedVer_inserted hnew f lid hidx hend]
      exact Directory.lookup_insert_at _ _
  | some idx =>
    rw [recordedVer_overwritten hnew f lid hidx,
      Directory.lookup_put_found_same (d := slots file) hidx f.cFileVer]
    constructor
    · intro h idx' hidx' hname
      cases hidx'
      by_cases heq : lid + 1 = idx
      · exact Or.inl heq
      · rw [if_pos ⟨hname, heq⟩] at h
        exact Or.inr (Option.some.inj h)
    · intro h
      split
      · rename_i hsecond
        rcases h idx rfl hsecond.1 with heq | hver
        · exact absurd heq hsecond.2
        · exact congrArg some hver
      · rfl

theorem agrees_old (hold : bIsNewVerInfo file = false) :
    recordedVer f lid (updated f lid file) = some f.cFileVer ↔ UpdateAgrees f lid file := by
  rw [UpdateAgrees, if_neg (by simp [hold])]
  by_cases h : WritesBehind f lid file
  · rw [if_neg (fun hc => absurd (h hc.1) (Nat.not_le_of_lt hc.2)), recordedVer_written hold h,
      cFbyte_written, if_neg (by omega), if_neg (by omega), Option.some_inj]
  · have hroom : findTarget file f.targetName = none ∧ lid * fileVerLength < file.length := by
      simpa only [WritesBehind, Classical.not_imp, Nat.not_le] using h
    rw [if_pos hroom]
    by_cases hc : CompletesHeader f lid file
    · simp only [recordedVer_completed hold h hc, hc, true_implies]
    · rw [recordedVer_old_inserted hold h hc, cFbyte_inserted hroom.2.le]
      simp [hc]

/-- When the version compares equal after an update. -/
theorem update_agrees_iff {t : Tables} (hf : t.cfgFile lid = some f) (hs : slash ∈ f.cFileName)
    (file : List UInt8) :
    (∀ file', nvmUpdateFileVerNo t lid .verUpdate file = some (true, file') →
        nvmCmpFileVerNo t lid file' = true) ↔ UpdateAgrees f lid file := by
  have hagrees : recordedVer f lid (updated f lid file) = some f.cFileVer ↔
      UpdateAgrees f lid file := by
    cases hb : bIsNewVerInfo file with
    | true => exact agrees_new hb
    | false => exact agrees_old hb
  rw [nvmUpdateFileVerNo_verUpdate hf, ← hagrees, ← nvmCmpFileVerNo_iff hf hs]
  constructor
  · intro h
    exact h _ rfl
  · rintro h _ ⟨⟩
    exact h

/-- The version file of one lid in the old format, before the second lid is added. -/
theorem update_agrees_second_name :
    UpdateAgrees (smallFile 66 (by decide)) 1 [48, 48, 49, 0, 48, 48, 48, 0] ∧
      ∀ file', nvmUpdateFileVerNo smallTables 1 .verUpdate [48, 48, 49, 0, 48, 48, 48, 0] =
        some (true, file') → nvmCmpFileVerNo smallTables 1 file' = true :=
  ⟨by decide,
    (update_agrees_iff (f := smallFile 66 (by decide)) rfl (by decide) _).mpr (by decide)⟩

/-- In the old format a version added at the end is written 70 bytes too far. -/
theorem appended_version_misses : ¬ ∀ (t : Tables) (lid : ℕ) (f : TCfgFile) (file : List UInt8),
    lid ≠ 0 → t.cfgFile lid = some f → slash ∈ f.cFileName →
      ∀ file', nvmUpdateFileVerNo t lid .verUpdate file = some (true, file') →
        nvmCmpFileVerNo t lid file' = true := by
  intro h
  have hcmp := h smallTables 1 (smallFile 66 (by decide)) [48, 48, 49, 0] (by decide) rfl
    (by decide) _ rfl
  revert hcmp
  decide

/-! ## The other lids -/

/-- What another lid reads survives the update. In the new format an overwritten slot matters to
lids with the same name that read it, a slot behind the end to lids that had no record, and a slot
put in to lids with the same name and to those whose own slot moves. In the old format
all lids behind an insertion move, and a write that makes no room goes to two other lids. -/
def LeavesVersion (f : TCfgFile) (lid : ℕ) (g : TCfgFile) (lid' : ℕ) (file : List UInt8) : Prop :=
  if bIsNewVerInfo file then
    match findTarget file f.targetName with
    | some idx =>
      cFbyte file (idx * recordSize + fileNameLength) = f.cFileVer ∨
        (g.targetName = f.targetName →
          nameAt file ((lid' + 1) * recordSize) = f.targetName ∧ lid' + 1 ≠ idx)
    | none =>
      if file.length ≤ (lid + 1) * recordSize then
        nameAt file ((lid' + 1) * recordSize) ≠ g.targetName →
          findTarget file g.targetName = none →
            g.targetName ≠ f.targetName ∧ ∀ i, file.length / recordSize ≤ i → i < lid + 1 →
              nameAt file (i * recordSize) ≠ g.targetName
      else if lid' < lid then g.targetName ≠ f.targetName
      else
        (if g.targetName = f.targetName ∧ nameAt file (lid' * recordSize) ≠ f.targetName then
          some f.cFileVer
        else recordedVer g (lid' - 1) file) = recordedVer g lid' file
  else if findTarget file f.targetName = none ∧ lid * fileVerLength < file.length then
    if CompletesHeader f lid file then
      shiftedVer g lid' file = some (cFbyte file (lid' * fileVerLength))
    else
      lid < lid' →
        cFbyte file ((lid' - 1) * fileVerLength) = cFbyte file (lid' * fileVerLength)
  else
    (lid' = lid + 17 → (cFbyte file (lid' * fileVerLength)).drop 2 = f.cFileVer.take 2) ∧
      (lid' = lid + 18 → (cFbyte file (lid' * fileVerLength)).take 2 = f.cFileVer.drop 2)

theorem leaves_new (hnew : bIsNewVerInfo file = true) (g : TCfgFile) {lid' : ℕ} (hne : lid' ≠ lid) :
    recordedVer g lid' (updated f lid file) = recordedVer g lid' file ↔
      LeavesVersion f lid g lid' file := by
  rw [LeavesVersion, if_pos hnew, recordedVer_new hnew]
  cases hidx : findTarget file f.targetName with
  | some idx =>
    rw [recordedVer_overwritten hnew g lid' hidx]
    exact Directory.lookup_put_found_iff (d := slots file) hidx f.cFileVer g.targetName (lid' + 1)
  | none =>
    by_cases hend : file.length ≤ (lid + 1) * recordSize
    · have hcount : (slots file).count ≤ lid + 1 := Nat.div_le_of_le_mul (by rwa [Nat.mul_comm])
      simp only [hend, if_true]
      rw [recordedVer_appended hnew g lid' hidx hend,
        Directory.lookup_put_new_iff _ hcount _ (by omega), Directory.found_eq_none,
        ← Directory.find_eq_none]
      rfl
    · have hcount : lid + 1 ≤ (slots file).count :=
        (Nat.le_div_iff_mul_le (by decide)).mpr (Nat.le_of_not_le hend)
      simp only [hend, if_false]
      rw [recordedVer_inserted hnew g lid' hidx hend]
      by_cases hlt : lid' < lid
      · rw [if_pos hlt]
        exact Directory.lookup_insert_before _ _ hcount hidx (Nat.succ_lt_succ hlt)
      · obtain ⟨k, rfl⟩ : ∃ k, lid' = k + 1 := ⟨lid' - 1, by omega⟩
        have hfront : ∀ j < (slots file).count, (slots file).name j ≠ f.targetName :=
          Directory.find_eq_none.mp hidx
        rw [if_neg hlt, Directory.lookup_insert_behind _ _ hcount
          (fun j hj => hfront j (by omega)) _ (by omega), Nat.add_sub_cancel, recordedVer_new hnew]
        rfl

theorem front_kept_iff {α : Type*} {n : ℕ} {w a : List α} : w.take n ++ a = w ↔ w.drop n = a := by
  conv_lhs => rhs; rw [← List.take_append_drop n w]
  rw [List.append_right_inj, eq_comm]

theorem back_kept_iff {α : Type*} {n : ℕ} {w a : List α} : a ++ w.drop n = w ↔ w.take n = a := by
  conv_lhs => rhs; rw [← List.take_append_drop n w]
  rw [List.append_left_inj, eq_comm]

theorem leaves_old (hold : bIsNewVerInfo file = false) (g : TCfgFile) {lid' : ℕ}
    (hne : lid' ≠ lid) :
    recordedVer g lid' (updated f lid file) = recordedVer g lid' file ↔
      LeavesVersion f lid g lid' file := by
  rw [LeavesVersion, if_neg (by simp [hold]), recordedVer_old hold]
  by_cases h : WritesBehind f lid file
  · rw [if_neg (fun hc => absurd (h hc.1) (Nat.not_le_of_lt hc.2)), recordedVer_written hold h,
      cFbyte_written, Option.some_inj]
    by_cases h17 : lid' = lid + 17
    · rw [if_pos h17, front_kept_iff, ← h17]
      have h18 : lid' ≠ lid + 18 := by omega
      simp [h18]
    · rw [if_neg h17]
      by_cases h18 : lid' = lid + 18
      · rw [if_pos h18, back_kept_iff]
        simp [h18]
      · simp [h17, h18]
  · have hroom : findTarget file f.targetName = none ∧ lid * fileVerLength < file.length := by
      simpa only [WritesBehind, Classical.not_imp, Nat.not_le] using h
    rw [if_pos hroom]
    by_cases hc : CompletesHeader f lid file
    · rw [if_pos hc, recordedVer_completed hold h hc]
    · rw [if_neg hc, recordedVer_old_inserted hold h hc, cFbyte_inserted hroom.2.le, Option.some_inj]
      rcases Nat.lt_or_gt_of_ne hne with hlt | hgt
      · rw [if_pos hlt]
        exact iff_of_true rfl fun hgt => absurd hgt (Nat.lt_asymm hlt)
      · rw [if_neg (by omega), if_neg hne]
        simp only [hgt, true_implies]

/-- When an update leaves the versions of all other lids alone. -/
theorem update_leaves_iff (t : Tables) (lid : ℕ) (file : List UInt8) :
    (∀ file', nvmUpdateFileVerNo t lid .verUpdate file = some (true, file') →
        ∀ lid' ≠ lid, ∀ g, t.cfgFile lid' = some g → slash ∈ g.cFileName →
          recordedVer g lid' file' = recordedVer g lid' file) ↔
      ∀ f, t.cfgFile lid = some f → ∀ lid' ≠ lid, ∀ g, t.cfgFile lid' = some g →
        slash ∈ g.cFileName → LeavesVersion f lid g lid' file := by
  have hleaves : ∀ f g : TCfgFile, ∀ lid' ≠ lid,
      (recordedVer g lid' (updated f lid file) = recordedVer g lid' file ↔
        LeavesVersion f lid g lid' file) := by
    intro f g lid' hne
    cases hb : bIsNewVerInfo file with
    | true => exact leaves_new hb g hne
    | false => exact leaves_old hb g hne
  constructor
  · intro h f hf lid' hne g hg hs
    exact (hleaves f g lid' hne).mp (h _ (nvmUpdateFileVerNo_verUpdate hf file) lid' hne g hg hs)
  · intro h file' hupdate lid' hne g hg hs
    cases hf : t.cfgFile lid with
    | none => simp [nvmUpdateFileVerNo, hf] at hupdate
    | some f =>
      rw [nvmUpdateFileVerNo_verUpdate hf] at hupdate
      cases hupdate
      exact (hleaves f g lid' hne).mpr (h f hf lid' hne g hg hs)

/-- In the old format a name is never found, so an update moves the versions of all lids behind. -/
theorem shifted_versions_change : ¬ ∀ (t : Tables) (lid : ℕ) (file file' : List UInt8),
    nvmUpdateFileVerNo t lid .verUpdate file = some (true, file') →
      ∀ lid' ≠ lid, ∀ g, t.cfgFile lid' = some g → slash ∈ g.cFileName →
        recordedVer g lid' file' = recordedVer g lid' file := by
  intro h
  have hread := h smallTables 1 [48, 48, 48, 0, 48, 48, 49, 0, 48, 48, 50, 0] _ rfl 2 (by decide)
    (smallFile 67 (by decide)) rfl (by decide)
  revert hread
  decide

end Nvram
