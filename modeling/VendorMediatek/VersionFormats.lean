import VendorMediatek.CheckFileNum
import VendorMediatek.NvramSession
import VendorMediatek.SlotRequests

/-!
# The formats of the version file

In the new format the file is a header and whole records, in the old one the versions of the lids one
after another. Updates and `NVM_CheckFileNum` keep a file in its format.
-/

namespace Nvram

open ByteFile SlotDirectory

/-- Digits and terminators. -/
def Numeric (bytes : List UInt8) : Prop := ∀ b ∈ bytes, isDigit b = true ∨ b = 0

instance (bytes : List UInt8) : Decidable (Numeric bytes) :=
  List.decidableBAll (fun b => isDigit b = true ∨ b = 0) bytes

structure NewFormat (file : List UInt8) : Prop where
  header : bIsNewVerInfo file = true
  whole : recordSize ∣ file.length

/-- One of the two formats. In the old one versions are numbers. -/
def InFormat (file : List UInt8) : Prop := NewFormat file ∨ Numeric file

/-- Versions are numbers, and the name of a file is none. -/
structure Numbered (t : Tables) : Prop where
  versions : ∀ lid f, t.cfgFile lid = some f → Numeric f.cFileVer
  names : ∀ lid f, t.cfgFile lid = some f → slash ∈ f.cFileName → ¬ Numeric f.targetName

variable {f : TCfgFile} {lid : ℕ} {file : List UInt8}

theorem Numbered.name_ne_nil {t : Tables} (ht : Numbered t) (hf : t.cfgFile lid = some f)
    (hs : slash ∈ f.cFileName) : f.targetName ≠ [] := by
  intro hnil
  refine ht.names lid f hf hs ?_
  rw [hnil]
  exact List.forall_mem_nil _

/-! ## The old format -/

section Old

variable (h : Numeric file)

include h

theorem numeric_of_subset {bytes : List UInt8} (hsub : bytes ⊆ file) : Numeric bytes :=
  fun b hb => h b (hsub hb)

theorem numeric_append {bytes : List UInt8} (hb : Numeric bytes) : Numeric (file ++ bytes) :=
  List.forall_mem_append.mpr ⟨h, hb⟩

theorem numeric_nameAt (off : ℕ) : Numeric (nameAt file off) := by
  refine numeric_of_subset h fun b hb => ?_
  exact List.mem_of_mem_drop (List.mem_of_mem_take (List.takeWhile_subset _ hb))

theorem old_of_numeric : bIsNewVerInfo file = false := by
  refine decide_eq_false fun hnew => ?_
  have hheader := hnew ▸ numeric_nameAt h 0
  revert hheader
  decide

theorem findTarget_numeric {name : List UInt8} (hname : ¬ Numeric name) :
    findTarget file name = none := by
  rw [findTarget_eq, Directory.find_eq_none]
  rintro i - rfl
  exact hname (numeric_nameAt h _)

theorem numeric_writeAt {data : List UInt8} (hdata : Numeric data) (off : ℕ) :
    Numeric (writeAt file off data) := by
  unfold writeAt
  split
  · exact h
  · have hzeros : Numeric (List.replicate (off - file.length) 0) :=
      fun b hb => Or.inr (List.eq_of_mem_replicate hb)
    exact numeric_append (numeric_append (numeric_append (numeric_of_subset h (List.take_subset ..))
      hzeros) hdata) (numeric_of_subset h (List.drop_subset ..))

theorem numeric_verAdd (hver : Numeric f.cFileVer) : Numeric (verAdd f lid file) := by
  simp only [verAdd, old_of_numeric h, Bool.false_eq_true, if_false]
  split
  · exact numeric_writeAt h hver _
  · exact numeric_append (numeric_append (numeric_of_subset h (List.take_subset ..)) hver)
      (numeric_of_subset h (List.drop_subset ..))

theorem numeric_updated (hver : Numeric f.cFileVer) (hname : ¬ Numeric f.targetName) :
    Numeric (updated f lid file) := by
  simp only [updated, findTarget_numeric h hname]
  exact numeric_verAdd h hver

theorem numeric_verDel {ok : Bool} {file' : List UInt8} (hdel : verDel lid file = some (ok, file')) :
    Numeric file' := by
  simp only [verDel] at hdel
  generalize (if bIsNewVerInfo file then recordSize else fileVerLength) = size at hdel
  generalize (if bIsNewVerInfo file then (lid + 1) * recordSize else lid * fileVerLength) = off
    at hdel
  split at hdel
  · cases hdel
    exact h
  · split at hdel
    · cases hdel
      exact numeric_append (numeric_of_subset h (List.take_subset ..))
        (numeric_of_subset h (List.drop_subset ..))
    · cases hdel

end Old

/-! ## The new format -/

namespace NewFormat

variable (h : NewFormat file)

include h

theorem count_le_iff (lid : ℕ) :
    file.length ≤ (lid + 1) * recordSize ↔ (slots file).count ≤ lid + 1 := by
  obtain ⟨n, hn⟩ := h.whole
  have hcount : (slots file).count = n := by
    simp only [slots, hn]
    exact Nat.mul_div_cancel_left n (by decide)
  rw [hn, hcount, Nat.mul_comm, Nat.mul_le_mul_right_iff (by decide)]

theorem trimmed : (slots file).Trimmed [] := by
  obtain ⟨n, hn⟩ := h.whole
  intro i hi
  have hend : file.length ≤ i * recordSize := by
    have hcount : file.length / recordSize ≤ i := hi
    rw [hn, Nat.mul_div_cancel_left n (by decide)] at hcount
    rw [hn, Nat.mul_comm]
    exact Nat.mul_le_mul_right _ hcount
  simp [slots, nameAt, readAt, List.drop_eq_nil_of_le hend, cString]

theorem verAdd : NewFormat (verAdd f lid file) := by
  obtain ⟨n, hn⟩ := h.whole
  have hfront : 0 + headerLength ≤ (lid + 1) * recordSize := by
    simp only [headerLength, recordSize, fileNameLength, fileVerLength]
    omega
  simp only [Nvram.verAdd, h.header, if_true]
  split
  · next hend =>
    constructor
    · rw [← h.header]
      exact bIsNewVerInfo_congr (window_writeRecord_of_disjoint f (Or.inl hfront) file)
    · rw [length_writeRecord, ← Nat.succ_mul, Nat.max_eq_right]
      · exact Nat.dvd_mul_left ..
      · exact hend.trans (Nat.mul_le_mul_right _ (Nat.le_succ _))
  · next hmid =>
    rw [List.append_assoc _ f.nameField]
    constructor
    · rw [← h.header]
      exact bIsNewVerInfo_congr (window_insert_before (Nat.le_of_not_le hmid) _ hfront)
    · have hlen : f.verRecord.val.length = recordSize := f.verRecord.property
      have hsum : (file.take ((lid + 1) * recordSize) ++ f.verRecord.val ++
          file.drop ((lid + 1) * recordSize)).length = file.length + recordSize := by
        simp only [List.length_append, List.length_take, List.length_drop, hlen]
        omega
      exact hsum ▸ Nat.dvd_add h.whole (Nat.dvd_refl recordSize)

theorem verDel {ok : Bool} {file' : List UInt8} (hdel : verDel lid file = some (ok, file')) :
    NewFormat file' := by
  simp only [Nvram.verDel, h.header, if_true] at hdel
  split at hdel
  · cases hdel
    exact h
  · split at hdel
    · next hfits =>
      cases hdel
      have hfront : headerLength ≤ (lid + 1) * recordSize := by
        simp only [headerLength, recordSize, fileNameLength, fileVerLength]
        omega
      constructor
      · rw [← h.header]
        apply bIsNewVerInfo_congr
        apply window_congr
        intro i hi
        rw [List.getD_append _ _ _ _ (by rw [List.length_take]; omega), Nat.zero_add]
        simp only [List.getD_eq_getElem?_getD, List.getElem?_take_of_lt (hi.trans_le hfront)]
      · have hsum : (file.take ((lid + 1) * recordSize) ++
            file.drop ((lid + 1) * recordSize + recordSize)).length = file.length - recordSize := by
          simp only [List.length_append, List.length_take, List.length_drop]
          omega
        exact hsum ▸ Nat.dvd_sub h.whole (Nat.dvd_refl recordSize)
    · cases hdel

/-- An update serves the lid's request for its slot. -/
theorem slots_updated :
    slots (updated f lid file) = (slots file).serve (lid + 1) f.targetName f.cFileVer := by
  simp only [updated, Directory.serve, ← findTarget_eq]
  cases hidx : findTarget file f.targetName with
  | some idx =>
    simp only [verUpdateInPlace, h.header, if_true]
    exact slots_writeRecord f idx file
  | none =>
    simp only [Nvram.verAdd, h.header, if_true, ← h.count_le_iff]
    split
    · exact slots_writeRecord f (lid + 1) file
    · rw [List.append_assoc _ f.nameField]
      exact slots_insert f (Nat.le_of_not_le ‹_›)

theorem updated : NewFormat (updated f lid file) := by
  unfold Nvram.updated
  cases hidx : findTarget file f.targetName with
  | none => exact h.verAdd
  | some idx =>
    have hfound := (Directory.find_eq_some (d := slots file)).mp hidx
    obtain ⟨n, hn⟩ := h.whole
    have hcount : file.length / recordSize = n := by
      rw [hn]
      exact Nat.mul_div_cancel_left n (by decide)
    have hend : (idx + 1) * recordSize ≤ file.length := by
      have hlt : idx < n := hcount ▸ hfound.1
      rw [hn, Nat.mul_comm]
      exact Nat.mul_le_mul_left _ hlt
    simp only [verUpdateInPlace, h.header, if_true]
    constructor
    · have hname := Directory.name_put_found (d := slots file) hidx f.cFileVer 0
      rw [← slots_writeRecord] at hname
      have hhead : nameAt (writeRecord f (idx * recordSize) file) (0 * recordSize) =
          nameAt file (0 * recordSize) := hname
      rw [Nat.zero_mul] at hhead
      rw [bIsNewVerInfo, hhead]
      exact h.header
    · rw [length_writeRecord, ← Nat.succ_mul, Nat.max_eq_left hend]
      exact h.whole

end NewFormat

theorem NewFormat.recordedVer (h : NewFormat file) (f : TCfgFile) (lid : ℕ) :
    recordedVer f lid file = (slots file).lookup f.targetName (lid + 1) :=
  recordedVer_new h.header f lid

/-! ## NVM_CheckFileNum -/

theorem updateLoop_keeps {t : Tables} {flag : VerInfoUpdateFlag} {P : List UInt8 → Prop}
    (hstep : ∀ lid file ok file', P file → nvmUpdateFileVerNo t lid flag file = some (ok, file') →
      P file') {lids : List ℕ} {file : List UInt8} (h : P file) {ok : Bool} {file' : List UInt8}
    (hloop : updateLoop t flag lids file = some (ok, file')) : P file' := by
  induction lids generalizing file with
  | nil =>
    cases hloop
    exact h
  | cons lid lids ih =>
    rw [updateLoop] at hloop
    split at hloop
    · cases hloop
    · next hfalse =>
      cases hloop
      exact hstep lid file _ _ h hfalse
    · next htrue => exact ih (hstep lid file _ _ h htrue) hloop

theorem andThen_keeps {P : List UInt8 → Prop} {r : Option (Bool × List UInt8)}
    {k : List UInt8 → Option (Bool × List UInt8)}
    (hr : ∀ ok file, r = some (ok, file) → P file)
    (hk : ∀ file, P file → ∀ ok file', k file = some (ok, file') → P file') :
    ∀ ok file', andThen r k = some (ok, file') → P file' := by
  intro ok file' h
  unfold andThen at h
  split at h
  · cases h
  · cases h
    exact hr _ _ rfl
  · exact hk _ (hr _ _ rfl) _ _ h

theorem nvmCheckFileNum_keeps {t : Tables} {P : List UInt8 → Prop}
    (hadd : ∀ lid file ok file', P file →
      nvmUpdateFileVerNo t lid .verAdd file = some (ok, file') → P file')
    (hdel : ∀ lid file ok file', P file →
      nvmUpdateFileVerNo t lid .verDel file = some (ok, file') → P file') (a b : ℕ)
    {file : List UInt8} (h : P file) {ok : Bool} {file' : List UInt8}
    (hcheck : nvmCheckFileNum t a b file = some (ok, file')) : P file' := by
  have hloop : ∀ flag, (flag = .verAdd ∨ flag = .verDel) → ∀ (c : Prop) [Decidable c] lids file,
      P file → ∀ ok file', (if c then updateLoop t flag lids file else some (true, file)) =
        some (ok, file') → P file' := by
    intro flag hflag c _ lids file h ok file' hr
    split at hr
    · rcases hflag with rfl | rfl
      · exact updateLoop_keeps hadd h hr
      · exact updateLoop_keeps hdel h hr
    · cases hr
      exact h
  simp only [nvmCheckFileNum] at hcheck
  split at hcheck
  · cases hcheck
    exact h
  · split at hcheck
    · cases hcheck
      exact h
    · refine andThen_keeps (hloop _ (Or.inl rfl) _ _ _ h) (fun file h => ?_) _ _ hcheck
      refine andThen_keeps (hloop _ (Or.inl rfl) _ _ _ h) fun file h => ?_
      refine andThen_keeps (hloop _ (Or.inr rfl) _ _ _ h) fun file h => ?_
      exact hloop _ (Or.inr rfl) _ _ _ h

/-- NVM_CheckFileNum leaves a file in its format. -/
theorem nvmCheckFileNum_format {t : Tables} (ht : Numbered t) (a b : ℕ) {ok : Bool}
    {file' : List UInt8} (hcheck : nvmCheckFileNum t a b file = some (ok, file'))
    (h : InFormat file) : InFormat file' := by
  rcases h with h | h
  · refine Or.inl (nvmCheckFileNum_keeps ?_ ?_ a b h hcheck)
    · intro lid file ok file' h hadd
      simp only [nvmUpdateFileVerNo] at hadd
      split at hadd
      · cases hadd
      · cases hadd
        exact h.verAdd
    · exact fun lid file ok file' h hdel => h.verDel hdel
  · refine Or.inr (nvmCheckFileNum_keeps ?_ ?_ a b h hcheck)
    · intro lid file ok file' h hadd
      simp only [nvmUpdateFileVerNo] at hadd
      split at hadd
      · cases hadd
      · next f hf =>
        cases hadd
        exact numeric_verAdd h (ht.versions lid f hf)
    · exact fun lid file ok file' h hdel => numeric_verDel h hdel

end Nvram
