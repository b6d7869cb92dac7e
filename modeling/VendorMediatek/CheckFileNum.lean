import VendorMediatek.VersionFile

/-!
# The version file against changed tables

`NVM_CheckFileNum` adapts the version file to tables that have grown or shrunk, by up to four
loops of single insertions and removals.
-/

namespace Nvram

open ByteFile RecordFile
open scoped List

def updateLoop (t : Tables) (flag : VerInfoUpdateFlag) :
    List ℕ → List UInt8 → Option (Bool × List UInt8)
  | [], file => some (true, file)
  | lid :: lids, file =>
    match nvmUpdateFileVerNo t lid flag file with
    | none => none
    | some (false, file) => some (false, file)
    | some (true, file) => updateLoop t flag lids file

/-- A loop that fails ends the function. -/
def andThen (r : Option (Bool × List UInt8)) (k : List UInt8 → Option (Bool × List UInt8)) :
    Option (Bool × List UInt8) :=
  match r with
  | none => none
  | some (false, file) => some (false, file)
  | some (true, file) => k file

def nvmCheckFileNum (t : Tables) (iOldCommonFileNum iOldCustomFileNum : ℕ) (file : List UInt8) :
    Option (Bool × List UInt8) :=
  let iNewCustomFileNum := t.iNvRamFileMaxLid - t.iCustomBeginLid
  if iOldCommonFileNum = 0 ∨ iOldCustomFileNum = 0 then some (true, file)
  else if iOldCommonFileNum = t.iCustomBeginLid ∧ iOldCustomFileNum = iNewCustomFileNum then
    some (true, file)
  else
    andThen (if iOldCommonFileNum < t.iCustomBeginLid then
        updateLoop t .verAdd
          (List.range' iOldCommonFileNum (t.iCustomBeginLid - iOldCommonFileNum)) file
      else some (true, file)) fun file =>
    andThen (if iOldCustomFileNum < iNewCustomFileNum then
        updateLoop t .verAdd (List.range' (t.iCustomBeginLid + iOldCustomFileNum)
          (iNewCustomFileNum - iOldCustomFileNum)) file
      else some (true, file)) fun file =>
    andThen (if iOldCommonFileNum > t.iCustomBeginLid then
        updateLoop t .verDel
          (List.range' t.iCustomBeginLid (iOldCommonFileNum - t.iCustomBeginLid)) file
      else some (true, file)) fun file =>
    if iOldCustomFileNum > iNewCustomFileNum then
      updateLoop t .verDel (List.range' (iOldCommonFileNum + iNewCustomFileNum)
        (iOldCustomFileNum - iNewCustomFileNum)) file
    else some (true, file)

/-- What a call may return: any result where its behaviour is undefined. -/
def MayReturn (r : Option (Bool × List UInt8)) (ok : Bool) (file : List UInt8) : Prop :=
  ∀ result, r = some result → result = (ok, file)

/-- A version file in the new format that is aligned with tables of these sizes. -/
structure AlignedFile (common custom : ℕ) where
  header : VerRecord
  isHeader : IsHeader header
  commonRecords : List VerRecord
  customRecords : List VerRecord
  common_length : commonRecords.length = common
  custom_length : customRecords.length = custom

variable {a b : ℕ}

def AlignedFile.records (v : AlignedFile a b) : List VerRecord :=
  v.commonRecords ++ v.customRecords

def AlignedFile.bytes (v : AlignedFile a b) : List UInt8 := encode (v.header :: v.records)

/-- Survivors keep their records, in lid order with those of the table entries that are new. -/
def AlignedFile.targetRecords (v : AlignedFile a b) (t : Tables) : List VerRecord :=
  v.commonRecords.take t.gAkCfgFile.length ++ (t.gAkCfgFile.drop a).map TCfgFile.verRecord ++
    (v.customRecords.take t.gAkCfgFileCustom.length ++
      (t.gAkCfgFileCustom.drop b).map TCfgFile.verRecord)

def AlignedFile.target (v : AlignedFile a b) (t : Tables) : List UInt8 :=
  encode (v.header :: v.targetRecords t)

def KeepsAlignment (t : Tables) (a b : ℕ) : Prop :=
  ∀ (v : AlignedFile a b) (file : List UInt8),
    MayReturn (nvmCheckFileNum t a b v.bytes) true file → file = v.target t

/-! ## The loops on lists of records -/

/-- The four loops, on the records behind the header. -/
def editedRecords (t : Tables) (a b : ℕ) (l : List VerRecord) : Option (List VerRecord) :=
  (delRange t.gAkCfgFile.length (a - t.gAkCfgFile.length)
    (addRange (t.gAkCfgFile.length + b) ((t.gAkCfgFileCustom.drop b).map TCfgFile.verRecord)
      (addRange a ((t.gAkCfgFile.drop a).map TCfgFile.verRecord) l))).bind
    (delRange (a + t.gAkCfgFileCustom.length) (b - t.gAkCfgFileCustom.length))

theorem updateLoop_verAdd (t : Tables) {h : VerRecord} (hh : IsHeader h) {p : ℕ}
    {fs : List TCfgFile} {l : List VerRecord} (hp : p ≤ l.length)
    (hfs : ∀ i (hi : i < fs.length), t.cfgFile (p + i) = some fs[i]) :
    updateLoop t .verAdd (List.range' p fs.length) (encode (h :: l)) =
      some (true, encode (h :: addRange p (fs.map TCfgFile.verRecord) l)) := by
  induction fs generalizing p l with
  | nil => rfl
  | cons f fs ih =>
    have hf : t.cfgFile p = some f := hfs 0 (Nat.zero_lt_succ _)
    rw [List.length_cons, List.range'_succ, updateLoop]
    simp only [nvmUpdateFileVerNo, hf, verAdd_encode hh l f hp]
    refine ih ?_ fun i hi => ?_
    · simp only [List.length_append, List.length_take, List.length_cons, List.length_drop]
      omega
    · have := hfs (i + 1) (Nat.succ_lt_succ hi)
      rw [show p + 1 + i = p + (i + 1) by omega, this]
      rfl

theorem updateLoop_verDel (t : Tables) {h : VerRecord} (hh : IsHeader h) (p j : ℕ)
    (l : List VerRecord) :
    updateLoop t .verDel (List.range' p j) (encode (h :: l)) =
      (delRange p j l).map fun l => (true, encode (h :: l)) := by
  induction j generalizing p l with
  | zero => rfl
  | succ j ih =>
    rw [List.range'_succ, updateLoop, delRange]
    simp only [nvmUpdateFileVerNo, verDel_encode hh l p]
    split
    · rename_i hnone
      split at hnone
      · cases hnone
      · rename_i hp
        rw [if_neg hp]
        rfl
    · rename_i hsome
      split at hsome <;> cases hsome
    · rename_i hsome
      split at hsome
      · rename_i hp
        cases hsome
        rw [if_pos hp, ih]
      · cases hsome

theorem verAdd_common (t : Tables) {h : VerRecord} (hh : IsHeader h) {l : List VerRecord}
    (hl : a ≤ l.length) :
    (if a < t.iCustomBeginLid then
        updateLoop t .verAdd (List.range' a (t.iCustomBeginLid - a)) (encode (h :: l))
      else some (true, encode (h :: l))) =
      some (true, encode (h :: addRange a ((t.gAkCfgFile.drop a).map TCfgFile.verRecord) l)) := by
  split
  · rw [Tables.iCustomBeginLid, ← List.length_drop]
    apply updateLoop_verAdd t hh hl
    intro i hi
    rw [List.length_drop] at hi
    rw [t.cfgFile_common (by omega), List.getElem_drop]
  · rename_i ha
    rw [List.drop_eq_nil_of_le (Nat.le_of_not_lt ha)]
    rfl

theorem verAdd_custom (t : Tables) {h : VerRecord} (hh : IsHeader h) {l : List VerRecord}
    (hl : t.gAkCfgFile.length + b ≤ l.length) :
    (if b < t.gAkCfgFileCustom.length then
        updateLoop t .verAdd (List.range' (t.iCustomBeginLid + b)
          (t.gAkCfgFileCustom.length - b)) (encode (h :: l))
      else some (true, encode (h :: l))) =
      some (true, encode (h :: addRange (t.gAkCfgFile.length + b)
        ((t.gAkCfgFileCustom.drop b).map TCfgFile.verRecord) l)) := by
  split
  · rw [← List.length_drop]
    apply updateLoop_verAdd t hh hl
    intro i hi
    rw [List.length_drop] at hi
    rw [Nat.add_assoc]
    change t.cfgFile (t.iCustomBeginLid + (b + i)) = _
    rw [t.cfgFile_custom (by omega), List.getElem_drop]
  · rename_i hb
    rw [List.drop_eq_nil_of_le (Nat.le_of_not_lt hb)]
    rfl

theorem verDel_guarded (t : Tables) {h : VerRecord} (hh : IsHeader h) (p old new : ℕ)
    (l : List VerRecord) :
    (if old > new then updateLoop t .verDel (List.range' p (old - new)) (encode (h :: l))
      else some (true, encode (h :: l))) =
      (delRange p (old - new) l).map fun l => (true, encode (h :: l)) := by
  split
  · exact updateLoop_verDel t hh p _ l
  · rename_i hle
    rw [Nat.sub_eq_zero_of_le (Nat.le_of_not_lt hle)]
    rfl

/-- On an aligned file the code edits the list of records behind the header. -/
theorem nvmCheckFileNum_aligned (t : Tables) (ha : 1 ≤ a) (hb : 1 ≤ b) (v : AlignedFile a b) :
    nvmCheckFileNum t a b v.bytes =
      (editedRecords t a b v.records).map fun l => (true, encode (v.header :: l)) := by
  have hlen : v.records.length = a + b := by
    rw [AlignedFile.records, List.length_append, v.common_length, v.custom_length]
  have hnew : t.iNvRamFileMaxLid - t.iCustomBeginLid = t.gAkCfgFileCustom.length :=
    Nat.add_sub_cancel_left ..
  have hnonzero : ¬ (a = 0 ∨ b = 0) := by omega
  simp only [nvmCheckFileNum, hnew, hnonzero, if_false]
  split
  · rename_i hsame
    obtain ⟨rfl, rfl⟩ := hsame
    simp [editedRecords, Tables.iCustomBeginLid, addRange, delRange, AlignedFile.bytes]
  · have hl : t.gAkCfgFile.length + b ≤
        (addRange a ((t.gAkCfgFile.drop a).map TCfgFile.verRecord) v.records).length := by
      rw [addRange_eq (by omega)]
      simp only [List.length_append, List.length_take, List.length_map, List.length_drop, hlen]
      omega
    rw [AlignedFile.bytes, verAdd_common t v.isHeader (by omega)]
    simp only [andThen]
    rw [verAdd_custom t v.isHeader hl]
    simp only []
    rw [verDel_guarded t v.isHeader]
    simp only [editedRecords, Tables.iCustomBeginLid]
    cases delRange t.gAkCfgFile.length (a - t.gAkCfgFile.length) _ with
    | none => rfl
    | some l => exact verDel_guarded t v.isHeader _ _ _ l

theorem keepsAlignment_iff (t : Tables) (ha : 1 ≤ a) (hb : 1 ≤ b) :
    KeepsAlignment t a b ↔
      ∀ v : AlignedFile a b, editedRecords t a b v.records = some (v.targetRecords t) := by
  constructor
  · intro h v
    have hv := h v
    rw [nvmCheckFileNum_aligned t ha hb v] at hv
    cases he : editedRecords t a b v.records with
    | none =>
      rw [he] at hv
      have hnil := hv [] (by intro result hr; cases hr)
      have := congrArg List.length hnil
      rw [AlignedFile.target, length_encode, List.length_nil, List.length_cons] at this
      simp [fileNameLength] at this
    | some l =>
      rw [he] at hv
      have heq := hv (encode (v.header :: l)) (by intro result hr; cases hr; rfl)
      have := encode_injective (by decide) heq
      rw [(List.cons.inj this).2]
  · intro h v file hr
    rw [nvmCheckFileNum_aligned t ha hb v, h v] at hr
    have := hr _ rfl
    exact (congrArg Prod.snd this).symm

/-! ## Which counts the loops serve -/

theorem length_records (v : AlignedFile a b) : v.records.length = a + b := by
  rw [AlignedFile.records, List.length_append, v.common_length, v.custom_length]

theorem addRanges_eq (t : Tables) (v : AlignedFile a b) (hm : a ≤ t.gAkCfgFile.length) :
    addRange (t.gAkCfgFile.length + b) ((t.gAkCfgFileCustom.drop b).map TCfgFile.verRecord)
        (addRange a ((t.gAkCfgFile.drop a).map TCfgFile.verRecord) v.records) =
      v.commonRecords ++ (t.gAkCfgFile.drop a).map TCfgFile.verRecord ++ v.customRecords ++
        (t.gAkCfgFileCustom.drop b).map TCfgFile.verRecord := by
  have hcommon : addRange a ((t.gAkCfgFile.drop a).map TCfgFile.verRecord) v.records =
      v.commonRecords ++ (t.gAkCfgFile.drop a).map TCfgFile.verRecord ++ v.customRecords := by
    rw [addRange_eq (by rw [length_records]; omega), AlignedFile.records,
      List.take_left' v.common_length, List.drop_left' v.common_length]
  have hlen : (v.commonRecords ++ (t.gAkCfgFile.drop a).map TCfgFile.verRecord ++
      v.customRecords).length = t.gAkCfgFile.length + b := by
    simp only [List.length_append, List.length_map, List.length_drop, v.common_length,
      v.custom_length]
    omega
  rw [hcommon, addRange_eq (by omega), ← hlen, List.take_length, List.drop_length, List.append_nil]

/-- The common records are too many, so none of the table is new there. -/
theorem addRanges_of_gt (t : Tables) (v : AlignedFile a b) (hm : t.gAkCfgFile.length ≤ a) :
    addRange (t.gAkCfgFile.length + b) ((t.gAkCfgFileCustom.drop b).map TCfgFile.verRecord)
        (addRange a ((t.gAkCfgFile.drop a).map TCfgFile.verRecord) v.records) =
      v.records.take (t.gAkCfgFile.length + b) ++
        (t.gAkCfgFileCustom.drop b).map TCfgFile.verRecord ++
        v.records.drop (t.gAkCfgFile.length + b) := by
  rw [List.drop_eq_nil_of_le hm]
  apply addRange_eq
  change _ ≤ v.records.length
  rw [length_records]
  omega

theorem edited_of_growth (t : Tables) (v : AlignedFile a b) (hm : a ≤ t.gAkCfgFile.length)
    (hn : b ≤ t.gAkCfgFileCustom.length) :
    editedRecords t a b v.records = some (v.targetRecords t) := by
  rw [editedRecords, addRanges_eq t v hm, Nat.sub_eq_zero_of_le hm, Nat.sub_eq_zero_of_le hn,
    AlignedFile.targetRecords, List.take_of_length_le (by rw [v.common_length]; exact hm),
    List.take_of_length_le (by rw [v.custom_length]; exact hn)]
  simp [delRange]

theorem edited_of_last_custom (t : Tables) (v : AlignedFile a b) (hm : a = t.gAkCfgFile.length)
    (hn : b = t.gAkCfgFileCustom.length + 1) :
    editedRecords t a b v.records = some (v.targetRecords t) := by
  have hcustom : t.gAkCfgFileCustom.drop b = [] := List.drop_eq_nil_of_le (by omega)
  have hcommon : t.gAkCfgFile.drop a = [] := List.drop_eq_nil_of_le (by omega)
  have hgone : v.customRecords.drop (t.gAkCfgFileCustom.length + 1) = [] :=
    List.drop_eq_nil_of_le (by rw [v.custom_length]; omega)
  have hone : b - t.gAkCfgFileCustom.length = 1 := by omega
  have hedited : editedRecords t a b v.records =
      some ((v.commonRecords ++ v.customRecords).eraseIdx (a + t.gAkCfgFileCustom.length)) := by
    rw [editedRecords, addRanges_eq t v hm.le, ← hm, Nat.sub_self, hcustom, hcommon, List.map_nil,
      List.append_nil, List.append_nil, delRange, Option.bind_some, hone]
    apply delRange_one
    rw [List.length_append, v.common_length, v.custom_length]
    omega
  have htarget : v.targetRecords t =
      v.commonRecords ++ v.customRecords.take t.gAkCfgFileCustom.length := by
    rw [AlignedFile.targetRecords, hcustom, hcommon, List.map_nil, List.append_nil,
      List.append_nil, List.take_of_length_le (by rw [v.common_length]; omega)]
  rw [hedited, htarget, List.eraseIdx_append_of_length_le (by rw [v.common_length]; omega),
    v.common_length, Nat.add_sub_cancel_left, List.eraseIdx_eq_take_drop_succ, hgone,
    List.append_nil]

theorem edited_of_last_common (t : Tables) (v : AlignedFile a b)
    (hm : a = t.gAkCfgFile.length + 1) (hn : b = t.gAkCfgFileCustom.length) :
    editedRecords t a b v.records = some (v.targetRecords t) := by
  have hcustom : t.gAkCfgFileCustom.drop b = [] := List.drop_eq_nil_of_le (by omega)
  have hcommon : t.gAkCfgFile.drop a = [] := List.drop_eq_nil_of_le (by omega)
  have hgone : v.commonRecords.drop (t.gAkCfgFile.length + 1) = [] :=
    List.drop_eq_nil_of_le (by rw [v.common_length]; omega)
  have hone : a - t.gAkCfgFile.length = 1 := by omega
  have hzero : b - t.gAkCfgFileCustom.length = 0 := by omega
  have hedited : editedRecords t a b v.records =
      some ((v.commonRecords ++ v.customRecords).eraseIdx t.gAkCfgFile.length) := by
    rw [editedRecords, addRanges_of_gt t v (by omega), hcustom, List.map_nil, List.append_nil,
      List.take_append_drop, hone, delRange_one (by rw [length_records]; omega), Option.bind_some,
      hzero, delRange, AlignedFile.records]
  have htarget : v.targetRecords t =
      v.commonRecords.take t.gAkCfgFile.length ++ v.customRecords := by
    rw [AlignedFile.targetRecords, hcustom, hcommon, List.map_nil, List.append_nil,
      List.append_nil, List.take_of_length_le (i := t.gAkCfgFileCustom.length)
        (by rw [v.custom_length]; omega)]
  rw [hedited, htarget, List.eraseIdx_append_of_lt_length (by rw [v.common_length]; omega),
    List.eraseIdx_eq_take_drop_succ, hgone, List.append_nil]

/-- A record that no table entry has: its name is not terminated. -/
def junkRecord (c : UInt8) : VerRecord :=
  ⟨List.replicate (fileNameLength + fileVerLength) c, List.length_replicate⟩

/-- Old records that survive, and old records of removed lids. -/
def keep : VerRecord := junkRecord 1
def gone : VerRecord := junkRecord 2

def headerRecord : VerRecord :=
  ⟨zeroPad fileNameLength strVerInfo ++ [0, 0, 0, 0], by decide⟩

/-- A file that tells survivors from the removed. -/
def markedFile (t : Tables) (a b : ℕ) : AlignedFile a b where
  header := headerRecord
  isHeader := by unfold IsHeader; decide
  commonRecords := List.replicate (min a t.gAkCfgFile.length) keep ++
    List.replicate (a - t.gAkCfgFile.length) gone
  customRecords := List.replicate (min b t.gAkCfgFileCustom.length) keep ++
    List.replicate (b - t.gAkCfgFileCustom.length) gone
  common_length := by
    rw [List.length_append, List.length_replicate, List.length_replicate]
    omega
  custom_length := by
    rw [List.length_append, List.length_replicate, List.length_replicate]
    omega

theorem keep_ne_gone : keep ≠ gone := by decide

theorem verRecord_ne_junk (f : TCfgFile) {c : UInt8} (hc : c ≠ 0) : f.verRecord ≠ junkRecord c := by
  intro h
  have hz : (0 : UInt8) ∈ f.verRecord.val := by
    have hlen := f.targetName_length
    apply List.mem_append_left
    apply List.mem_append_right
    rw [List.mem_replicate]
    exact ⟨by omega, rfl⟩
  rw [h] at hz
  exact hc (List.eq_of_mem_replicate hz).symm

theorem marked_target (t : Tables) (a b : ℕ) :
    (markedFile t a b).targetRecords t =
      List.replicate (min a t.gAkCfgFile.length) keep ++
        (t.gAkCfgFile.drop a).map TCfgFile.verRecord ++
        (List.replicate (min b t.gAkCfgFileCustom.length) keep ++
          (t.gAkCfgFileCustom.drop b).map TCfgFile.verRecord) := by
  have hcut : ∀ n m : ℕ, (List.replicate (min n m) keep ++ List.replicate (n - m) gone).take m =
      List.replicate (min n m) keep := by
    intro n m
    rw [List.take_append, List.take_replicate, List.take_replicate, List.length_replicate,
      show min (m - min n m) (n - m) = 0 by omega, show min m (min n m) = min n m by omega,
      List.replicate_zero, List.append_nil]
  rw [AlignedFile.targetRecords]
  simp only [markedFile, hcut]

theorem gone_notMem_target (t : Tables) (a b : ℕ) :
    gone ∉ (markedFile t a b).targetRecords t := by
  rw [marked_target]
  have hk : ∀ n, gone ∉ List.replicate n keep := by
    intro n h
    exact keep_ne_gone (List.eq_of_mem_replicate h).symm
  have ht : ∀ fs : List TCfgFile, gone ∉ fs.map TCfgFile.verRecord := by
    intro fs h
    obtain ⟨f, _, hf⟩ := List.mem_map.mp h
    exact verRecord_ne_junk f (by decide) hf
  simp only [List.mem_append, hk, ht, or_self, not_false_eq_true]

theorem sublist_of_notMem {α : Type*} {l p q : List α} (h : l <+ p ++ q)
    (hq : ∀ x ∈ q, x ∉ l) : l <+ p := by
  obtain ⟨l₁, l₂, rfl, h₁, h₂⟩ := List.sublist_append_iff.mp h
  cases l₂ with
  | nil => simpa using h₁
  | cons x l₂ =>
    exact absurd (List.mem_append_right _ List.mem_cons_self) (hq x (h₂.subset List.mem_cons_self))

theorem concat_sublist {α : Type*} {l p q : List α} {x : α} (h : l ++ [x] <+ p ++ q)
    (hq : x ∉ q) : l ++ [x] <+ p := by
  obtain ⟨l₁, l₂, hl, h₁, h₂⟩ := List.sublist_append_iff.mp h
  rcases List.eq_nil_or_concat l₂ with rfl | ⟨l₃, y, rfl⟩
  · rw [hl, List.append_nil]
    exact h₁
  · rw [List.concat_eq_append, ← List.append_assoc] at hl
    obtain ⟨_, hy⟩ := List.append_inj' hl rfl
    rw [List.concat_eq_append] at h₂
    exact absurd (h₂.subset (List.mem_append_right _ List.mem_cons_self))
      ((List.cons.inj hy).1 ▸ hq)

/-- Where the tail that both lists have in common does not end in what follows it, a part as long as
what stands in front of it is that front. -/
theorem front_eq_of_sublist {α : Type*} {l front new old : List α} {x : α}
    (h : l ++ (new ++ [x]) <+ front ++ (new ++ [x]) ++ old) (hold : x ∉ old)
    (hlen : l.length = front.length) : l = front := by
  rw [← List.append_assoc] at h
  have hfront := concat_sublist h hold
  rw [List.append_assoc] at hfront
  have heq := hfront.eq_of_length (by rw [List.length_append, hlen, ← List.length_append])
  exact List.append_cancel_right heq

theorem length_targetRecords (v : AlignedFile a b) (t : Tables) :
    (v.targetRecords t).length = t.gAkCfgFile.length + t.gAkCfgFileCustom.length := by
  simp only [AlignedFile.targetRecords, List.length_append, List.length_take, List.length_map,
    List.length_drop, v.common_length, v.custom_length]
  omega

theorem marked_gone (t : Tables) (a b : ℕ) {i : ℕ} (hm : t.gAkCfgFile.length ≤ i) (ha : i < a) :
    (markedFile t a b).records[i]? = some gone := by
  have hmin : min a t.gAkCfgFile.length = t.gAkCfgFile.length := by omega
  simp only [AlignedFile.records, markedFile, hmin]
  rw [List.getElem?_append_left (by
      rw [List.length_append, List.length_replicate, List.length_replicate]
      omega),
    List.getElem?_append_right (by rw [List.length_replicate]; exact hm), List.length_replicate,
    List.getElem?_replicate, if_pos (by omega)]

theorem marked_junk (t : Tables) (a b : ℕ) :
    ∀ r ∈ (markedFile t a b).records, r = keep ∨ r = gone := by
  intro r hr
  simp only [AlignedFile.records, markedFile, List.mem_append] at hr
  rcases hr with (hr | hr) | hr | hr
  · exact Or.inl (List.eq_of_mem_replicate hr)
  · exact Or.inr (List.eq_of_mem_replicate hr)
  · exact Or.inl (List.eq_of_mem_replicate hr)
  · exact Or.inr (List.eq_of_mem_replicate hr)

/-- Grown common and shrunk custom tables: the removals start at a place taken by a survivor. -/
theorem not_edited_of_mixed (t : Tables) (hm : a < t.gAkCfgFile.length)
    (hn : t.gAkCfgFileCustom.length < b) :
    editedRecords t a b (markedFile t a b).records ≠ some ((markedFile t a b).targetRecords t) := by
  intro h
  obtain ⟨j, hj⟩ : ∃ j, b - t.gAkCfgFileCustom.length = j + 1 :=
    ⟨b - t.gAkCfgFileCustom.length - 1, by omega⟩
  have hcustom : t.gAkCfgFileCustom.drop b = [] := List.drop_eq_nil_of_le (by omega)
  rw [editedRecords, addRanges_eq t _ hm.le, Nat.sub_eq_zero_of_le hm.le, hcustom, List.map_nil,
    List.append_nil, delRange, Option.bind_some, hj] at h
  have hsub := delRange_erase h
  have hlen : ((markedFile t a b).commonRecords ++
      (t.gAkCfgFile.drop a).map TCfgFile.verRecord ++
      List.replicate (min b t.gAkCfgFileCustom.length) keep).length =
      t.gAkCfgFile.length + t.gAkCfgFileCustom.length := by
    simp only [List.length_append, (markedFile t a b).common_length, List.length_map,
      List.length_drop, List.length_replicate]
    omega
  have hcut : (markedFile t a b).customRecords =
      List.replicate (min b t.gAkCfgFileCustom.length) keep ++ List.replicate (j + 1) gone := by
    simp only [markedFile, hj]
  rw [hcut, ← List.append_assoc, List.eraseIdx_append_of_lt_length (by omega)] at hsub
  have hkept := sublist_of_notMem hsub (by
    intro r hr
    rw [List.eq_of_mem_replicate hr]
    exact gone_notMem_target t a b)
  have hle := hkept.length_le
  rw [length_targetRecords, List.length_eraseIdx_of_lt (by omega), hlen] at hle
  omega

theorem not_edited_of_shrunk_custom (t : Tables) (v : AlignedFile a b)
    (hm : a = t.gAkCfgFile.length) (hn : t.gAkCfgFileCustom.length + 2 ≤ b) :
    editedRecords t a b v.records = none := by
  obtain ⟨j, hj⟩ : ∃ j, b - t.gAkCfgFileCustom.length = j + 1 :=
    ⟨b - t.gAkCfgFileCustom.length - 1, by omega⟩
  have hcustom : t.gAkCfgFileCustom.drop b = [] := List.drop_eq_nil_of_le (by omega)
  have hcommon : t.gAkCfgFile.drop a = [] := List.drop_eq_nil_of_le (by omega)
  rw [editedRecords, addRanges_eq t v hm.le, Nat.sub_eq_zero_of_le hm.le, hcustom, hcommon,
    List.map_nil, List.append_nil, List.append_nil, delRange, Option.bind_some, hj]
  apply delRange_eq_none
  rw [List.length_append, v.common_length, v.custom_length]
  omega

/-- Both tables shrunk: the last loop counts from the old number of common lids. -/
theorem not_edited_of_shrunk (t : Tables) (v : AlignedFile a b) (hm : t.gAkCfgFile.length < a)
    (hn : t.gAkCfgFileCustom.length < b) : editedRecords t a b v.records = none := by
  obtain ⟨j, hj⟩ : ∃ j, b - t.gAkCfgFileCustom.length = j + 1 :=
    ⟨b - t.gAkCfgFileCustom.length - 1, by omega⟩
  have hcustom : t.gAkCfgFileCustom.drop b = [] := List.drop_eq_nil_of_le (by omega)
  rw [editedRecords, addRanges_of_gt t v hm.le, hcustom, List.map_nil, List.append_nil,
    List.take_append_drop]
  cases hd : delRange t.gAkCfgFile.length (a - t.gAkCfgFile.length) v.records with
  | none => rfl
  | some l =>
    have hlen := delRange_length hd
    rw [length_records] at hlen
    rw [Option.bind_some, hj]
    apply delRange_eq_none
    omega

/-- Two common lids fewer: the record between the first two removals stays. -/
theorem not_edited_of_shrunk_common (t : Tables) (hm : t.gAkCfgFile.length + 2 ≤ a)
    (hn : b = t.gAkCfgFileCustom.length) :
    editedRecords t a b (markedFile t a b).records ≠ some ((markedFile t a b).targetRecords t) := by
  intro h
  obtain ⟨j, hj⟩ : ∃ j, a - t.gAkCfgFile.length = j + 1 := ⟨a - t.gAkCfgFile.length - 1, by omega⟩
  have hcustom : t.gAkCfgFileCustom.drop b = [] := List.drop_eq_nil_of_le (by omega)
  rw [editedRecords, addRanges_of_gt t _ (by omega), hcustom, List.map_nil, List.append_nil,
    List.take_append_drop, hn, Nat.sub_self, hj, delRange, ← hn,
    if_pos (by rw [length_records]; omega)] at h
  cases hd : delRange (t.gAkCfgFile.length + 1) j
      ((markedFile t a b).records.eraseIdx t.gAkCfgFile.length) with
  | none =>
    rw [hd] at h
    cases h
  | some l =>
    rw [hd, Option.bind_some, delRange] at h
    have htake := delRange_take hd
    have hgone : l[t.gAkCfgFile.length]? = some gone := by
      rw [← List.getElem?_take_of_lt (Nat.lt_succ_self t.gAkCfgFile.length), htake,
        List.getElem?_take_of_lt (Nat.lt_succ_self _), List.getElem?_eraseIdx_of_ge le_rfl]
      exact marked_gone t a b (by omega) (by omega)
    rw [Option.some.inj h] at hgone
    exact gone_notMem_target t a b (List.mem_of_getElem? hgone)

/-- Shrunk common and grown custom tables: the new records come before old ones. -/
theorem not_edited_of_shifted (t : Tables) (hb : 1 ≤ b) (hm : t.gAkCfgFile.length < a)
    (hn : b < t.gAkCfgFileCustom.length) :
    editedRecords t a b (markedFile t a b).records ≠ some ((markedFile t a b).targetRecords t) := by
  intro h
  have hcommon : t.gAkCfgFile.drop a = [] := List.drop_eq_nil_of_le (by omega)
  have hnew : (t.gAkCfgFileCustom.drop b).map TCfgFile.verRecord ≠ [] := by
    simp only [ne_eq, List.map_eq_nil_iff, List.drop_eq_nil_iff]
    omega
  obtain ⟨new, x, hx⟩ : ∃ new x,
      (t.gAkCfgFileCustom.drop b).map TCfgFile.verRecord = new ++ [x] :=
    ⟨_, _, (List.dropLast_append_getLast hnew).symm⟩
  obtain ⟨f, _, hf⟩ : ∃ f ∈ t.gAkCfgFileCustom.drop b, f.verRecord = x :=
    List.mem_map.mp (hx ▸ List.mem_append_right _ List.mem_cons_self)
  rw [editedRecords, addRanges_of_gt t _ (by omega)] at h
  cases hd : delRange t.gAkCfgFile.length (a - t.gAkCfgFile.length)
      ((markedFile t a b).records.take (t.gAkCfgFile.length + b) ++
        (t.gAkCfgFileCustom.drop b).map TCfgFile.verRecord ++
        (markedFile t a b).records.drop (t.gAkCfgFile.length + b)) with
  | none =>
    rw [hd] at h
    cases h
  | some l =>
    rw [hd, Option.bind_some, Nat.sub_eq_zero_of_le hn.le, delRange] at h
    have hsub := delRange_sublist hd
    have htarget : l = List.replicate (min a t.gAkCfgFile.length) keep ++
        List.replicate (min b t.gAkCfgFileCustom.length) keep ++ (new ++ [x]) := by
      rw [Option.some.inj h, marked_target, hcommon, List.map_nil, List.append_nil, hx,
        List.append_assoc]
    have hold : x ∉ (markedFile t a b).records.drop (t.gAkCfgFile.length + b) := by
      intro hm
      rcases marked_junk t a b x (List.drop_subset _ _ hm) with hk | hg
      · exact verRecord_ne_junk f (by decide) (hf.trans hk)
      · exact verRecord_ne_junk f (by decide) (hf.trans hg)
    rw [htarget, hx] at hsub
    have hkeep := front_eq_of_sublist hsub hold (by
      rw [List.length_append, List.length_replicate, List.length_replicate, List.length_take,
        length_records]
      omega)
    have hgone : gone ∈ (markedFile t a b).records.take (t.gAkCfgFile.length + b) := by
      have hlt : t.gAkCfgFile.length < t.gAkCfgFile.length + b := by omega
      have hget := marked_gone t a b le_rfl hm
      rw [← List.getElem?_take_of_lt hlt] at hget
      exact List.mem_of_getElem? hget
    rw [← hkeep] at hgone
    rcases List.mem_append.mp hgone with hg | hg
    · exact keep_ne_gone (List.eq_of_mem_replicate hg).symm
    · exact keep_ne_gone (List.eq_of_mem_replicate hg).symm

/-- The counts that the four loops serve: neither table shrank, or one of them lost its last
lid and the other is unchanged. -/
def CountsServed (t : Tables) (a b : ℕ) : Prop :=
  (a ≤ t.gAkCfgFile.length ∧ b ≤ t.gAkCfgFileCustom.length) ∨
    (a = t.gAkCfgFile.length ∧ b = t.gAkCfgFileCustom.length + 1) ∨
    (a = t.gAkCfgFile.length + 1 ∧ b = t.gAkCfgFileCustom.length)

theorem check_file_num_iff (t : Tables) (ha : 1 ≤ a) (hb : 1 ≤ b) :
    KeepsAlignment t a b ↔ CountsServed t a b := by
  rw [keepsAlignment_iff t ha hb]
  constructor
  · intro h
    have hv := h (markedFile t a b)
    by_contra hc
    simp only [CountsServed, not_or, not_and] at hc
    obtain ⟨hgrown, hcustom, hcommon⟩ := hc
    rcases Nat.lt_trichotomy a t.gAkCfgFile.length with hm | hm | hm
    · exact not_edited_of_mixed t hm (by have := hgrown hm.le; omega) hv
    · have := hgrown hm.le
      have := hcustom hm
      rw [not_edited_of_shrunk_custom t _ hm (by omega)] at hv
      cases hv
    · rcases Nat.lt_trichotomy b t.gAkCfgFileCustom.length with hn | hn | hn
      · exact not_edited_of_shifted t hb hm hn hv
      · exact not_edited_of_shrunk_common t (by
          by_contra hlt
          exact hcommon (by omega) hn) hn hv
      · rw [not_edited_of_shrunk t _ hm hn] at hv
        cases hv
  · rintro (⟨hm, hn⟩ | ⟨hm, hn⟩ | ⟨hm, hn⟩) v
    · exact edited_of_growth t v hm hn
    · exact edited_of_last_custom t v hm hn
    · exact edited_of_last_common t v hm hn

theorem smallTables_grown : KeepsAlignment smallTables 1 1 :=
  (check_file_num_iff smallTables (by decide) (by decide)).mpr (Or.inl ⟨by decide, by decide⟩)

/-- One common lid fewer and one custom lid more: the new custom record is put before the old. -/
theorem shifted_custom_misplaced : ¬ ∀ (t : Tables) (a b : ℕ), 1 ≤ a → 1 ≤ b →
    KeepsAlignment t a b := by
  intro h
  have hv := (keepsAlignment_iff smallTables (by decide) (by decide)).mp
    (h smallTables 3 1 (by decide) (by decide)) (markedFile smallTables 3 1)
  revert hv
  decide

end Nvram
