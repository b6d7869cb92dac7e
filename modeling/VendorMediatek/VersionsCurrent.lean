import VendorMediatek.NvramSession

/-!
# Version files that are up to date

`NVM_GenerateFileVer` leaves a version file in which the slot of every lid holds the name and the
version of its table entry. With distinct basenames an update keeps it so.
-/

namespace Nvram

open ByteFile RecordFile SlotDirectory

structure DistinctBasenames (t : Tables) : Prop where
  has_basename : ∀ {lid f}, t.cfgFile lid = some f → f.cFileName ≠ reservedName →
    slash ∈ f.cFileName
  distinct : ∀ {lid lid' f f'}, t.cfgFile lid = some f → t.cfgFile lid' = some f' →
    slash ∈ f.cFileName → slash ∈ f'.cFileName → f.targetName = f'.targetName → lid = lid'

structure VersionsCurrent (t : Tables) (file : List UInt8) : Prop where
  header : bIsNewVerInfo file = true
  covers : ∀ {lid f}, t.cfgFile lid = some f → lid + 1 < (slots file).count
  name : ∀ {lid f}, t.cfgFile lid = some f → slash ∈ f.cFileName →
    (slots file).name (lid + 1) = f.targetName
  version : ∀ {lid f}, t.cfgFile lid = some f → slash ∈ f.cFileName →
    (slots file).value (lid + 1) = f.cFileVer

theorem Tables.cfgFile_eq (t : Tables) (lid : ℕ) :
    t.cfgFile lid = (t.gAkCfgFile ++ t.gAkCfgFileCustom)[lid]? := by
  rw [Tables.cfgFile, List.getElem?_append]
  rfl

variable {t : Tables} {file : List UInt8} {lid : ℕ} {f : TCfgFile}

theorem VersionsCurrent.compares (h : VersionsCurrent t file) (hf : t.cfgFile lid = some f)
    (hs : slash ∈ f.cFileName) : nvmCmpFileVerNo t lid file = true := by
  rw [nvmCmpFileVerNo_iff hf hs, recordedVer_new h.header,
    Directory.lookup_of_name (h.name hf hs), h.version hf hs]

/-- The record with the name of a lid is found, so an update overwrites it. -/
theorem VersionsCurrent.found (h : VersionsCurrent t file) (hf : t.cfgFile lid = some f)
    (hs : slash ∈ f.cFileName) :
    ∃ idx, (slots file).find f.targetName = some idx ∧
      updated f lid file = writeRecord f (idx * recordSize) file := by
  cases hfind : (slots file).find f.targetName with
  | none => exact absurd (h.name hf hs) (Directory.find_eq_none.mp hfind _ (h.covers hf))
  | some idx =>
    refine ⟨idx, rfl, ?_⟩
    rw [← findTarget_eq] at hfind
    simp only [updated, hfind, verUpdateInPlace, h.header, if_true]

theorem VersionsCurrent.updated (hn : DistinctBasenames t) (h : VersionsCurrent t file)
    (hf : t.cfgFile lid = some f) (hs : slash ∈ f.cFileName) :
    VersionsCurrent t (updated f lid file) := by
  obtain ⟨idx, hidx, hupdated⟩ := h.found hf hs
  have hslots : slots (Nvram.updated f lid file) =
      (slots file).put idx f.targetName f.cFileVer := by
    rw [hupdated, slots_writeRecord]
  have hname := Directory.name_put_found hidx f.cFileVer
  constructor
  · have hhead := hname 0
    rw [← hslots] at hhead
    have hnames : nameAt (Nvram.updated f lid file) (0 * recordSize) =
        nameAt file (0 * recordSize) := hhead
    rw [Nat.zero_mul] at hnames
    rw [bIsNewVerInfo, hnames]
    exact h.header
  · intro lid' f' hf'
    rw [hslots]
    exact (h.covers hf').trans_le (Nat.le_max_left _ _)
  · intro lid' f' hf' hs'
    rw [hslots, hname]
    exact h.name hf' hs'
  · intro lid' f' hf' hs'
    rw [hslots]
    by_cases hi : lid' + 1 = idx
    · have htarget : f'.targetName = f.targetName := by
        rw [← h.name hf' hs', hi]
        exact (Directory.find_eq_some.mp hidx).2.1
      have hlid := hn.distinct hf' hf hs' hs htarget
      subst hlid
      rw [hf] at hf'
      cases hf'
      rw [hi, Directory.value_put_at]
    · rw [Directory.value_put_of_ne _ _ _ hi]
      exact h.version hf' hs'

/-! ## A generated version file -/

theorem length_headerBytes (t : Tables) : (headerBytes t).length = recordSize := by
  have hname : (zeroPad fileNameLength strVerInfo).length = fileNameLength := by decide
  rw [headerBytes, List.length_append, hname, recordSize]
  cases hc : t.gAkCfgFile with
  | nil => rfl
  | cons f fs =>
    rw [List.map_cons, List.headD_cons, f.ver_length]

def headerOf (t : Tables) : VerRecord := ⟨headerBytes t, length_headerBytes t⟩

/-- The records that NVM_GenerateFileVer writes: the header, then an entry after the other. -/
def generatedRecords (t : Tables) : List VerRecord :=
  headerOf t :: (t.gAkCfgFile ++ t.gAkCfgFileCustom).map TCfgFile.verRecord

theorem generatedRecords_getElem {t : Tables} {lid : ℕ} {f : TCfgFile}
    (hf : t.cfgFile lid = some f) : ∃ hi : lid + 1 < (generatedRecords t).length,
      (generatedRecords t)[lid + 1] = f.verRecord := by
  rw [Tables.cfgFile_eq] at hf
  obtain ⟨hi, hget⟩ := List.getElem?_eq_some_iff.mp hf
  refine ⟨by simpa [generatedRecords] using hi, ?_⟩
  have hlt : lid < ((t.gAkCfgFile ++ t.gAkCfgFileCustom).map TCfgFile.verRecord).length := by
    rw [List.length_map]
    exact hi
  have hmap : ((t.gAkCfgFile ++ t.gAkCfgFileCustom).map TCfgFile.verRecord)[lid] = f.verRecord := by
    rw [List.getElem_map]
    exact congrArg TCfgFile.verRecord hget
  exact hmap

/-- What NVM_GenerateFileVer leaves of a file that stood there before. -/
theorem generated_current (t : Tables) (old : List UInt8) :
    VersionsCurrent t (writeAt old 0 (headerBytes t ++
      encode ((t.gAkCfgFile ++ t.gAkCfgFileCustom).map TCfgFile.verRecord))) := by
  change VersionsCurrent t (writeAt old 0 (encode (generatedRecords t)))
  have hlen : (encode (generatedRecords t)).length = (generatedRecords t).length * recordSize :=
    length_encode _
  constructor
  · have hhead := window_writeAt_encode (generatedRecords t) old (Nat.succ_pos _)
    rw [Nat.zero_mul] at hhead
    rw [bIsNewVerInfo_iff, ← take_window _ _ (by decide : headerLength ≤ recordSize)]
    have hname : headerLength ≤ (zeroPad fileNameLength strVerInfo).length := by decide
    change (window _ 0 (fileNameLength + fileVerLength)).take headerLength = _
    rw [hhead]
    change (headerBytes t).take headerLength = _
    rw [headerBytes, List.take_append_of_le_length hname]
    decide
  · intro lid f hf
    obtain ⟨hi, _⟩ := generatedRecords_getElem hf
    have hne : encode (generatedRecords t) ≠ [] := List.ne_nil_of_length_pos (by
      rw [hlen]
      exact Nat.mul_pos (Nat.succ_pos _) (by decide))
    have hsize : (lid + 2) * recordSize ≤
        (writeAt old 0 (encode (generatedRecords t))).length := by
      rw [length_writeAt_max hne, hlen, Nat.zero_add]
      exact le_max_of_le_right (Nat.mul_le_mul_right _ hi)
    exact (Nat.le_div_iff_mul_le (by decide)).mpr hsize
  · intro lid f hf _
    obtain ⟨hi, hget⟩ := generatedRecords_getElem hf
    have hslot := window_writeAt_encode (generatedRecords t) old hi
    exact (slot_record (hslot.trans (congrArg Subtype.val hget))).1
  · intro lid f hf _
    obtain ⟨hi, hget⟩ := generatedRecords_getElem hf
    have hslot := window_writeAt_encode (generatedRecords t) old hi
    exact (slot_record (hslot.trans (congrArg Subtype.val hget))).2

end Nvram
