import VendorMediatek.ConvertAll
import VendorMediatek.SessionPayload

/-!
# The NVRAM as a store

Any number of clients open, write and close the files of all lids and have their versions
read and checked. Between two starts of the system all clients are gone, and
`NVM_DataVerConvertAll` goes over the files.
-/

namespace Nvram.Store

open ByteFile LabelledRuns

/-- The record id may be the number of the records itself. -/
def nvmCheckFileId (t : Tables) (lid : ℕ) (recId : ℤ) : Bool :=
  match t.cfgFile lid with
  | none => false
  | some f => ¬ (recId > f.i4RecNum ∨ lid ≥ t.iNvRamFileMaxLid)

def nvmCheckFileInfo (p : Platform) (lid : ℕ) (recId : ℤ) (d : Disk) : Bool × Disk :=
  if nvmCheckFileId p.tables lid recId then
    if (d iFileVerInfoLid).isSome then
      let compared := cmpFileVer p.tables lid d
      if ¬ compared.1 then nvmResetFileToDefault p lid compared.2
      else if compared.2 lid = none then nvmResetFileToDefault p lid compared.2
      else (true, compared.2)
    else nvmResetFileToDefault p lid (nvmGenerateFileVer p.tables d)
  else (false, d)

/-- `store` is what the component is for: the payload that was found when a file was first opened,
with all writes since. It and `unsaved`, the lids that are written since they were last
closed, are not kept by the code. -/
structure State where
  disk : Disk
  opened : List FId
  store : ℕ → Option (List UInt8)
  unsaved : ℕ → Bool

def initial (d : Disk) : State := ⟨d, [], fun _ => none, fun _ => false⟩

inductive Event where
  | getFileDesc (lid : ℕ) (isRead : Bool) (env : Surroundings)
  | write (fileId : FId) (off : ℕ) (data : List UInt8)
  | closeFileDesc (fileId : FId) (env : Surroundings)
  | readFileVerInfo (lid : ℕ) (env : Surroundings)
  | checkFileInfo (lid : ℕ) (recId : ℤ)
  | restart (iOldCommonFileNum iOldCustomFileNum : ℕ) (env : ℕ → Surroundings)

variable (p : Platform)

def Enabled (s : State) : Event → Prop
  | .write fileId _ _ => fileId ∈ s.opened ∧ fileId.bIsRead = false
  | .closeFileDesc fileId _ => fileId ∈ s.opened
  | _ => True

instance (s : State) : ∀ e, Decidable (Enabled s e)
  | .write _ _ _ => inferInstanceAs (Decidable (_ ∧ _))
  | .closeFileDesc _ _ => inferInstanceAs (Decidable (_ ∈ _))
  | .getFileDesc _ _ _ | .readFileVerInfo _ _ => isTrue trivial
  | .checkFileInfo _ _ | .restart _ _ _ => isTrue trivial

/-- What is found in the file of a lid, but for a special lid. -/
def found (lid : ℕ) (d : Disk) : Option (List UInt8) :=
  if lid ∈ p.specialLids then none else (p.tables.cfgFile lid).bind fun f => payloadOf f lid d

def opens (s : State) (lid : ℕ) (got : Option FId × Disk) : State :=
  match got.1 with
  | none => { s with disk := got.2 }
  | some fileId =>
    { s with
      disk := got.2
      opened := fileId :: s.opened
      store := Function.update s.store lid ((s.store lid).or (found p lid got.2)) }

/-- A conversion whose behaviour is undefined leaves the disk here. -/
def next (s : State) : Event → State
  | .getFileDesc lid isRead env => opens p s lid (nvmGetFileDesc p env lid isRead s.disk)
  | .write fileId off data =>
    let lid := fileId.ifileLid
    { s with
      disk := writeThrough lid off data s.disk
      store := Function.update s.store lid ((s.store lid).map fun payload =>
        writeAt payload off data)
      unsaved := Function.update s.unsaved lid true }
  | .closeFileDesc fileId env =>
    { s with
      disk := (nvmCloseFileDesc p env (some fileId) s.disk).2
      opened := s.opened.erase fileId
      unsaved := if fileId.bIsRead then s.unsaved
        else Function.update s.unsaved fileId.ifileLid false }
  | .readFileVerInfo lid env => { s with disk := (nvmReadFileVerInfo p env lid s.disk).2 }
  | .checkFileInfo lid recId => { s with disk := (nvmCheckFileInfo p lid recId s.disk).2 }
  | .restart common custom env =>
    { s with
      disk := match nvmDataVerConvertAll p env common custom s.disk with
        | some result => result.2
        | none => s.disk
      opened := [] }

def system : System State Event := ⟨Enabled, next p⟩

instance (s : State) (e : Event) : Decidable ((system p).Enabled s e) :=
  inferInstanceAs (Decidable (Enabled s e))

/-- The lid has a file of its own. -/
def HasFile (lid : ℕ) : Prop :=
  lid ∉ p.specialLids ∧ ∀ f ∈ p.tables.cfgFile lid, f.cFileName ≠ reservedName

/-- A file with unsaved writes is opened again only while it can be accepted as it is. Writes are
within the payload, versions are asked of lids with a file, and from one
start to the next the tables stay the same. -/
def Orderly (s : State) : Event → Prop
  | .getFileDesc lid _ _ => s.unsaved lid = true → lid ∉ p.aPerformance →
      ∀ f ∈ p.tables.cfgFile lid, ∀ file ∈ s.disk lid, Acceptable f file
  | .write fileId off data =>
      ∀ f ∈ p.tables.cfgFile fileId.ifileLid, off + data.length ≤ f.contentSize
  | .closeFileDesc _ _ => True
  | .readFileVerInfo lid _ => HasFile p lid
  | .checkFileInfo lid _ => HasFile p lid
  | .restart common custom _ => common = p.tables.iCustomBeginLid ∧
      custom = p.tables.iNvRamFileMaxLid - p.tables.iCustomBeginLid

instance (lid : ℕ) : Decidable (HasFile p lid) := by
  unfold HasFile
  infer_instance

instance (s : State) : ∀ e, Decidable (Orderly p s e)
  | .getFileDesc _ _ _ => inferInstanceAs (Decidable (_ → _ → _))
  | .write _ _ _ => inferInstanceAs (Decidable (∀ f ∈ _, _))
  | .closeFileDesc _ _ => isTrue trivial
  | .readFileVerInfo lid _ | .checkFileInfo lid _ => inferInstanceAs (Decidable (HasFile p lid))
  | .restart _ _ _ => inferInstanceAs (Decidable (_ ∧ _))

/-- What every file that is open or was once opened holds is what is stored under its lid. Where
nothing is unsaved the file passes its check and can be opened again at any time. -/
structure Intact (s : State) : Prop where
  stored : ∀ fileId ∈ s.opened, fileId.ifileLid ∉ p.specialLids →
    (s.store fileId.ifileLid).isSome
  kept : ∀ lid payload, s.store lid = some payload → ∃ f, p.tables.cfgFile lid = some f ∧
    payloadOf f lid s.disk = some payload ∧
    (s.unsaved lid = false →
      (lid ∉ p.aPerformance → ∀ file ∈ s.disk lid, nvmCheckFile file = true) ∧
      ∀ env isRead, (nvmGetFileDesc p env lid isRead s.disk).1 = some ⟨lid, isRead⟩)

/-- The version file is neither a special lid's nor without check bytes, and no special lid
is reserved. -/
structure Proper : Prop where
  distinct : DistinctBasenames p.tables
  version_special : iFileVerInfoLid ∉ p.specialLids
  version_checked : iFileVerInfoLid ∉ p.aPerformance
  special_named : ∀ lid ∈ p.specialLids, ∀ f ∈ p.tables.cfgFile lid, f.cFileName ≠ reservedName

/-- No reserved lid has a file. -/
def Unreserved (d : Disk) : Prop :=
  ∀ lid f, p.tables.cfgFile lid = some f → f.cFileName = reservedName → d lid = none

/-! ## What each call does to a disk with an up-to-date version file -/

section Calls

variable {p : Platform} {lid : ℕ} {f : TCfgFile} {d : Disk}

/-- A call that leaves the file of its lid as it is where there is one. -/
structure LeavesFiles (p : Platform) (lid : ℕ) (d d' : Disk) : Prop where
  keeps : Keeps p.tables lid d d'
  own : (d lid).isSome → d' = d

theorem keeps_getFileDesc (hp : Proper p) (h : Current p.tables d) (env : Surroundings) (lid : ℕ)
    (isRead : Bool) : Keeps p.tables lid d (nvmGetFileDesc p env lid isRead d).2 := by
  by_cases hspecial : lid ∈ p.specialLids
  · have hlid : lid ≠ iFileVerInfoLid := fun he => hp.version_special (he ▸ hspecial)
    unfold nvmGetFileDesc
    cases p.tables.cfgFile lid with
    | none => exact Keeps.refl h
    | some f =>
      simp only [hspecial, if_true, solveSpecialLid]
      split
      · -- the region is erased, or it is left as it is
        dsimp only
        split
        · exact Keeps.refl h
        · exact (Keeps.refl h).write hlid _
      · exact Keeps.refl h
  · exact keeps_get hp.distinct h env lid isRead fun hs => absurd hs hspecial

theorem leaves_readFileVerInfo (hp : Proper p) (h : Current p.tables d) (hfile : HasFile p lid)
    (env : Surroundings) : LeavesFiles p lid d (nvmReadFileVerInfo p env lid d).2 := by
  cases hf : p.tables.cfgFile lid with
  | none =>
    simp only [nvmReadFileVerInfo, hf]
    exact ⟨Keeps.refl h, fun _ => rfl⟩
  | some f =>
    have hs := hp.distinct.has_basename hf (hfile.2 f hf)
    have hsnd : (nvmReadFileVerInfo p env lid d).2 =
        if d lid = none then (nvmResetFileToDefault p lid d).2 else d := by
      obtain ⟨file, hv, _⟩ := id h
      simp only [nvmReadFileVerInfo, hf, hv, Option.isSome_some, if_true, h.compares hf hs,
        true_and, bringUpToDate_current hf hs h]
      split <;> split <;> rfl
    rw [hsnd]
    split
    · rename_i hd
      exact ⟨(Keeps.refl h).reset hp.distinct hf hs, by simp [hd]⟩
    · exact ⟨Keeps.refl h, fun _ => rfl⟩

theorem leaves_checkFileInfo (hp : Proper p) (h : Current p.tables d) (hfile : HasFile p lid)
    (recId : ℤ) : LeavesFiles p lid d (nvmCheckFileInfo p lid recId d).2 := by
  unfold nvmCheckFileInfo
  split
  · cases hf : p.tables.cfgFile lid with
    | none =>
      rename_i hid
      simp [nvmCheckFileId, hf] at hid
    | some f =>
      have hs := hp.distinct.has_basename hf (hfile.2 f hf)
      obtain ⟨file, hv, _⟩ := id h
      simp only [hv, Option.isSome_some, if_true, h.compares hf hs, not_true_eq_false, if_false]
      split
      · rename_i hd
        exact ⟨(Keeps.refl h).reset hp.distinct hf hs, by simp [hd]⟩
      · exact ⟨Keeps.refl h, fun _ => rfl⟩
  · exact ⟨Keeps.refl h, fun _ => rfl⟩

theorem convertLoop_current (hp : Proper p) (h : Current p.tables d) (hd : Unreserved p d)
    (env : ℕ → Surroundings) (lids : List ℕ) (bWrongFileVer : Bool) :
    (convertLoop p env lids bWrongFileVer d).2 = d := by
  induction lids generalizing bWrongFileVer with
  | nil => rfl
  | cons lid lids ih =>
    rw [convertLoop]
    cases hf : p.tables.cfgFile lid with
    | none => rfl
    | some f =>
      dsimp only
      cases hfile : d lid with
      | none => exact ih _
      | some file =>
        have hname : f.cFileName ≠ reservedName := by
          intro hname
          have hnone := hd lid f hf hname
          rw [hfile] at hnone
          cases hnone
        simp only [h.compares hf (hp.distinct.has_basename hf hname), if_true]
        exact ih _

theorem convertAll_current (hp : Proper p) (h : Current p.tables d) (hd : Unreserved p d)
    (env : ℕ → Surroundings) :
    ∃ ok, nvmDataVerConvertAll p env p.tables.iCustomBeginLid
      (p.tables.iNvRamFileMaxLid - p.tables.iCustomBeginLid) d = some (ok, d) := by
  unfold nvmDataVerConvertAll
  split
  · exact ⟨true, rfl⟩
  · rename_i hcounts
    obtain ⟨file, hv, _⟩ := id h
    have hnum : nvmCheckFileNum p.tables p.tables.iCustomBeginLid
        (p.tables.iNvRamFileMaxLid - p.tables.iCustomBeginLid) file = some (true, file) := by
      simp only [nvmCheckFileNum, hcounts, if_false, and_self, if_true]
    have hsame : Function.update d iFileVerInfoLid (some file) = d := by
      rw [← hv, Function.update_eq_self]
    simp only [hv, hnum, hsame]
    exact ⟨_, congrArg some (Prod.ext rfl (convertLoop_current hp h hd env _ _))⟩

/-- The lid stands for a data file. -/
structure Filed (p : Platform) (lid : ℕ) (f : TCfgFile) : Prop where
  entry : p.tables.cfgFile lid = some f
  own : lid ∉ p.specialLids
  data : lid ≠ iFileVerInfoLid
  named : f.cFileName ≠ reservedName

theorem get_unchecked (hp : Proper p) (h : Current p.tables d) (hf : Filed p lid f)
    (hperf : lid ∈ p.aPerformance) (hd : (d lid).isSome) (env : Surroundings) (isRead : Bool) :
    nvmGetFileDesc p env lid isRead d = (some ⟨lid, isRead⟩, d) := by
  obtain ⟨file, hfile⟩ := Option.isSome_iff_exists.mp hd
  have hs := hp.distinct.has_basename hf.entry hf.named
  simp only [nvmGetFileDesc, hf.entry, hf.own, hf.named, prepareFile, hfile,
    bringUpToDate_current hf.entry hs h, hperf, if_true, if_false]

theorem checked_acceptable {file : List UInt8} (h : Checked f file) : Acceptable f file := by
  rcases nvmCheckFileSize_cases f file with h0 | h1 | hbad
  · exact Or.inl h0
  · exact Or.inr ⟨h1, h.check⟩
  · exact absurd hbad h.size

theorem get_acceptable (hp : Proper p) (h : Current p.tables d) (hf : Filed p lid f)
    (hperf : lid ∉ p.aPerformance) {file : List UInt8} (hd : d lid = some file)
    (hok : Acceptable f file) (env : Surroundings) (isRead : Bool) :
    (nvmGetFileDesc p env lid isRead d).1 = some ⟨lid, isRead⟩ ∧
      (nvmGetFileDesc p env lid isRead d).2 lid = some (sealPayload (file.take f.contentSize)) := by
  have hs := hp.distinct.has_basename hf.entry hf.named
  have hcmp := h.compares hf.entry hs
  exact nvmGetFileDesc_accepts hf.data hf.entry hf.own hf.named hperf env isRead hd hok
    (by rw [hcmp])

theorem reset_present (hlid : lid ≠ iFileVerInfoLid) (hf : p.tables.cfgFile lid = some f)
    (h : (nvmResetFileToDefault p lid d).1 = true) :
    ((nvmResetFileToDefault p lid d).2 lid).isSome := by
  simp only [nvmResetFileToDefault, hf, hlid, if_false] at h ⊢
  cases hc : f.defaultContent with
  | none => simp [hc] at h
  | some content =>
    simp only
    split
    · simp only [updateFileVer_apart hlid, Function.update_self, Option.isSome_some]
    · simp only [Function.update_self, Option.isSome_some]

theorem prepare_present (h : Current p.tables d) (hlid : lid ≠ iFileVerInfoLid)
    (hf : p.tables.cfgFile lid = some f) (hs : slash ∈ f.cFileName) {env : Surroundings}
    (hok : (prepareFile p env lid f d).1 = true) : ((prepareFile p env lid f d).2 lid).isSome := by
  unfold prepareFile at hok ⊢
  cases hd : d lid with
  | some file =>
    dsimp only
    rw [bringUpToDate_current hf hs h]
    simp [hd]
  | none =>
    simp only [hd, bringIntoBeing] at hok ⊢
    generalize hr : (if env.nvmFlag ∧ lid ∈ p.aBackupToBinRegion.map Prod.fst then
      nvmRestoreFromBinRegionOneFile p env lid d else (false, d)) = restored at hok ⊢
    by_cases hrestored : restored.1 = true
    · rw [if_pos hrestored]
      split at hr
      · rw [← hr] at hrestored ⊢
        obtain ⟨file, -, hfile, -⟩ := nvmRestoreFromBinRegionOneFile_checked hlid hf hrestored
        simp [hfile]
      · rw [← hr] at hrestored
        cases hrestored
    · rw [if_neg hrestored] at hok ⊢
      exact reset_present hlid hf hok

/-- A lid that is opened has a data file, whose check bytes are right. -/
theorem get_found (hp : Proper p) (h : Current p.tables d) (hspecial : lid ∉ p.specialLids)
    {env : Surroundings} {isRead : Bool} {fileId : FId}
    (hget : (nvmGetFileDesc p env lid isRead d).1 = some fileId) :
    ∃ f, Filed p lid f ∧ ∃ file, (nvmGetFileDesc p env lid isRead d).2 lid = some file ∧
      (lid ∉ p.aPerformance → Checked f file) := by
  cases hf : p.tables.cfgFile lid with
  | none => simp [nvmGetFileDesc, hf] at hget
  | some f =>
    refine ⟨f, ?_⟩
    by_cases hperf : lid ∈ p.aPerformance
    · have hlid : lid ≠ iFileVerInfoLid := fun he => hp.version_checked (he ▸ hperf)
      have hname : f.cFileName ≠ reservedName := by
        intro hname
        simp [nvmGetFileDesc, hf, hspecial, hname] at hget
      refine ⟨⟨hf, hspecial, hlid, hname⟩, ?_⟩
      simp only [nvmGetFileDesc, hf, hspecial, hname, hperf, if_true, if_false] at hget ⊢
      have hprepared : (prepareFile p env lid f d).1 = true := by
        by_contra hno
        simp [hno] at hget
      have hpresent := prepare_present h hlid hf (hp.distinct.has_basename hf hname) hprepared
      obtain ⟨file, hfile⟩ := Option.isSome_iff_exists.mp hpresent
      rw [if_pos hprepared]
      exact ⟨file, hfile, fun hno => absurd trivial hno⟩
    · obtain ⟨hlid, hname⟩ := nvmGetFileDesc_filed hf hspecial hperf hget
      obtain ⟨-, file, hfile, hchecked⟩ :=
        nvmGetFileDesc_checked hlid hf hspecial hname hperf hget
      exact ⟨⟨hf, hspecial, hlid, hname⟩, file, hfile, fun _ => hchecked⟩

theorem get_writable (hp : Proper p) (h : Current p.tables d) {env : Surroundings}
    {isRead : Bool} {fileId : FId} (hget : (nvmGetFileDesc p env lid isRead d).1 = some fileId) :
    lid ≠ iFileVerInfoLid := by
  by_cases hspecial : lid ∈ p.specialLids
  · exact fun he => hp.version_special (he ▸ hspecial)
  · obtain ⟨f, hf, _⟩ := get_found hp h hspecial hget
    exact hf.data

theorem keeps_closeFileDesc (hp : Proper p) (h : Current p.tables d) {fileId : FId}
    (hf : ∀ f, p.tables.cfgFile fileId.ifileLid = some f → fileId.ifileLid ∉ p.specialLids →
      f.cFileName ≠ reservedName) (env : Surroundings) :
    Keeps p.tables fileId.ifileLid d (nvmCloseFileDesc p env (some fileId) d).2 := by
  simp only [nvmCloseFileDesc]
  split
  · exact Keeps.refl h
  · rename_i hwrite
    simp only [not_or] at hwrite
    cases hentry : p.tables.cfgFile fileId.ifileLid with
    | none =>
      simp only [nvmProtectDataFile, h.ensure, hentry]
      exact Keeps.refl h
    | some f =>
      have hs := hp.distinct.has_basename hentry (hf f hentry hwrite.1)
      exact (Keeps.refl h).protect hp.distinct hentry hs env true

end Calls

/-! ## What is stored is kept -/

section Keeping

/-- The file holds the payload. A file with check bytes can be sealed, and has the
right ones where nothing is unsaved. -/
def Holds (p : Platform) (lid : ℕ) (f : TCfgFile) (unsaved : Bool) (d : Disk)
    (payload : List UInt8) : Prop :=
  ∃ file, d lid = some file ∧ file.take f.contentSize = payload ∧
    (lid ∉ p.aPerformance → nvmCheckFileSize f file ≠ -1 ∧ (unsaved = false → Checked f file))

structure Invariant (p : Platform) (s : State) : Prop where
  current : Current p.tables s.disk
  unreserved : Unreserved p s.disk
  writable : ∀ fileId ∈ s.opened, fileId.ifileLid ≠ iFileVerInfoLid
  stored : ∀ fileId ∈ s.opened, fileId.ifileLid ∉ p.specialLids →
    (s.store fileId.ifileLid).isSome
  kept : ∀ lid payload, s.store lid = some payload →
    ∃ f, Filed p lid f ∧ Holds p lid f (s.unsaved lid) s.disk payload

variable {p : Platform} {lid : ℕ} {f : TCfgFile} {s : State} {d' : Disk}

theorem Holds.present {u : Bool} {d : Disk} {payload : List UInt8}
    (h : Holds p lid f u d payload) : (d lid).isSome := by
  obtain ⟨file, hd, _⟩ := h
  rw [hd]
  rfl

theorem Holds.frame {u : Bool} {d : Disk} {payload : List UInt8} (h : Holds p lid f u d payload)
    (he : d' lid = d lid) : Holds p lid f u d' payload := by
  obtain ⟨file, hd, hrest⟩ := h
  exact ⟨file, he.trans hd, hrest⟩

theorem holds_seal {file : List UInt8} (hsize : nvmCheckFileSize f file ≠ -1)
    (hd : d' lid = some (sealPayload (file.take f.contentSize))) (u : Bool) :
    Holds p lid f u d' (file.take f.contentSize) := by
  have hlen := (nvmSetCheckNo_seals hsize).2
  have hchecked := checked_sealPayload hlen
  have htake := sealPayload_take (file.take f.contentSize)
  rw [hlen] at htake
  exact ⟨_, hd, htake, fun _ => ⟨hchecked.size, fun _ => hchecked⟩⟩

theorem Holds.close {fileId : FId} (hf : Filed p fileId.ifileLid f) {unsaved : ℕ → Bool}
    {d : Disk} {payload : List UInt8}
    (h : Holds p fileId.ifileLid f (unsaved fileId.ifileLid) d payload) (env : Surroundings) :
    Holds p fileId.ifileLid f ((if fileId.bIsRead then unsaved
      else Function.update unsaved fileId.ifileLid false) fileId.ifileLid)
      (nvmCloseFileDesc p env (some fileId) d).2 payload := by
  by_cases hread : fileId.bIsRead = true
  · simp only [nvmCloseFileDesc, hread, or_true, if_true]
    exact h
  · obtain ⟨file, hd, rfl, hchecks⟩ := h
    simp only [nvmCloseFileDesc, hf.own, hread, if_false, false_or, or_false, Bool.false_eq_true]
    by_cases hperf : fileId.ifileLid ∈ p.aPerformance
    · rw [if_pos hperf]
      exact ⟨file, hd, rfl, fun hno => absurd hperf hno⟩
    · rw [if_neg hperf]
      obtain ⟨hsize, _⟩ := hchecks hperf
      exact holds_seal hsize (nvmProtectDataFile_set hf.data hf.entry env hd hsize).2 _

theorem Invariant.unreserved_call (h : Invariant p s) (hkeeps : Keeps p.tables lid s.disk d')
    (hown : ∀ f, p.tables.cfgFile lid = some f → f.cFileName = reservedName → d' lid = none) :
    Unreserved p d' := by
  intro lid' f hf hname
  have hnone := h.unreserved lid' f hf hname
  by_cases hver : lid' = iFileVerInfoLid
  · subst hver
    obtain ⟨file, hv, _⟩ := h.current
    rw [hnone] at hv
    cases hv
  · by_cases hsame : lid' = lid
    · subst hsame
      exact hown f hf hname
    · rw [hkeeps.others lid' hver hsame, hnone]

theorem Invariant.kept_call (h : Invariant p s) (hkeeps : Keeps p.tables lid s.disk d')
    {lid' : ℕ} (hne : lid' ≠ lid) {payload : List UInt8} (hs : s.store lid' = some payload) :
    ∃ f, Filed p lid' f ∧ Holds p lid' f (s.unsaved lid') d' payload := by
  obtain ⟨f, hf, hholds⟩ := h.kept lid' payload hs
  exact ⟨f, hf, hholds.frame (hkeeps.others lid' hf.data hne)⟩

theorem Invariant.leaves (h : Invariant p s) (hfile : HasFile p lid)
    (hleaves : LeavesFiles p lid s.disk d') : Invariant p { s with disk := d' } := by
  constructor
  · exact hleaves.keeps.current
  · exact h.unreserved_call hleaves.keeps fun f hf hname => absurd hname (hfile.2 f hf)
  · exact h.writable
  · exact h.stored
  · intro lid' payload hs
    by_cases hsame : lid' = lid
    · subst hsame
      obtain ⟨f, hf, hholds⟩ := h.kept lid' payload hs
      exact ⟨f, hf, hholds.frame (by rw [hleaves.own hholds.present])⟩
    · exact h.kept_call hleaves.keeps hsame hs

theorem initial_invariant {d : Disk} (h : Current p.tables d) (hd : Unreserved p d) :
    Invariant p (initial d) := by
  constructor
  · exact h
  · exact hd
  · intro fileId hopen
    cases hopen
  · intro fileId hopen
    cases hopen
  · intro lid payload hs
    cases hs

theorem Invariant.holds_get (hp : Proper p) (h : Invariant p s) {isRead : Bool}
    {env : Surroundings} (ho : Orderly p s (.getFileDesc lid isRead env)) (hf : Filed p lid f)
    {payload : List UInt8} (hholds : Holds p lid f (s.unsaved lid) s.disk payload) :
    (nvmGetFileDesc p env lid isRead s.disk).1 = some ⟨lid, isRead⟩ ∧
      Holds p lid f (s.unsaved lid) (nvmGetFileDesc p env lid isRead s.disk).2 payload := by
  by_cases hperf : lid ∈ p.aPerformance
  · rw [get_unchecked hp h.current hf hperf hholds.present]
    exact ⟨rfl, hholds⟩
  · obtain ⟨file, hd, rfl, hchecks⟩ := hholds
    obtain ⟨hsize, hsaved⟩ := hchecks hperf
    have hok : Acceptable f file := by
      by_cases hu : s.unsaved lid = true
      · exact ho hu hperf f hf.entry file hd
      · exact checked_acceptable (hsaved (Bool.eq_false_of_not_eq_true hu))
    obtain ⟨hget, hfile⟩ := get_acceptable hp h.current hf hperf hd hok env isRead
    exact ⟨hget, holds_seal hsize hfile _⟩

theorem holds_found (hp : Proper p) (h : Current p.tables s.disk) {isRead : Bool}
    {env : Surroundings} {fileId : FId}
    (hget : (nvmGetFileDesc p env lid isRead s.disk).1 = some fileId)
    (hspecial : lid ∉ p.specialLids) (u : Bool) :
    ∃ payload, found p lid (nvmGetFileDesc p env lid isRead s.disk).2 = some payload ∧
      ∃ f, Filed p lid f ∧ Holds p lid f u (nvmGetFileDesc p env lid isRead s.disk).2 payload := by
  obtain ⟨f, hf, file, hfile, hchecked⟩ := get_found hp h hspecial hget
  refine ⟨file.take f.contentSize, ?_, f, hf, file, hfile, rfl, fun hperf => ?_⟩
  · simp only [found, hspecial, if_false, hf.entry, Option.bind_some, payloadOf, hfile,
      Option.map_some]
  · exact ⟨(hchecked hperf).size, fun _ => hchecked hperf⟩

section Steps

variable (hp : Proper p) (h : Invariant p s)

include hp h

theorem getFileDesc_invariant {isRead : Bool} {env : Surroundings}
    (ho : Orderly p s (.getFileDesc lid isRead env)) :
    Invariant p (next p s (.getFileDesc lid isRead env)) := by
  have hkeeps := keeps_getFileDesc hp h.current env lid isRead
  have hunreserved : Unreserved p (nvmGetFileDesc p env lid isRead s.disk).2 := by
    apply h.unreserved_call hkeeps
    intro f hf hname
    by_cases hspecial : lid ∈ p.specialLids
    · exact absurd hname (hp.special_named lid hspecial f hf)
    · simp only [nvmGetFileDesc, hf, hspecial, hname, if_true, if_false]
      exact h.unreserved lid f hf hname
  have hstored : ∀ payload, s.store lid = some payload → ∃ f, Filed p lid f ∧
      Holds p lid f (s.unsaved lid) (nvmGetFileDesc p env lid isRead s.disk).2 payload := by
    intro payload hs
    obtain ⟨f, hf, hholds⟩ := h.kept lid payload hs
    exact ⟨f, hf, (h.holds_get hp ho hf hholds).2⟩
  cases hget : (nvmGetFileDesc p env lid isRead s.disk).1 with
  | none =>
    simp only [next, opens, hget]
    refine ⟨hkeeps.current, hunreserved, h.writable, h.stored, fun lid' payload hs => ?_⟩
    by_cases hsame : lid' = lid
    · subst hsame
      exact hstored payload hs
    · exact h.kept_call hkeeps hsame hs
  | some fileId =>
    obtain rfl := nvmGetFileDesc_id hget
    simp only [next, opens, hget]
    refine ⟨hkeeps.current, hunreserved, ?_, ?_, fun lid' payload hs => ?_⟩
    · exact List.forall_mem_cons.mpr ⟨get_writable hp h.current hget, h.writable⟩
    · -- the lid opened is stored now, and so are those stored before
      refine List.forall_mem_cons.mpr ⟨fun hspecial => ?_, fun other hopen hspecial => ?_⟩
      · obtain ⟨payload, hfound, _⟩ := holds_found hp h.current hget hspecial (s.unsaved lid)
        simp [hfound]
      · have hsome := h.stored other hopen hspecial
        by_cases hsame : other.ifileLid = lid
        · rw [hsame] at hsome ⊢
          simp [hsome]
        · simpa [hsame] using hsome
    · by_cases hsame : lid' = lid
      · subst hsame
        simp only [Function.update_self] at hs
        rcases Option.or_eq_some_iff.mp hs with hs | ⟨_, hfound⟩
        · exact hstored payload hs
        · have hspecial : lid' ∉ p.specialLids := by
            intro hspecial
            simp [found, hspecial] at hfound
          obtain ⟨payload', hfound', hholds⟩ :=
            holds_found hp h.current hget hspecial (s.unsaved lid')
          rw [hfound] at hfound'
          cases hfound'
          exact hholds
      · simp only [Function.update_of_ne hsame] at hs
        exact h.kept_call hkeeps hsame hs

omit hp in
theorem Invariant.named {fileId : FId} (hopen : fileId ∈ s.opened) {f : TCfgFile}
    (hf : p.tables.cfgFile fileId.ifileLid = some f) (hspecial : fileId.ifileLid ∉ p.specialLids) :
    f.cFileName ≠ reservedName := by
  obtain ⟨payload, hs⟩ := Option.isSome_iff_exists.mp (h.stored fileId hopen hspecial)
  obtain ⟨g, hg, _⟩ := h.kept _ payload hs
  have hentry := hg.entry
  rw [hf] at hentry
  cases hentry
  exact hg.named

theorem write_invariant {fileId : FId} {off : ℕ} {data : List UInt8}
    (he : Enabled s (.write fileId off data)) (ho : Orderly p s (.write fileId off data)) :
    Invariant p (next p s (.write fileId off data)) := by
  have hlid := h.writable fileId he.1
  have hkeeps : Keeps p.tables fileId.ifileLid s.disk
      (writeThrough fileId.ifileLid off data s.disk) := (Keeps.refl h.current).write hlid _
  refine ⟨hkeeps.current, ?_, h.writable, ?_, fun lid' payload hs => ?_⟩
  · apply h.unreserved_call hkeeps
    intro f hf hname
    by_cases hspecial : fileId.ifileLid ∈ p.specialLids
    · exact absurd hname (hp.special_named _ hspecial f hf)
    · exact absurd hname (h.named he.1 hf hspecial)
  · intro other hopen hspecial
    have hsome := h.stored other hopen hspecial
    simp only [next]
    by_cases hsame : other.ifileLid = fileId.ifileLid
    · rw [hsame] at hsome ⊢
      simp [hsome]
    · simpa [hsame] using hsome
  · by_cases hsame : lid' = fileId.ifileLid
    · subst hsame
      simp only [next, Function.update_self, Option.map_eq_some_iff] at hs
      obtain ⟨before, hbefore, rfl⟩ := hs
      obtain ⟨f, hf, file, hd, rfl, hchecks⟩ := h.kept _ before hbefore
      have hfit := ho f hf.entry
      refine ⟨f, hf, writeAt file off data, ?_, take_writeAt_within hfit, fun hperf => ?_⟩
      · simp only [next, writeThrough, Function.update_self, hd, Option.getD_some]
      · have hlen : (writeAt file off data).length = file.length := by
          apply length_writeAt
          rcases nvmCheckFileSize_cases f file with h0 | h1 | hbad
          · rw [nvmCheckFileSize_eq_zero.mp h0]
            exact hfit
          · rw [nvmCheckFileSize_eq_one.mp h1]
            omega
          · exact absurd hbad (hchecks hperf).1
        rw [nvmCheckFileSize, hlen]
        refine ⟨(hchecks hperf).1, ?_⟩
        simp [next]
    · simp only [next, Function.update_of_ne hsame] at hs ⊢
      exact h.kept_call hkeeps hsame hs

theorem closeFileDesc_invariant {fileId : FId} {env : Surroundings}
    (he : Enabled s (.closeFileDesc fileId env)) :
    Invariant p (next p s (.closeFileDesc fileId env)) := by
  have hkeeps := keeps_closeFileDesc hp h.current (fun f hf hspecial => h.named he hf hspecial) env
  refine ⟨hkeeps.current, ?_, ?_, ?_, fun lid' payload hs => ?_⟩
  · apply h.unreserved_call hkeeps
    intro f hf hname
    by_cases hspecial : fileId.ifileLid ∈ p.specialLids
    · exact absurd hname (hp.special_named _ hspecial f hf)
    · exact absurd hname (h.named he hf hspecial)
  · exact fun other hopen => h.writable other (List.mem_of_mem_erase hopen)
  · exact fun other hopen => h.stored other (List.mem_of_mem_erase hopen)
  · by_cases hsame : lid' = fileId.ifileLid
    · subst hsame
      obtain ⟨f, hf, hholds⟩ := h.kept _ payload hs
      exact ⟨f, hf, hholds.close hf env⟩
    · obtain ⟨f, hf, hholds⟩ := h.kept_call hkeeps hsame hs
      refine ⟨f, hf, ?_⟩
      simp only [next]
      split
      · exact hholds
      · rw [Function.update_of_ne hsame]
        exact hholds

theorem restart_invariant {common custom : ℕ} {env : ℕ → Surroundings}
    (ho : Orderly p s (.restart common custom env)) :
    Invariant p (next p s (.restart common custom env)) := by
  obtain ⟨rfl, rfl⟩ := ho
  obtain ⟨ok, hall⟩ := convertAll_current hp h.current h.unreserved env
  simp only [next, hall]
  exact ⟨h.current, h.unreserved, List.forall_mem_nil _, List.forall_mem_nil _, h.kept⟩

theorem next_invariant {e : Event} (he : Enabled s e) (ho : Orderly p s e) :
    Invariant p (next p s e) := by
  cases e with
  | getFileDesc lid isRead env => exact getFileDesc_invariant hp h ho
  | write fileId off data => exact write_invariant hp h he ho
  | closeFileDesc fileId env => exact closeFileDesc_invariant hp h he
  | readFileVerInfo lid env => exact h.leaves ho (leaves_readFileVerInfo hp h.current ho env)
  | checkFileInfo lid recId => exact h.leaves ho (leaves_checkFileInfo hp h.current ho recId)
  | restart common custom env => exact restart_invariant hp h ho

theorem Invariant.intact : Intact p s := by
  constructor
  · exact h.stored
  · intro lid payload hs
    obtain ⟨f, hf, hholds⟩ := h.kept lid payload hs
    refine ⟨f, hf.entry, ?_, fun hu => ⟨fun hperf file hfile => ?_, fun env isRead => ?_⟩⟩
    · obtain ⟨file, hd, rfl, _⟩ := hholds
      rw [payloadOf, hd, Option.map_some]
    · obtain ⟨file', hd, _, hchecks⟩ := hholds
      rw [hd] at hfile
      cases hfile
      exact ((hchecks hperf).2 hu).check
    · have ho : Orderly p s (.getFileDesc lid isRead env) := by
        intro hno
        rw [hu] at hno
        cases hno
      exact (h.holds_get hp ho hf hholds).1

end Steps

/-- In every orderly run what a file is found with and what is written to it is never lost, and a
file without unsaved writes can always be opened again. -/
theorem opened_files_intact (p : Platform) (hp : Proper p) {d : Disk}
    (hgenerated : ∃ before, d iFileVerInfoLid =
      nvmGenerateFileVer p.tables before iFileVerInfoLid)
    (hunreserved : Unreserved p d) {es : List Event} (legal : (system p).Legal (initial d) es)
    (orderly : (system p).Along (Orderly p) (initial d) es) :
    ∀ pre, pre <+: es → Intact p ((system p).run (initial d) pre) := by
  intro pre hpre
  have hcurrent : Current p.tables d := by
    obtain ⟨before, hgenerated⟩ := hgenerated
    obtain ⟨file, hfile, hversions⟩ := current_generate p.tables before
    exact ⟨file, hgenerated.trans hfile, hversions⟩
  have hi := invariant_run (system p) (I := Invariant p) (Q := Orderly p)
    (fun s e h he ho => next_invariant hp h he ho) (initial_invariant hcurrent hunreserved)
    (along_of_le _ legal hpre) (along_of_le _ orderly hpre)
  exact hi.intact hp

end Keeping

/-! ## A byte in a file of the root directory -/

theorem smallPlatform_proper : Proper smallPlatform := by
  constructor
  · exact smallTables_distinct
  · decide
  · decide
  · intro lid hspecial
    cases hspecial

theorem smallTables_lid {lid : ℕ} {f : TCfgFile} (hf : smallTables.cfgFile lid = some f) :
    lid < 4 := by
  rw [Tables.cfgFile_eq] at hf
  exact (List.getElem?_eq_some_iff.mp hf).1

theorem generatedDisk_unreserved : Unreserved smallPlatform generatedDisk := by
  have hnames : ∀ lid < 4, ∀ f ∈ smallTables.cfgFile lid, f.cFileName ≠ reservedName := by decide
  intro lid f hf hname
  exact absurd hname (hnames lid (smallTables_lid hf) f hf)

/-- A file is written while another is read, and both are opened again after a restart. -/
def writtenAndRestarted : List Event :=
  [.getFileDesc 1 false quiet, .getFileDesc 2 true quiet, .write ⟨1, false⟩ 0 [7],
    .readFileVerInfo 1 quiet, .checkFileInfo 3 0, .closeFileDesc ⟨1, false⟩ quiet,
    .restart 2 2 fun _ => quiet, .getFileDesc 1 true quiet, .getFileDesc 2 false quiet]

theorem writtenAndRestarted_legal :
    (system smallPlatform).Legal (initial generatedDisk) writtenAndRestarted := by
  decide +kernel

theorem writtenAndRestarted_orderly :
    (system smallPlatform).Along (Orderly smallPlatform) (initial generatedDisk)
      writtenAndRestarted := by
  decide +kernel

theorem written_byte_intact :
    (∀ pre, pre <+: writtenAndRestarted →
      Intact smallPlatform ((system smallPlatform).run (initial generatedDisk) pre)) ∧
    ((system smallPlatform).run (initial generatedDisk) writtenAndRestarted).store 1 = some [7] :=
  ⟨opened_files_intact smallPlatform smallPlatform_proper ⟨fun _ => none, rfl⟩
    generatedDisk_unreserved writtenAndRestarted_legal writtenAndRestarted_orderly,
    by decide +kernel⟩

end Nvram.Store
