import VendorMediatek.SessionKeeps

/-!
# What is written in a session stays written

A session that opens a data file for writing, writes to its payload in place and closes it seals
the file, and with a generated version file no later session for reading, on any lid,
changes the payload.
-/

namespace Nvram

open ByteFile

structure ReadSession where
  lid : ℕ
  getEnv : Surroundings
  closeEnv : Surroundings

def ReadSession.run (p : Platform) (d : Disk) (s : ReadSession) : Disk :=
  let opened := nvmGetFileDesc p s.getEnv s.lid true d
  (nvmCloseFileDesc p s.closeEnv opened.1 opened.2).2

/-- Writes of data at offsets, through the descriptor of the lid. -/
def writeAll (lid : ℕ) (writes : List (ℕ × List UInt8)) (d : Disk) : Disk :=
  writes.foldl (fun d w => writeThrough lid w.1 w.2 d) d

/-- The version file is up to date and the file of the lid is a sealed payload. -/
structure SealedFile (p : Platform) (lid : ℕ) (f : TCfgFile) (payload : List UInt8) (d : Disk) :
    Prop where
  current : Current p.tables d
  file : d lid = some (sealPayload payload)
  size : payload.length = f.contentSize

variable {p : Platform} {lid : ℕ} {f : TCfgFile}

theorem SealedFile.payloadOf {payload : List UInt8} {d : Disk}
    (h : SealedFile p lid f payload d) : payloadOf f lid d = some payload := by
  rw [Nvram.payloadOf, h.file, Option.map_some, ← h.size, sealPayload_take]

/-! ## Writing -/

/-- While the file is open for writing. -/
structure OpenFile (p : Platform) (lid : ℕ) (f : TCfgFile) (d : Disk) : Prop where
  current : Current p.tables d
  file : ∃ file, d lid = some file ∧ nvmCheckFileSize f file = 1

theorem openFile_get (hn : DistinctBasenames p.tables) (hf : p.tables.cfgFile lid = some f)
    (hspecial : lid ∉ p.specialLids) (hperf : lid ∉ p.aPerformance)
    (htype : f.stDefualType ≠ .multipleDefualtRec) {d : Disk} (hc : Current p.tables d)
    {env : Surroundings} {isRead : Bool} {fileId : FId}
    (hget : (nvmGetFileDesc p env lid isRead d).1 = some fileId) :
    OpenFile p lid f (nvmGetFileDesc p env lid isRead d).2 := by
  obtain ⟨hlid, hname⟩ := nvmGetFileDesc_filed hf hspecial hperf hget
  obtain ⟨_, file, hfile, hchecked⟩ := nvmGetFileDesc_checked hlid hf hspecial hname hperf hget
  constructor
  · exact (keeps_get hn hc env lid _ (fun h => absurd h hspecial)).current
  · exact ⟨file, hfile, hchecked.sealed_size htype⟩

theorem OpenFile.write (hlid : lid ≠ iFileVerInfoLid) {d : Disk} (h : OpenFile p lid f d) {off : ℕ}
    {data : List UInt8} (hfit : off + data.length ≤ f.contentSize) :
    OpenFile p lid f (writeThrough lid off data d) := by
  obtain ⟨file, hd, hsize⟩ := h.file
  constructor
  · exact h.current.write hlid _
  · refine ⟨writeAt file off data, ?_, ?_⟩
    · rw [writeThrough, Function.update_self, hd, Option.getD_some]
    · have hlen := nvmCheckFileSize_eq_one.mp hsize
      rw [nvmCheckFileSize_eq_one, length_writeAt (by omega), hlen]

theorem OpenFile.writes (hlid : lid ≠ iFileVerInfoLid) {writes : List (ℕ × List UInt8)}
    (hfit : ∀ w ∈ writes, w.1 + w.2.length ≤ f.contentSize) {d : Disk} (h : OpenFile p lid f d) :
    OpenFile p lid f (writeAll lid writes d) := by
  induction writes generalizing d with
  | nil => exact h
  | cons w writes ih =>
    have hfirst := h.write hlid (hfit w List.mem_cons_self)
    exact ih (fun w' hw => hfit w' (List.mem_cons_of_mem w hw)) hfirst

theorem OpenFile.close (hn : DistinctBasenames p.tables) (hf : p.tables.cfgFile lid = some f)
    (hlid : lid ≠ iFileVerInfoLid) (hname : f.cFileName ≠ reservedName)
    (hspecial : lid ∉ p.specialLids) (hperf : lid ∉ p.aPerformance) {d : Disk}
    (h : OpenFile p lid f d) (env : Surroundings) :
    (nvmCloseFileDesc p env (some ⟨lid, false⟩) d).1 = true ∧
      ∃ payload, payloadOf f lid d = some payload ∧
        SealedFile p lid f payload (nvmCloseFileDesc p env (some ⟨lid, false⟩) d).2 := by
  obtain ⟨file, hd, hsize⟩ := h.file
  have hne : nvmCheckFileSize f file ≠ -1 := by
    rw [hsize]
    decide
  have hs := hn.has_basename hf hname
  have hset := nvmProtectDataFile_set hlid hf env hd hne
  simp only [nvmCloseFileDesc, hspecial, hperf, false_or, Bool.false_eq_true, if_false, hset.1,
    decide_true, true_and]
  refine ⟨file.take f.contentSize, by rw [payloadOf, hd, Option.map_some], ?_⟩
  constructor
  · exact ((Keeps.refl h.current).protect hn hf hs env true).current
  · exact hset.2
  · exact (nvmSetCheckNo_seals hne).2

/-! ## Reading -/

theorem ReadSession.run_eq (s : ReadSession) (d : Disk) :
    s.run p d = (nvmGetFileDesc p s.getEnv s.lid true d).2 := by
  cases hid : (nvmGetFileDesc p s.getEnv s.lid true d).1 with
  | none => simp only [ReadSession.run, hid, nvmCloseFileDesc]
  | some fileId =>
    have hread := nvmGetFileDesc_id hid
    subst hread
    simp only [ReadSession.run, hid, nvmCloseFileDesc, or_true, if_true]

theorem SealedFile.session (hn : DistinctBasenames p.tables) (hf : p.tables.cfgFile lid = some f)
    (hlid : lid ≠ iFileVerInfoLid) (hname : f.cFileName ≠ reservedName)
    (hspecial : lid ∉ p.specialLids) (hperf : lid ∉ p.aPerformance) {payload : List UInt8}
    {d : Disk} (h : SealedFile p lid f payload d) (s : ReadSession) :
    SealedFile p lid f payload (s.run p d) := by
  have hkeeps := keeps_get hn h.current s.getEnv s.lid true (fun _ => rfl)
  rw [ReadSession.run_eq]
  constructor
  · exact hkeeps.current
  · by_cases hsame : s.lid = lid
    · rw [hsame]
      have hlen : nvmCheckFileSize f (sealPayload payload) = 1 := by
        rw [nvmCheckFileSize_eq_one, length_sealPayload, h.size]
      have hcmp := h.current.compares hf (hn.has_basename hf hname)
      have hget := nvmGetFileDesc_accepts hlid hf hspecial hname hperf s.getEnv true h.file
         (Or.inr ⟨hlen, nvmCheckFile_sealPayload payload⟩) (by rw [hcmp])
      rw [hget.2, ← h.size, sealPayload_take]
    · exact (hkeeps.others lid hlid (Ne.symm hsame)).trans h.file
  · exact h.size

theorem SealedFile.sessions (hn : DistinctBasenames p.tables) (hf : p.tables.cfgFile lid = some f)
    (hlid : lid ≠ iFileVerInfoLid) (hname : f.cFileName ≠ reservedName)
    (hspecial : lid ∉ p.specialLids) (hperf : lid ∉ p.aPerformance) {payload : List UInt8}
    {d : Disk} (h : SealedFile p lid f payload d) (sessions : List ReadSession) :
    SealedFile p lid f payload (sessions.foldl (ReadSession.run p) d) := by
  induction sessions generalizing d with
  | nil => exact h
  | cons s sessions ih => exact ih (h.session hn hf hlid hname hspecial hperf s)

/-- The written payload passes the check after closing and outlives all reading. -/
theorem written_payload_survives (hn : DistinctBasenames p.tables)
    (hf : p.tables.cfgFile lid = some f) (hspecial : lid ∉ p.specialLids)
    (hperf : lid ∉ p.aPerformance) (htype : f.stDefualType ≠ .multipleDefualtRec) {d : Disk}
    (hgenerated : ∃ before, d iFileVerInfoLid =
      nvmGenerateFileVer p.tables before iFileVerInfoLid)
    {getEnv : Surroundings} {fileId : FId}
    (hget : (nvmGetFileDesc p getEnv lid false d).1 = some fileId)
    {writes : List (ℕ × List UInt8)} (hfit : ∀ w ∈ writes, w.1 + w.2.length ≤ f.contentSize)
    (closeEnv : Surroundings) (sessions : List ReadSession) :
    let written := writeAll lid writes (nvmGetFileDesc p getEnv lid false d).2
    let closed := nvmCloseFileDesc p closeEnv (some fileId) written
    closed.1 = true ∧ ∃ file payload,
      closed.2 lid = some file ∧ nvmCheckFile file = true ∧
        payloadOf f lid written = some payload ∧
          payloadOf f lid (sessions.foldl (ReadSession.run p) closed.2) = some payload := by
  intro written closed
  obtain ⟨hlid, hname⟩ := nvmGetFileDesc_filed hf hspecial hperf hget
  have hid := nvmGetFileDesc_id hget
  subst hid
  have hcurrent : Current p.tables d := by
    obtain ⟨before, hgenerated⟩ := hgenerated
    obtain ⟨file, hfile, hversions⟩ := current_generate p.tables before
    exact ⟨file, hgenerated.trans hfile, hversions⟩
  have hopen := (openFile_get hn hf hspecial hperf htype hcurrent hget).writes hlid hfit
  obtain ⟨hclosed, payload, hpayload, hsealed⟩ :=
    hopen.close hn hf hlid hname hspecial hperf closeEnv
  exact ⟨hclosed, _, payload, hsealed.file, nvmCheckFile_sealPayload payload, hpayload,
    (hsealed.sessions hn hf hlid hname hspecial hperf sessions).payloadOf⟩

/-! ## One byte in the file of a lid -/

theorem smallTables_distinct : DistinctBasenames smallTables := by
  have hlt : ∀ {lid f}, smallTables.cfgFile lid = some f → lid < 4 := by
    intro lid f hf
    rw [Tables.cfgFile_eq] at hf
    exact (List.getElem?_eq_some_iff.mp hf).1
  have hnames : ∀ i < 4, ∀ j < 4,
      (smallTables.cfgFile i).map TCfgFile.targetName =
        (smallTables.cfgFile j).map TCfgFile.targetName → i = j := by decide
  have hslash : ∀ i < 4, ∀ f ∈ smallTables.cfgFile i, slash ∈ f.cFileName := by decide
  constructor
  · intro lid f hf _
    exact hslash lid (hlt hf) f hf
  · intro lid lid' f f' hf hf' _ _ hname
    apply hnames lid (hlt hf) lid' (hlt hf')
    rw [hf, hf', Option.map_some, Option.map_some, hname]

def generatedDisk : Disk := nvmGenerateFileVer smallTables fun _ => none

set_option maxRecDepth 4000 in
theorem generatedDisk_opens : (nvmGetFileDesc smallPlatform quiet 1 false generatedDisk).1 =
    some ⟨1, false⟩ := by
  decide

/-- The file is created, and lids 1 and 2 are opened for reading afterwards. -/
theorem created_payload_survives :
    let written := writeAll 1 [(0, [7])] (nvmGetFileDesc smallPlatform quiet 1 false
      generatedDisk).2
    let closed := nvmCloseFileDesc smallPlatform quiet (some ⟨1, false⟩) written
    closed.1 = true ∧ ∃ file payload,
      closed.2 1 = some file ∧ nvmCheckFile file = true ∧
        payloadOf (smallFile 66 (by decide)) 1 written = some payload ∧
          payloadOf (smallFile 66 (by decide)) 1
            ([⟨1, quiet, quiet⟩, ⟨2, quiet, quiet⟩].foldl (ReadSession.run smallPlatform)
              closed.2) = some payload :=
  written_payload_survives (p := smallPlatform) (f := smallFile 66 (by decide)) (d := generatedDisk)
    smallTables_distinct rfl (by decide) (by decide) (by decide)
    ⟨fun _ => none, rfl⟩ generatedDisk_opens (by decide) quiet _

end Nvram
