import VendorMediatek.LabelledRuns
import VendorMediatek.SessionFrame

/-!
# Two sessions on one lid

A writer opens the file of a lid, writes to its payload in place and closes it, while
a visitor opens and closes the same file. The check bytes are set again only on closing, and
`NVM_GetFileDesc` restores or resets a file whose check bytes are wrong.
-/

namespace Nvram.SessionRace

open ByteFile LabelledRuns

inductive Client where
  | idle
  | holding (fileId : Option FId)
  | closed
  deriving DecidableEq, Repr

def Client.isHolding : Client → Bool
  | .holding _ => true
  | _ => false

/-- The descriptor is valid. -/
def Client.isOpen : Client → Bool
  | .holding (some _) => true
  | _ => false

/-- `payload` is what the writer's session makes of the payload it opened; the code does
not keep it. -/
structure State where
  disk : Disk
  writer : Client
  visitor : Client
  payload : Option (List UInt8)

def initial (d : Disk) : State := ⟨d, .idle, .idle, none⟩

inductive Event where
  | writerGet (env : Surroundings)
  | writerWrite (off : ℕ) (data : List UInt8)
  | writerClose (env : Surroundings)
  | visitorGet (env : Surroundings) (isRead : Bool)
  | visitorClose (env : Surroundings)

variable (p : Platform) (lid : ℕ) (f : TCfgFile)

def Enabled (s : State) : Event → Prop
  | .writerGet _ => s.writer = .idle
  | .writerWrite off data => s.writer.isOpen ∧ off + data.length ≤ f.contentSize
  | .writerClose _ => s.writer.isHolding
  | .visitorGet _ _ => s.visitor = .idle
  | .visitorClose _ => s.visitor.isHolding

instance (s : State) : ∀ e, Decidable (Enabled f s e)
  | .writerGet _ => inferInstanceAs (Decidable (_ = _))
  | .writerWrite _ _ => inferInstanceAs (Decidable (_ ∧ _))
  | .writerClose _ => inferInstanceAs (Decidable (_ = _))
  | .visitorGet _ _ => inferInstanceAs (Decidable (_ = _))
  | .visitorClose _ => inferInstanceAs (Decidable (_ = _))

def closeHeld (env : Surroundings) (client : Client) (d : Disk) : Disk :=
  match client with
  | .holding fileId => (nvmCloseFileDesc p env fileId d).2
  | _ => d

def next (s : State) : Event → State
  | .writerGet env =>
    let opened := nvmGetFileDesc p env lid false s.disk
    { s with
      disk := opened.2
      writer := .holding opened.1
      payload := opened.1.bind fun _ => payloadOf f lid opened.2 }
  | .writerWrite off data =>
    { s with
      disk := writeThrough lid off data s.disk
      payload := s.payload.map fun payload => writeAt payload off data }
  | .writerClose env => { s with disk := closeHeld p env s.writer s.disk, writer := .closed }
  | .visitorGet env isRead =>
    let opened := nvmGetFileDesc p env lid isRead s.disk
    { s with disk := opened.2, visitor := .holding opened.1 }
  | .visitorClose env => { s with disk := closeHeld p env s.visitor s.disk, visitor := .closed }

def system : System State Event := ⟨Enabled f, next p lid f⟩

instance (s : State) (e : Event) : Decidable ((system p lid f).Enabled s e) :=
  inferInstanceAs (Decidable (Enabled f s e))

/-- Once both sessions are closed the payload of the file is what the writer made of it. -/
def Saved (s : State) : Prop :=
  s.writer = .closed → s.visitor = .closed →
    ∀ payload, s.payload = some payload → payloadOf f lid s.disk = some payload

/-- Once the writer's file is open, the visitor opens it only while its version compares equal and
its check bytes are right or still to be appended. A special lid it may open
for reading, or where nothing is erased. -/
def Undisturbed (s : State) : Event → Prop
  | .visitorGet env isRead =>
    s.payload.isSome →
      if lid ∈ p.specialLids then env.partitionFits → isRead ∨ ¬ p.erasable
      else
        (cmpFileVer p.tables lid s.disk).1 = true ∧ ∀ file ∈ s.disk lid, Acceptable f file
  | _ => True

instance (s : State) : ∀ e, Decidable (Undisturbed p lid f s e)
  | .visitorGet _ _ => inferInstanceAs (Decidable (_ → ite _ _ _))
  | .writerGet _ | .writerWrite _ _ | .writerClose _ | .visitorClose _ => isTrue trivial

/-! ## The payload is kept -/

section Saving

/-- The file holds the payload and can be sealed. -/
def Holds (d : Disk) (payload : List UInt8) : Prop :=
  ∃ file, d lid = some file ∧ file.take f.contentSize = payload ∧
    (lid ∉ p.specialLids → nvmCheckFileSize f file ≠ -1)

structure Invariant (s : State) : Prop where
  filed : s.payload.isSome → lid ∉ p.specialLids → lid ≠ iFileVerInfoLid ∧ f.cFileName ≠ reservedName
  holds : ∀ payload, s.payload = some payload → Holds p lid f s.disk payload
  writer_lid : ∀ fileId, s.writer = .holding (some fileId) → fileId.ifileLid = lid
  visitor_lid : ∀ fileId, s.visitor = .holding (some fileId) → fileId.ifileLid = lid
  idle : s.writer = .idle → s.payload = none

variable {p : Platform} {lid : ℕ} {f : TCfgFile} (hf : p.tables.cfgFile lid = some f)
  (hperf : lid ∉ p.aPerformance)

theorem initial_invariant (d : Disk) : Invariant p lid f (initial d) := by
  constructor
  · intro h
    cases h
  · intro payload h
    cases h
  · intro fileId h
    cases h
  · intro fileId h
    cases h
  · intro _
    rfl

theorem holds_write {d : Disk} {payload : List UInt8} (h : Holds p lid f d payload) {off : ℕ}
    {data : List UInt8} (hfit : off + data.length ≤ f.contentSize) :
    Holds p lid f (writeThrough lid off data d) (writeAt payload off data) := by
  obtain ⟨file, hd, rfl, hsize⟩ := h
  refine ⟨writeAt file off data, ?_, take_writeAt_within hfit, fun hspecial => ?_⟩
  · rw [writeThrough, Function.update_self, hd, Option.getD_some]
  · have hlen : (writeAt file off data).length = file.length := by
      apply length_writeAt
      rcases nvmCheckFileSize_cases f file with h0 | h1 | hbad
      · rw [nvmCheckFileSize_eq_zero.mp h0]
        exact hfit
      · rw [nvmCheckFileSize_eq_one.mp h1]
        omega
      · exact absurd hbad (hsize hspecial)
    rw [nvmCheckFileSize, hlen]
    exact hsize hspecial

theorem holds_sealed {d : Disk} {file : List UInt8} (hsize : nvmCheckFileSize f file ≠ -1)
    (hd : d lid = some (sealPayload (file.take f.contentSize))) :
    Holds p lid f d (file.take f.contentSize) := by
  have hlen := (nvmSetCheckNo_seals hsize).2
  have hchecked := checked_sealPayload hlen
  have htake := sealPayload_take (file.take f.contentSize)
  rw [hlen] at htake
  exact ⟨_, hd, htake, fun _ => hchecked.size⟩

include hf in
theorem holds_close {d : Disk} {payload : List UInt8} (h : Holds p lid f d payload)
    (hfiled : lid ∉ p.specialLids → lid ≠ iFileVerInfoLid) {client : Client}
    (hclient : ∀ fileId, client = .holding (some fileId) → fileId.ifileLid = lid)
    (env : Surroundings) : Holds p lid f (closeHeld p env client d) payload := by
  cases client with
  | idle => exact h
  | closed => exact h
  | holding held =>
    cases held with
    | none => exact h
    | some fileId =>
      simp only [closeHeld, nvmCloseFileDesc, hclient fileId rfl]
      split
      · exact h
      · rename_i hwrite
        simp only [not_or] at hwrite
        obtain ⟨file, hd, rfl, hsize⟩ := h
        have hset := nvmProtectDataFile_set (hfiled hwrite.1) hf env hd (hsize hwrite.1)
        exact holds_sealed (hsize hwrite.1) hset.2

include hf hperf

theorem holds_opened {env : Surroundings} {isRead : Bool} {d : Disk} {fileId : FId}
    {payload : List UInt8} (h : (nvmGetFileDesc p env lid isRead d).1 = some fileId)
    (hp : payloadOf f lid (nvmGetFileDesc p env lid isRead d).2 = some payload) :
    Holds p lid f (nvmGetFileDesc p env lid isRead d).2 payload := by
  obtain ⟨file, hd, hpay⟩ := Option.map_eq_some_iff.mp hp
  refine ⟨file, hd, hpay, fun hspecial => ?_⟩
  obtain ⟨hlid, hname⟩ := nvmGetFileDesc_filed hf hspecial hperf h
  obtain ⟨_, file', hd', hchecked⟩ := nvmGetFileDesc_checked hlid hf hspecial hname hperf h
  rw [hd] at hd'
  cases hd'
  exact hchecked.size

theorem holds_visited {s : State} (hi : Invariant p lid f s) {env : Surroundings} {isRead : Bool}
    (hu : Undisturbed p lid f s (.visitorGet env isRead)) {payload : List UInt8}
    (h : s.payload = some payload) :
    Holds p lid f (nvmGetFileDesc p env lid isRead s.disk).2 payload := by
  have hsome : s.payload.isSome := by rw [h]; rfl
  have hu' := hu hsome
  by_cases hspecial : lid ∈ p.specialLids
  · rw [if_pos hspecial] at hu'
    have hdisk : (nvmGetFileDesc p env lid isRead s.disk).2 = s.disk := by
      simp only [nvmGetFileDesc, hf, hspecial, if_true, solveSpecialLid]
      split
      · rename_i hfits
        simp only [hu' hfits, if_true]
      · rfl
    rw [hdisk]
    exact hi.holds payload h
  · rw [if_neg hspecial] at hu'
    obtain ⟨hlid, hname⟩ := hi.filed hsome hspecial
    obtain ⟨file, hd, rfl, hsize⟩ := hi.holds payload h
    have hget := nvmGetFileDesc_accepts hlid hf hspecial hname hperf env isRead hd
       (hu'.2 file hd) hu'.1
    exact holds_sealed (hsize hspecial) hget.2

theorem next_invariant {s : State} (hi : Invariant p lid f s) {e : Event} (he : Enabled f s e)
    (hu : Undisturbed p lid f s e) : Invariant p lid f (next p lid f s e) := by
  obtain ⟨filed, holds, writer_lid, visitor_lid, idle⟩ := hi
  cases e with
  | writerGet env =>
    constructor
    · intro hsome hspecial
      obtain ⟨payload, hp⟩ := Option.isSome_iff_exists.mp hsome
      obtain ⟨fileId, hget, _⟩ := Option.bind_eq_some_iff.mp hp
      exact nvmGetFileDesc_filed hf hspecial hperf hget
    · intro payload hp
      obtain ⟨fileId, hget, hpay⟩ := Option.bind_eq_some_iff.mp hp
      exact holds_opened hf hperf hget hpay
    · intro fileId h
      rw [nvmGetFileDesc_id (Client.holding.inj h)]
    · exact visitor_lid
    · intro h
      cases h
  | writerWrite off data =>
    constructor
    · intro hsome
      apply filed
      simpa [next] using hsome
    · intro payload hp
      obtain ⟨before, hb, rfl⟩ := Option.map_eq_some_iff.mp hp
      exact holds_write (holds before hb) he.2
    · exact writer_lid
    · exact visitor_lid
    · intro h
      have hopen := he.1
      rw [show s.writer = .idle from h] at hopen
      cases hopen
  | writerClose env =>
    constructor
    · exact filed
    · intro payload hp
      have hsome : s.payload.isSome := Option.isSome_iff_exists.mpr ⟨payload, hp⟩
      exact holds_close hf (holds payload hp) (fun hs => (filed hsome hs).1) writer_lid env
    · intro fileId h
      cases h
    · exact visitor_lid
    · intro h
      cases h
  | visitorGet env isRead =>
    constructor
    · exact filed
    · intro payload hp
      exact holds_visited hf hperf ⟨filed, holds, writer_lid, visitor_lid, idle⟩ hu hp
    · exact writer_lid
    · intro fileId h
      rw [nvmGetFileDesc_id (Client.holding.inj h)]
    · exact idle
  | visitorClose env =>
    constructor
    · exact filed
    · intro payload hp
      have hsome : s.payload.isSome := Option.isSome_iff_exists.mpr ⟨payload, hp⟩
      exact holds_close hf (holds payload hp) (fun hs => (filed hsome hs).1) visitor_lid env
    · exact writer_lid
    · intro fileId h
      cases h
    · exact idle

/-- In a run where the visitor disturbs no open session, the writer's payload is never lost. -/
theorem written_payload_saved (d : Disk) (es : List Event)
    (legal : (system p lid f).Legal (initial d) es)
    (undisturbed : (system p lid f).Along (Undisturbed p lid f) (initial d) es) :
    ∀ pre, pre <+: es → Saved lid f ((system p lid f).run (initial d) pre) := by
  intro pre hpre _ _ payload hp
  have hi := invariant_run (system p lid f) (I := Invariant p lid f) (Q := Undisturbed p lid f)
    (fun s e h he hu => next_invariant hf hperf h he hu) (initial_invariant d)
    (along_of_le _ legal hpre) (along_of_le _ undisturbed hpre)
  obtain ⟨file, hd, rfl, _⟩ := hi.holds payload hp
  rw [payloadOf, hd, Option.map_some]

end Saving

/-! ## One byte in the file of a lid -/

/-- A version file in the old format and one sealed data file. -/
def smallDisk : Disk
  | 0 => some [48, 48, 49, 0, 48, 48, 49, 0]
  | 1 => some [5, 0xAA, 5]
  | _ => none

/-- The visitor reads between the writer's get and its write. -/
def readerBeside : List Event :=
  [.writerGet quiet, .visitorGet quiet true, .writerWrite 0 [7], .visitorClose quiet,
    .writerClose quiet]

theorem payload_saved_beside_reader :
    (system smallPlatform 1 (smallFile 66 (by decide))).Legal (initial smallDisk) readerBeside ∧
      ∀ pre, pre <+: readerBeside → Saved 1 (smallFile 66 (by decide))
        ((system smallPlatform 1 (smallFile 66 (by decide))).run (initial smallDisk) pre) :=
  ⟨by decide, written_payload_saved rfl (by decide) smallDisk _ (by decide) (by decide)⟩

/-- The visitor comes between the write and the close. -/
theorem visitor_resets_payload : ¬ ∀ (p : Platform) (lid : ℕ) (f : TCfgFile) (d : Disk)
    (es : List Event), p.tables.cfgFile lid = some f → lid ∉ p.aPerformance →
      (system p lid f).Legal (initial d) es →
        ∀ pre, pre <+: es → Saved lid f ((system p lid f).run (initial d) pre) := by
  intro h
  have hsaved := h smallPlatform 1 (smallFile 66 (by decide)) smallDisk
    [.writerGet quiet, .writerWrite 0 [7], .visitorGet quiet true, .writerClose quiet,
      .visitorClose quiet] rfl (by decide) (by decide) _ (List.prefix_refl _) rfl rfl [7] rfl
  revert hsaved
  decide

end Nvram.SessionRace
