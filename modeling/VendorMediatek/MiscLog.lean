import VendorMediatek.HistoryLogRing

/-!
# The misc log

`NVM_MiscLog` writes a record page into one block of the misc partition and counts it on the first
page of that block. The block is not erased: it is on an emmc or ufs device.
-/

namespace MiscLog

open HistoryLog LabelledRuns

/-- What the device reports, and nvram_misc_log_block_offset. -/
structure Config where
  size : ℕ
  erasesize : ℕ
  writesize : ℕ
  miscLogBlockOffset : ℤ
  layoutVersion : ℤ
  emmcOrUfs : Bool
  erasesize_pos : 0 < erasesize
  writesize_dvd : writesize ∣ erasesize

def nvramMiscJournalMagic : ℕ := 0x4D52564E

namespace Config

variable (c : Config)

def startAddress : ℤ := c.size - c.erasesize * c.miscLogBlockOffset
def writepagesPerBlock : ℕ := c.erasesize / c.writesize

/-- The first write unit is the sequence number's. -/
def recordOffset (sequence : ℕ) : ℕ := c.writesize * (sequence % c.writepagesPerBlock + 1)

def rejects : Prop := c.writesize < nvramJournalHandleSize ∨ c.size = 0

instance : Decidable c.rejects := inferInstanceAs (Decidable (_ ∨ _))

end Config

/-- A page of a cleared buffer with a journal handle; `body` is what follows its h_sequence. -/
def journalPage (c : Config) (type sequence : ℕ) (body : List UInt8) : List UInt8 :=
  (word nvramMiscJournalMagic ++ word type ++ word sequence ++ body ++
    List.replicate c.writesize 0).take c.writesize

/-- The handle on the first page. -/
def sequenceAt (bytes : ℕ → UInt8) (off : ℕ) : ℕ :=
  if wordAt bytes off = nvramMiscJournalMagic then wordAt bytes (off + 8) else 0

/-- An lseek to a position has a result that is not negative, also as an int. -/
def Seekable (position : ℤ) : Prop := 0 ≤ position ∧ 0 ≤ position.bmod 4294967296

instance (position : ℤ) : Decidable (Seekable position) := inferInstanceAs (Decidable (_ ∧ _))

/-! ## The functions -/

section Functions

variable (c : Config) (fault : Faults)

def seek {α : Type} (op : Op) (failed : α) (position : ℤ) (k : ℕ → Device → α × Device) :
    Device → α × Device :=
  attempt fault op failed fun d =>
    if Seekable position then k position.toNat d else (failed, d)

/-- At the end of the partition a read is short. -/
def readPage {α : Type} (op : Op) (failed : α) (off : ℕ) (k : Device → α × Device) :
    Device → α × Device :=
  attempt fault op failed fun d => if c.size < off + c.writesize then (failed, d) else k d

/-- The device after a page is written in full. -/
def wrote (op : Op) (off : ℕ) (page : List UInt8) (d : Device) : Device :=
  { d.logged op with
    bytes := overwrite d.bytes off page
    touches := .write off c.writesize :: d.touches }

/-- A write is short, too, and has written what fits. -/
def writePage (op : Op) (off : ℕ) (page : List UInt8) (k : Device → Bool × Device) (d : Device) :
    Bool × Device :=
  if fault.op op then
    (false, { d.logged op with
      bytes := overwrite d.bytes off
        (page.take (min (min fault.written (c.writesize - 1)) (c.size - off))) })
  else if c.size < off + c.writesize then
    (false, { d.logged op with bytes := overwrite d.bytes off (page.take (c.size - off)) })
  else
    k (wrote c op off page d)

def nvmMiscGetSeqNum (d : Device) : ℕ × Device :=
  if c.emmcOrUfs = false then (0, d)
  -- the same test stands behind the allocations once more
  else if c.layoutVersion = 1 then (minusOne, d)
  else
    attempt fault .sequenceInfo minusOne (fun d =>
      if c.rejects then (minusOne, d)
      else
        allocate fault .sequenceJournal 0 (allocate fault .sequenceBuffer minusOne
          (attempt fault .sequenceOpen minusOne
            (seek fault .sequenceSeek minusOne c.startAddress fun off =>
              readPage c fault .sequenceRead minusOne off fun d =>
                (sequenceAt d.bytes off, d)))) d) d

def nvmMiscIncSeqNum (sequence : ℕ) (body : List UInt8) (d : Device) : Bool × Device :=
  if c.emmcOrUfs = false then (false, d)
  -- its -1 is true
  else if c.layoutVersion = 1 then (true, d)
  else
    let page := journalPage c nvramJournalSuperPage (uint32 (sequence + 1)) body
    attempt fault .superInfo false (fun d =>
      if c.rejects then (false, d)
      else
        allocate fault .superJournal false (allocate fault .superBuffer false
          (attempt fault .superOpen false
            (seek fault .superSeek false c.startAddress fun off =>
              writePage c fault .superWrite off page fun d => (true, d)))) d) d

/-- The rest of the two pages (texts and times). The level is not looked at. -/
structure Call where
  level : ℕ
  body : List UInt8
  superBody : List UInt8

def writeRecord (sequence : ℕ) (call : Call) : Device → Bool × Device :=
  let page := journalPage c nvramJournalLogPage sequence call.body
  allocate fault .journal false (allocate fault .buffer false
    (attempt fault .logOpen false
      (seek fault .logSeek false (c.startAddress + c.recordOffset sequence) fun off d =>
        writePage c fault .logWrite off page (nvmMiscIncSeqNum c fault sequence call.superBody)
          { d with records := off :: d.records })))

def nvmMiscLog (call : Call) (d : Device) : Bool × Device :=
  if c.layoutVersion = 1 then (false, d)
  else if c.emmcOrUfs = false then (false, d)
  else
    attempt fault .info false (fun d =>
      if c.rejects then (false, d)
      else
        let sequence := (nvmMiscGetSeqNum c fault d).1
        let d := (nvmMiscGetSeqNum c fault d).2
        -- the sequence is unsigned
        if sequence < 0 then (false, d)
        else writeRecord c fault sequence call d) d

end Functions

/-! ## Where a record page is written -/

section Keeps

variable {c : Config} {fault : Faults} {α β : Type} {op : Op} {a : Alloc} {failed : α}
  {p : Device → β} {k : Device → α × Device}

/-- A part of the device stays as it is. -/
def Keeps (p : Device → β) (k : Device → α × Device) : Prop := ∀ d, p (k d).2 = p d

theorem keeps_answer (answer : Device → α) : Keeps p fun d => (answer d, d) := fun _ => rfl

theorem keeps_ite {q : Prop} [Decidable q] {k' : Device → α × Device} (h : Keeps p k)
    (h' : Keeps p k') : Keeps p fun d => if q then k d else k' d := by
  intro d
  by_cases hq : q
  · simpa only [if_pos hq] using h d
  · simpa only [if_neg hq] using h' d

theorem keeps_allocate (h : Keeps p k) : Keeps p (allocate fault a failed k) := by
  intro d
  unfold allocate
  split
  · rfl
  · exact h d

section Logged

variable (hlogged : ∀ d op, p (Device.logged d op) = p d)

include hlogged

theorem keeps_attempt (h : Keeps p k) : Keeps p (attempt fault op failed k) := by
  intro d
  unfold attempt
  split
  · exact hlogged d op
  · exact (h _).trans (hlogged d op)

theorem keeps_seek {position : ℤ} {k : ℕ → Device → α × Device} (h : ∀ off, Keeps p (k off)) :
    Keeps p (seek fault op failed position k) :=
  keeps_attempt hlogged (keeps_ite (h _) (keeps_answer _))

theorem keeps_readPage {off : ℕ} (h : Keeps p k) : Keeps p (readPage c fault op failed off k) :=
  keeps_attempt hlogged (keeps_ite (keeps_answer _) h)

theorem nvmMiscGetSeqNum_keeps (c : Config) (fault : Faults) :
    Keeps p (nvmMiscGetSeqNum c fault) := by
  apply keeps_ite (keeps_answer _)
  apply keeps_ite (keeps_answer _)
  apply keeps_attempt hlogged
  apply keeps_ite (keeps_answer _)
  apply keeps_allocate
  apply keeps_allocate
  apply keeps_attempt hlogged
  apply keeps_seek hlogged
  intro off
  apply keeps_readPage hlogged
  exact keeps_answer _

end Logged

theorem writePage_records {off : ℕ} {page : List UInt8} {k : Device → Bool × Device}
    (h : Keeps Device.records k) : Keeps Device.records (writePage c fault op off page k) := by
  intro d
  unfold writePage
  split
  · rfl
  · split
    · rfl
    · exact h _

theorem nvmMiscIncSeqNum_records (c : Config) (fault : Faults) (sequence : ℕ) (body : List UInt8) :
    Keeps Device.records (nvmMiscIncSeqNum c fault sequence body) := by
  have hlogged : ∀ d op, (Device.logged d op).records = d.records := fun _ _ => rfl
  apply keeps_ite (keeps_answer _)
  apply keeps_ite (keeps_answer _)
  apply keeps_attempt hlogged
  apply keeps_ite (keeps_answer _)
  apply keeps_allocate
  apply keeps_allocate
  apply keeps_attempt hlogged
  apply keeps_seek hlogged
  intro off
  apply writePage_records
  exact keeps_answer _

end Keeps

section Records

variable {c : Config} {fault : Faults}

/-- The number that the first page gives a call. -/
def foundSequence (c : Config) (fault : Faults) (bytes : ℕ → UInt8) : ℕ :=
  if fault.op .sequenceInfo then minusOne
  else if fault.alloc .sequenceJournal then 0
  else if fault.alloc .sequenceBuffer ∨ fault.op .sequenceOpen ∨ fault.op .sequenceSeek ∨
      fault.op .sequenceRead ∨ ¬ Seekable c.startAddress ∨
      (c.size : ℤ) < c.startAddress + c.writesize then minusOne
  else sequenceAt bytes c.startAddress.toNat

/-- What a call has to pass to write its record page. -/
structure WritesRecord (c : Config) (fault : Faults) (bytes : ℕ → UInt8) : Prop where
  layout : c.layoutVersion ≠ 1
  device : c.emmcOrUfs = true
  info : fault.op .info = false
  size : ¬ c.rejects
  journal : fault.alloc .journal = false
  buffer : fault.alloc .buffer = false
  opened : fault.op .logOpen = false
  sought : fault.op .logSeek = false
  position : Seekable (c.startAddress + c.recordOffset (foundSequence c fault bytes))

theorem nvmMiscGetSeqNum_found (fault : Faults) (hlayout : c.layoutVersion ≠ 1)
    (hdevice : c.emmcOrUfs = true) (hsize : ¬ c.rejects) (d : Device) :
    (nvmMiscGetSeqNum c fault d).1 = foundSequence c fault d.bytes := by
  have hnand : ¬ c.emmcOrUfs = false := ne_false_of_eq_true hdevice
  rw [nvmMiscGetSeqNum, if_neg hnand, if_neg hlayout, attempt, foundSequence]
  by_cases hinfo : fault.op .sequenceInfo = true
  · rw [if_pos hinfo, if_pos hinfo]
  rw [if_neg hinfo, if_neg hinfo, if_neg hsize, allocate]
  by_cases hjournal : fault.alloc .sequenceJournal = true
  · rw [if_pos hjournal, if_pos hjournal]
  rw [if_neg hjournal, if_neg hjournal, allocate]
  by_cases hbuffer : fault.alloc .sequenceBuffer = true
  · rw [if_pos hbuffer, if_pos (Or.inl hbuffer)]
  rw [if_neg hbuffer, attempt]
  by_cases hopen : fault.op .sequenceOpen = true
  · rw [if_pos hopen, if_pos (Or.inr (Or.inl hopen))]
  rw [if_neg hopen, seek, attempt]
  by_cases hseek : fault.op .sequenceSeek = true
  · rw [if_pos hseek, if_pos (Or.inr (Or.inr (Or.inl hseek)))]
  rw [if_neg hseek]
  by_cases hposition : Seekable c.startAddress
  · rw [if_pos hposition, readPage, attempt]
    -- the position counts as it is
    have hend : c.size < c.startAddress.toNat + c.writesize ↔
        (c.size : ℤ) < c.startAddress + c.writesize := by
      have hpos := hposition.1
      omega
    by_cases hread : fault.op .sequenceRead = true
    · rw [if_pos hread, if_pos (Or.inr (Or.inr (Or.inr (Or.inl hread))))]
    · simp only [hbuffer, hopen, hseek, hread, hposition, hend, if_false, false_or,
        not_true_eq_false, Bool.false_eq_true]
      split
      · rfl
      · rfl
  · rw [if_neg hposition, if_pos (Or.inr (Or.inr (Or.inr (Or.inr (Or.inl hposition)))))]

/-- The offset of a record page is behind the start of the block. -/
def Config.recordPosition (c : Config) (sequence : ℕ) : ℕ :=
  (c.startAddress + c.recordOffset sequence).toNat

/-- A call that passes its tests goes on to its record with the number found. -/
theorem nvmMiscLog_eq (fault : Faults) (hlayout : c.layoutVersion ≠ 1) (hdevice : c.emmcOrUfs = true)
    (hinfo : fault.op .info = false) (hsize : ¬ c.rejects) (call : Call) (d : Device) :
    ∃ d', d'.bytes = d.bytes ∧ d'.records = d.records ∧ nvmMiscLog c fault call d =
      writeRecord c fault (foundSequence c fault d.bytes) call d' := by
  have hnand : ¬ c.emmcOrUfs = false := ne_false_of_eq_true hdevice
  have hlogged : ∀ d op, (Device.logged d op).bytes = d.bytes := fun _ _ => rfl
  have hbytes := nvmMiscGetSeqNum_keeps hlogged c fault (d.logged .info)
  have hrecords := nvmMiscGetSeqNum_keeps (p := Device.records) (fun _ _ => rfl) c fault
    (d.logged .info)
  have hfound := nvmMiscGetSeqNum_found fault hlayout hdevice hsize (d.logged .info)
  refine ⟨_, hbytes, hrecords, ?_⟩
  rw [nvmMiscLog, if_neg hlayout, if_neg hnand, attempt, if_neg (ne_true_of_eq_false hinfo),
    if_neg hsize, if_neg (Nat.not_lt_zero _), hfound]
  rfl

theorem records_written {d : Device} (h : WritesRecord c fault d.bytes) (call : Call) :
    (nvmMiscLog c fault call d).2.records =
      c.recordPosition (foundSequence c fault d.bytes) :: d.records := by
  obtain ⟨d', _, hrecords, heq⟩ := nvmMiscLog_eq fault h.layout h.device h.info h.size call d
  rw [heq, writeRecord, allocate, if_neg (ne_true_of_eq_false h.journal), allocate,
    if_neg (ne_true_of_eq_false h.buffer), attempt, if_neg (ne_true_of_eq_false h.opened), seek,
    attempt, if_neg (ne_true_of_eq_false h.sought), if_pos h.position,
    writePage_records (nvmMiscIncSeqNum_records c fault _ _)]
  exact congrArg _ hrecords

theorem records_kept {d : Device} (h : ¬ WritesRecord c fault d.bytes) (call : Call) :
    (nvmMiscLog c fault call d).2.records = d.records := by
  by_cases hlayout : c.layoutVersion = 1
  · rw [nvmMiscLog, if_pos hlayout]
  by_cases hdevice : c.emmcOrUfs = false
  · rw [nvmMiscLog, if_neg hlayout, if_pos hdevice]
  by_cases hinfo : fault.op .info = true
  · rw [nvmMiscLog, if_neg hlayout, if_neg hdevice, attempt, if_pos hinfo]
    rfl
  by_cases hsize : c.rejects
  · rw [nvmMiscLog, if_neg hlayout, if_neg hdevice, attempt, if_neg hinfo, if_pos hsize]
    rfl
  obtain ⟨d', _, hrecords, heq⟩ := nvmMiscLog_eq fault hlayout (Bool.of_not_eq_false hdevice)
    (Bool.of_not_eq_true hinfo) hsize call d
  rw [heq, ← hrecords, writeRecord, allocate]
  by_cases hjournal : fault.alloc .journal = true
  · rw [if_pos hjournal]
  rw [if_neg hjournal, allocate]
  by_cases hbuffer : fault.alloc .buffer = true
  · rw [if_pos hbuffer]
  rw [if_neg hbuffer, attempt]
  by_cases hopen : fault.op .logOpen = true
  · rw [if_pos hopen]
    rfl
  rw [if_neg hopen, seek, attempt]
  by_cases hseek : fault.op .logSeek = true
  · rw [if_pos hseek]
    rfl
  rw [if_neg hseek, if_neg]
  · rfl
  intro hposition
  exact h ⟨hlayout, Bool.of_not_eq_false hdevice, Bool.of_not_eq_true hinfo, hsize,
    Bool.of_not_eq_true hjournal, Bool.of_not_eq_true hbuffer, Bool.of_not_eq_true hopen,
    Bool.of_not_eq_true hseek, hposition⟩

/-! ## Runs -/

/-- A page at this offset is one of the misc log block, and not its first. -/
def Config.InBlock (c : Config) (off : ℕ) : Prop :=
  c.startAddress + c.writesize ≤ off ∧ (off : ℤ) + c.writesize ≤ c.startAddress + c.erasesize

instance (c : Config) (off : ℕ) : Decidable (c.InBlock off) := inferInstanceAs (Decidable (_ ∧ _))

theorem Config.pages_pos (c : Config) : 0 < c.writepagesPerBlock := by
  have hpage := Nat.le_of_dvd c.erasesize_pos c.writesize_dvd
  exact Nat.div_pos hpage (Nat.pos_of_dvd_of_pos c.writesize_dvd c.erasesize_pos)

theorem Config.recordOffset_le (c : Config) (sequence : ℕ) :
    c.recordOffset sequence ≤ c.erasesize := by
  have hpage := Nat.mod_lt sequence c.pages_pos
  rw [← Nat.mul_div_cancel' c.writesize_dvd]
  exact Nat.mul_le_mul_left _ hpage

theorem inBlock_iff {sequence : ℕ} (hposition : 0 ≤ c.startAddress + c.recordOffset sequence) :
    c.InBlock (c.recordPosition sequence) ↔
      sequence % c.writepagesPerBlock ≠ c.writepagesPerBlock - 1 := by
  have hoff : (c.recordPosition sequence : ℤ) = c.startAddress + c.recordOffset sequence :=
    Int.toNat_of_nonneg hposition
  have hpages := c.pages_pos
  have hpage := Nat.mod_lt sequence hpages
  have hblock : c.writesize * c.writepagesPerBlock = c.erasesize :=
    Nat.mul_div_cancel' c.writesize_dvd
  have hwritesize : 0 < c.writesize := Nat.pos_of_dvd_of_pos c.writesize_dvd c.erasesize_pos
  have hfirst : c.writesize ≤ c.recordOffset sequence :=
    Nat.le_mul_of_pos_right _ (Nat.succ_pos _)
  have hnext : c.recordOffset sequence + c.writesize =
      c.writesize * (sequence % c.writepagesPerBlock + 2) := rfl
  have hlast : c.recordOffset sequence + c.writesize ≤ c.erasesize ↔
      sequence % c.writepagesPerBlock + 2 ≤ c.writepagesPerBlock := by
    rw [hnext, ← hblock, Nat.mul_le_mul_left_iff hwritesize]
  unfold Config.InBlock
  rw [hoff]
  omega

structure Event where
  fault : Faults
  call : Call

def system (c : Config) : System Device Event where
  Enabled _ _ := True
  next d e := (nvmMiscLog c e.fault e.call d).2

/-- The call finds a number that is not that of a last page, or does not come to its write. -/
def StaysInBlock (c : Config) (d : Device) (e : Event) : Prop :=
  WritesRecord c e.fault d.bytes →
    foundSequence c e.fault d.bytes % c.writepagesPerBlock ≠ c.writepagesPerBlock - 1

/-- One call writes its record page in the block where the page of its number is. -/
theorem records_step (c : Config) (d : Device) (e : Event) :
    (∀ off ∈ ((system c).next d e).records, c.InBlock off) ↔
      StaysInBlock c d e ∧ ∀ off ∈ d.records, c.InBlock off := by
  change (∀ off ∈ (nvmMiscLog c e.fault e.call d).2.records, _) ↔ _
  by_cases hwrites : WritesRecord c e.fault d.bytes
  · rw [records_written hwrites, List.forall_mem_cons, inBlock_iff hwrites.position.1]
    exact and_congr_left fun _ => ⟨fun h _ => h, fun h => h hwrites⟩
  · rw [records_kept hwrites]
    exact ⟨fun h => ⟨fun hw => absurd hw hwrites, h⟩, And.right⟩

theorem records_run (c : Config) (d : Device) (es : List Event) :
    (∀ off ∈ ((system c).run d es).records, c.InBlock off) ↔
      (system c).Along (StaysInBlock c) d es ∧ ∀ off ∈ d.records, c.InBlock off := by
  induction es generalizing d with
  | nil => simp
  | cons e es ih => rw [run_cons, ih, records_step, along_cons, and_left_comm, and_assoc]

/-- In a run the record pages are written inside the block, and not on its first page, exactly when
no call that writes one finds the number of a last page. -/
theorem records_inBlock_iff (c : Config) (bytes : ℕ → UInt8) (es : List Event) :
    (∀ off ∈ ((system c).run (untouched bytes) es).records, c.InBlock off) ↔
      (system c).Along (StaysInBlock c) (untouched bytes) es := by
  have hnone : ∀ off ∈ (untouched bytes).records, c.InBlock off := by
    intro off hoff
    cases hoff
  rw [records_run]
  exact and_iff_left hnone

/-- Two pages in the third block from the end of the device. -/
def twoPages : Config where
  size := 4096
  erasesize := 1024
  writesize := 512
  miscLogBlockOffset := 3
  layoutVersion := 2
  emmcOrUfs := true
  erasesize_pos := HistoryLog.twoBlocks.erasesize_pos
  writesize_dvd := HistoryLog.twoBlocks.writesize_dvd

/-- The second record is written into the next block. -/
theorem second_record_behind_block : ¬ ∀ (c : Config) (bytes : ℕ → UInt8) (es : List Event),
    ∀ off ∈ ((system c).run (untouched bytes) es).records, c.InBlock off := by
  intro h
  have hblock := h twoPages blank [⟨noFault, 1, [], []⟩, ⟨noFault, 1, [], []⟩] 2048
    (by decide +kernel)
  revert hblock
  decide

end Records

/-! ## Runs in which nothing fails -/

section Counting

variable {c : Config}

theorem length_journalPage (c : Config) (type sequence : ℕ) (body : List UInt8) :
    (journalPage c type sequence body).length = c.writesize := by
  simp only [journalPage, List.length_take, List.length_append, List.length_replicate]
  omega

theorem sequenceAt_journalPage (hsize : ¬ c.rejects) (bytes : ℕ → UInt8) (off type : ℕ) {n : ℕ}
    (hn : n < 4294967296) (body : List UInt8) :
    sequenceAt (overwrite bytes off (journalPage c type n body)) off = n := by
  have hw : 512 ≤ c.writesize := Nat.not_lt.mp (not_or.mp hsize).1
  have hlen := length_journalPage c type n body
  have hstart : (word nvramMiscJournalMagic ++ word type ++ word n).length = 12 := rfl
  have hpage : ∀ i, i < 12 → (journalPage c type n body).getD i 0 =
      (word nvramMiscJournalMagic ++ word type ++ word n).getD i 0 :=
    fun i hi => getD_take_page (by omega) (by omega) body _
  obtain ⟨hmagic, hsequence⟩ := words_of_page (by omega) hpage (by decide) hn bytes off
  rw [sequenceAt, hmagic, if_pos rfl, hsequence]

section NoFault

variable {α : Type} {op : Op} {a : Alloc} {failed : α} {k : Device → α × Device} {d : Device}

theorem attempt_noFault : attempt noFault op failed k d = k (d.logged op) := rfl

theorem allocate_noFault : allocate noFault a failed k d = k d := rfl

theorem seek_noFault {position : ℤ} (h : Seekable position) {k : ℕ → Device → α × Device} :
    seek noFault op failed position k d = k position.toNat (d.logged op) := by
  rw [seek, attempt_noFault, if_pos h]

theorem writePage_noFault {off : ℕ} (hoff : off + c.writesize ≤ c.size) {page : List UInt8}
    {k : Device → Bool × Device} :
    writePage c noFault op off page k d = k (wrote c op off page d) := by
  have hok : ¬ noFault.op op = true := Bool.false_ne_true
  rw [writePage, if_neg hok, if_neg (Nat.not_lt.mpr hoff)]

end NoFault

/-- The block and the page behind it are in the partition, and positions in them are ints. -/
structure HasRoom (c : Config) : Prop where
  layout : c.layoutVersion ≠ 1
  device : c.emmcOrUfs = true
  size : ¬ c.rejects
  start : 0 ≤ c.startAddress
  room : c.startAddress + c.erasesize + c.writesize ≤ c.size
  reach : c.startAddress + c.erasesize < 2147483648

namespace HasRoom

variable (h : HasRoom c)

include h

theorem seekable {position : ℤ} (hlo : c.startAddress ≤ position)
    (hhi : position ≤ c.startAddress + c.erasesize) : Seekable position := by
  have hstart := h.start
  have hreach := h.reach
  refine ⟨hlo.trans' hstart, ?_⟩
  rw [Int.bmod_eq_of_le (by omega) (by omega)]
  omega

theorem foundSequence_eq (bytes : ℕ → UInt8) :
    foundSequence c noFault bytes = sequenceAt bytes c.startAddress.toNat := by
  have hseek : Seekable c.startAddress := h.seekable (Int.le_refl _) (by omega)
  have hroom := h.room
  simp only [foundSequence, noFault, Bool.false_eq_true, if_false, false_or, hseek,
    not_true_eq_false]
  exact if_neg (by omega)

theorem record_seekable (sequence : ℕ) :
    Seekable (c.startAddress + c.recordOffset sequence) := by
  have hoffset := c.recordOffset_le sequence
  exact h.seekable (by omega) (by omega)

theorem writesRecord (bytes : ℕ → UInt8) : WritesRecord c noFault bytes :=
  ⟨h.layout, h.device, rfl, h.size, rfl, rfl, rfl, rfl, h.record_seekable _⟩

theorem nvmMiscIncSeqNum_bytes (sequence : ℕ) (body : List UInt8) (d : Device) :
    (nvmMiscIncSeqNum c noFault sequence body d).2.bytes = overwrite d.bytes c.startAddress.toNat
      (journalPage c nvramJournalSuperPage (uint32 (sequence + 1)) body) := by
  have hnand : ¬ c.emmcOrUfs = false := ne_false_of_eq_true h.device
  have hseek : Seekable c.startAddress := h.seekable (Int.le_refl _) (by omega)
  have hroom := h.room
  have hstart := h.start
  have hfits : c.startAddress.toNat + c.writesize ≤ c.size := by omega
  rw [nvmMiscIncSeqNum, if_neg hnand, if_neg h.layout, attempt_noFault, if_neg h.size,
    allocate_noFault, allocate_noFault, attempt_noFault, seek_noFault hseek,
    writePage_noFault hfits]
  rfl

theorem sequence_step (call : Call) (d : Device) :
    foundSequence c noFault (nvmMiscLog c noFault call d).2.bytes =
      uint32 (foundSequence c noFault d.bytes + 1) := by
  have hsequence : uint32 (foundSequence c noFault d.bytes + 1) < 4294967296 :=
    Nat.mod_lt _ (by decide)
  have hoffset := c.recordOffset_le (foundSequence c noFault d.bytes)
  have hroom := h.room
  have hstart := h.start
  have hfits : (c.startAddress + c.recordOffset (foundSequence c noFault d.bytes)).toNat +
      c.writesize ≤ c.size := by
    omega
  obtain ⟨d', _, _, heq⟩ := nvmMiscLog_eq noFault h.layout h.device rfl h.size call d
  rw [heq, writeRecord, allocate_noFault, allocate_noFault, attempt_noFault,
    seek_noFault (h.record_seekable _), writePage_noFault hfits, h.foundSequence_eq
      (nvmMiscIncSeqNum c noFault _ call.superBody _).2.bytes, h.nvmMiscIncSeqNum_bytes,
    sequenceAt_journalPage h.size _ _ _ hsequence]

theorem sequence_run (d : Device) (calls : List Call) (hd : foundSequence c noFault d.bytes = 0)
    (hcalls : calls.length < 4294967296) :
    foundSequence c noFault ((system c).run d (calls.map (Event.mk noFault))).bytes =
      calls.length := by
  induction calls using List.reverseRecOn with
  | nil => exact hd
  | append_singleton calls call ih =>
    rw [List.length_append, List.length_singleton] at hcalls ⊢
    rw [List.map_append, System.run, List.foldl_append]
    change foundSequence c noFault (nvmMiscLog c noFault call _).2.bytes = _
    rw [h.sequence_step]
    change uint32 (foundSequence c noFault ((system c).run d _).bytes + 1) = _
    rw [ih (by omega), uint32, Nat.mod_eq_of_lt hcalls]

theorem reaches_page_behind (d : Device) (calls : List Call) (call : Call)
    (hd : foundSequence c noFault d.bytes = 0)
    (hcalls : calls.length + 1 = c.writepagesPerBlock) :
    (c.startAddress + c.erasesize).toNat ∈
      ((system c).run d ((calls ++ [call]).map (Event.mk noFault))).records := by
  have hstart := h.start
  have hreach := h.reach
  have hpages : c.writepagesPerBlock ≤ c.erasesize := Nat.div_le_self _ _
  have hfound := h.sequence_run d calls hd (by omega)
  have hlast : c.recordOffset calls.length = c.erasesize := by
    rw [Config.recordOffset, Nat.mod_eq_of_lt (by omega), hcalls]
    exact Nat.mul_div_cancel' c.writesize_dvd
  rw [List.map_append, System.run, List.foldl_append]
  change _ ∈ (nvmMiscLog c noFault call ((system c).run d (calls.map (Event.mk noFault)))).2.records
  rw [records_written (h.writesRecord _), hfound, Config.recordPosition, hlast]
  exact List.mem_cons_self

end HasRoom

end Counting

end MiscLog
