import VendorMediatek.HistoryLog

/-!
# The ring of record pages

What a successful call of `NVM_HistoryLog` or `NVM_HistoryLog_Time` erases and writes, and, over
runs of such calls, that record pages stay in the ring and are erased before they are written again.
-/

namespace HistoryLog

open FlashHistory LabelledRuns

variable {c : Config} {fault : Faults}

/-! ## The journal pages -/

theorem length_journalPage (c : Config) (type sequence : ℕ) (body : List UInt8) :
    (journalPage c type sequence body).length = c.writesize := by
  simp only [journalPage, List.length_take, List.length_append, List.length_replicate]
  omega

theorem word_lt (bytes : ℕ → UInt8) (off : ℕ) : wordAt bytes off < 4294967296 := by
  have h0 := (bytes off).toNat_lt
  have h1 := (bytes (off + 1)).toNat_lt
  have h2 := (bytes (off + 2)).toNat_lt
  have h3 := (bytes (off + 3)).toNat_lt
  simp only [wordAt]
  omega

theorem wordAt_word {bytes : ℕ → UInt8} {off n : ℕ} (hn : n < 4294967296)
    (h : ∀ i (hi : i < 4), bytes (off + i) = (word n).get ⟨i, hi⟩) : wordAt bytes off = n := by
  have h0 := h 0 (by decide)
  have h1 := h 1 (by decide)
  have h2 := h 2 (by decide)
  have h3 := h 3 (by decide)
  simp only [word, List.get_eq_getElem, List.getElem_cons_zero, List.getElem_cons_succ,
    Nat.add_zero] at h0 h1 h2 h3
  simp only [wordAt, h0, h1, h2, h3, UInt8.toNat_ofNat']
  omega

theorem wordAt_congr {bytes bytes' : ℕ → UInt8} {off : ℕ}
    (h : ∀ i, off ≤ i → i < off + 4 → bytes' i = bytes i) : wordAt bytes' off = wordAt bytes off := by
  simp only [wordAt]
  rw [h off (by omega) (by omega), h (off + 1) (by omega) (by omega),
    h (off + 2) (by omega) (by omega), h (off + 3) (by omega) (by omega)]

/-- The sequence number depends on the first words of the super page only. -/
theorem sequenceAt_congr {bytes bytes' : ℕ → UInt8} {off : ℕ}
    (h : ∀ i, off ≤ i → i < off + 12 → bytes' i = bytes i) :
    sequenceAt bytes' off = sequenceAt bytes off := by
  have hmagic : wordAt bytes' off = wordAt bytes off :=
    wordAt_congr fun i hlo hhi => h i hlo (by omega)
  have hsequence : wordAt bytes' (off + 8) = wordAt bytes (off + 8) :=
    wordAt_congr fun i hlo hhi => h i (by omega) (by omega)
  simp only [sequenceAt, hmagic, hsequence]

theorem sequenceAt_lt (bytes : ℕ → UInt8) (off : ℕ) : sequenceAt bytes off < 4294967296 := by
  unfold sequenceAt
  split
  · exact word_lt bytes _
  · decide

theorem writesize_ge (hsize : ¬ c.rejects) : 512 ≤ c.writesize := by
  simp only [Config.rejects, nvramJournalHandleSize, not_or, Nat.not_lt] at hsize
  exact hsize.1

theorem getD_take_page {n i : ℕ} {start : List UInt8} (hn : start.length ≤ n)
    (hi : i < start.length) (body rest : List UInt8) :
    ((start ++ body ++ rest).take n).getD i 0 = start.getD i 0 := by
  simp only [List.getD_eq_getElem?_getD]
  rw [List.getElem?_take_of_lt (Nat.lt_of_lt_of_le hi hn), List.append_assoc,
    List.getElem?_append_left hi]

theorem journalPage_getD (hsize : ¬ c.rejects) (type n : ℕ) (body : List UInt8) {i : ℕ}
    (hi : i < 12) : (journalPage c type n body).getD i 0 =
      (word nvramJournalMagic ++ word type ++ word n).getD i 0 := by
  have hw := writesize_ge hsize
  have hlen : (word nvramJournalMagic ++ word type ++ word n).length = 12 := rfl
  exact getD_take_page (by omega) (by omega) body _

theorem words_of_page {page : List UInt8} {a b n : ℕ} (hlen : 12 ≤ page.length)
    (hpage : ∀ i, i < 12 → page.getD i 0 = (word a ++ word b ++ word n).getD i 0)
    (ha : a < 4294967296) (hn : n < 4294967296) (bytes : ℕ → UInt8) (off : ℕ) :
    wordAt (overwrite bytes off page) off = a ∧ wordAt (overwrite bytes off page) (off + 8) = n := by
  have hbyte : ∀ i, i < 12 → overwrite bytes off page (off + i) =
      (word a ++ word b ++ word n).getD i 0 := by
    intro i hi
    have hcond : off ≤ off + i ∧ off + i < off + page.length := by omega
    rw [overwrite, if_pos hcond, Nat.add_sub_cancel_left, hpage i hi]
  constructor
  · apply wordAt_word ha
    intro i hi
    rw [hbyte i (by omega)]
    match i, hi with
    | 0, _ => rfl
    | 1, _ => rfl
    | 2, _ => rfl
    | 3, _ => rfl
  · apply wordAt_word hn
    intro i hi
    rw [Nat.add_assoc, hbyte (8 + i) (by omega)]
    match i, hi with
    | 0, _ => rfl
    | 1, _ => rfl
    | 2, _ => rfl
    | 3, _ => rfl

theorem sequenceAt_journalPage (hsize : ¬ c.rejects) (bytes : ℕ → UInt8) (off type : ℕ) {n : ℕ}
    (hn : n < 4294967296) (body : List UInt8) :
    sequenceAt (overwrite bytes off (journalPage c type n body)) off = n := by
  have hw := writesize_ge hsize
  have hlen := length_journalPage c type n body
  obtain ⟨hmagic, hsequence⟩ := words_of_page (by omega)
    (fun i hi => journalPage_getD hsize type n body hi) (by decide) hn bytes off
  rw [sequenceAt, hmagic, if_pos rfl, hsequence]

/-! ## The geometry -/

namespace Config

variable (c : Config)

theorem pages_pos : 0 < c.writepagesPerBlock :=
  Nat.div_pos (Nat.le_of_dvd c.erasesize_pos c.writesize_dvd) c.writesize_pos

def ring : Ring where
  start := c.startAddress
  pageSize := c.writesize
  pages := c.writepagesPerBlock
  blocks := c.logBlock - 1
  pages_pos := c.pages_pos
  blocks_pos := Nat.sub_pos_of_lt c.two_blocks

theorem recordOffset_eq (sequence : ℕ) : c.recordOffset sequence = c.ring.offset sequence := rfl

theorem blockSize_eq : c.ring.blockSize = c.erasesize := Nat.mul_div_cancel' c.writesize_dvd

theorem ring_end : c.ring.start + c.ring.blockSize * c.ring.blocks = c.superOffset := by
  have hsplit : c.logBlock * c.erasesize = c.erasesize * (c.logBlock - 1) + c.erasesize := by
    rw [← Nat.mul_succ, Nat.succ_eq_add_one, Nat.sub_add_cancel (by have := c.two_blocks; omega),
      Nat.mul_comm]
  have hfits := c.fits
  rw [blockSize_eq]
  change c.size - c.logBlock * c.erasesize + c.erasesize * (c.logBlock - 1) = c.size - c.erasesize
  omega

theorem recordOffset_within (sequence : ℕ) :
    c.startAddress ≤ c.recordOffset sequence ∧
      c.recordOffset sequence + c.writesize ≤ c.superOffset := by
  rw [← c.ring_end]
  exact c.ring.offset_within sequence

end Config

/-! ## Successful calls -/

section Success

variable {op : Op} {a : Alloc} {k : Device → Bool × Device} {d : Device}

theorem of_not_failed {p : Prop} [Decidable p] {failed : Device} {rest : Bool × Device}
    (h : (if p then (false, failed) else rest).1 = true) :
    (if p then (false, failed) else rest) = rest := by
  split at h
  · cases h
  · rename_i hok
    rw [if_neg hok]

theorem attempt_true (h : (attempt fault op false k d).1 = true) :
    attempt fault op false k d = k (d.logged op) := of_not_failed h

theorem allocate_true (h : (allocate fault a false k d).1 = true) :
    allocate fault a false k d = k d := of_not_failed h

/-- The device after an erase. -/
def Device.erased (d : Device) (c : Config) (op : Op) (start : ℕ) : Device :=
  { d.logged op with
    bytes := fill d.bytes start c.erasesize fun _ => 0xFF
    touches := .erase start c.erasesize :: d.touches }

/-- The device after a page is written in full. -/
def Device.written (d : Device) (c : Config) (op : Op) (off : ℕ) (page : List UInt8) : Device :=
  { d.logged op with
    bytes := overwrite d.bytes off page
    touches := .write off c.writesize :: d.touches }

theorem erase_true {start : ℕ} (h : (nvmEraseDeviceBlock c fault op start k d).1 = true) :
    nvmEraseDeviceBlock c fault op start k d = k (d.erased c op start) := of_not_failed h

theorem writePage_true {off : ℕ} {page : List UInt8}
    (h : (writePage c fault op off page k d).1 = true) :
    writePage c fault op off page k d = k (d.written c op off page) := of_not_failed h

theorem allocates_true {b : Alloc} (h : (allocate fault a false (allocate fault b false k) d).1 = true) :
    allocate fault a false (allocate fault b false k) d = k d := by
  rw [allocate_true h]
  rw [allocate_true h] at h
  exact allocate_true h

/-- The device is opened, and a page is written at the place sought. -/
theorem opens_and_writes_true {opening seeking writing : Op} {off : ℕ} {page : List UInt8}
    (h : (attempt fault opening false (attempt fault seeking false
      (writePage c fault writing off page k)) d).1 = true) :
    attempt fault opening false (attempt fault seeking false
        (writePage c fault writing off page k)) d =
      k (((d.logged opening).logged seeking).written c writing off page) := by
  rw [attempt_true h]
  rw [attempt_true h] at h
  rw [attempt_true h]
  rw [attempt_true h] at h
  exact writePage_true h

end Success

section Reads

variable {α : Type} {fault : Faults} {k : Device → α × Device}

/-- What only reads leaves the bytes and what was done to them. -/
def ReadsOnly (k : Device → α × Device) : Prop := ∀ d, (k d).2.bytes = d.bytes ∧
  (k d).2.touches = d.touches ∧ (k d).2.records = d.records

theorem readsOnly_answer (answer : Device → α) : ReadsOnly fun d => (answer d, d) :=
  fun _ => ⟨rfl, rfl, rfl⟩

theorem readsOnly_attempt (h : ReadsOnly k) (op : Op) (failed : α) :
    ReadsOnly (attempt fault op failed k) := by
  intro d
  unfold attempt
  split
  · exact ⟨rfl, rfl, rfl⟩
  · exact h (d.logged op)

theorem readsOnly_allocate (h : ReadsOnly k) (a : Alloc) (failed : α) :
    ReadsOnly (allocate fault a failed k) := by
  intro d
  unfold allocate
  split
  · exact ⟨rfl, rfl, rfl⟩
  · exact h d

end Reads

theorem nvmGetSequenceNum_frame (c : Config) (fault : Faults) :
    ReadsOnly (nvmGetSequenceNum c fault) := by
  intro d
  unfold nvmGetSequenceNum
  split
  · exact ⟨rfl, rfl, rfl⟩
  · split
    · exact ⟨rfl, rfl, rfl⟩
    · apply readsOnly_attempt
      intro d
      dsimp only
      split
      · exact ⟨rfl, rfl, rfl⟩
      · refine readsOnly_allocate (readsOnly_allocate ?_ _ _) _ _ d
        apply readsOnly_attempt
        apply readsOnly_attempt
        apply readsOnly_attempt
        exact readsOnly_answer _

/-- The super page is read without failure. -/
structure SuperPageRead (fault : Faults) : Prop where
  info : fault.op .sequenceInfo = false
  buffer : fault.alloc .sequenceBuffer = false
  opened : fault.op .sequenceOpen = false
  seek : fault.op .sequenceSeek = false
  read : fault.op .sequenceRead = false

theorem nvmGetSequenceNum_read (hlayout : c.layoutVersion = 0) (hsize : ¬ c.rejects)
    (h : SuperPageRead fault) (d : Device) :
    (nvmGetSequenceNum c fault d).1 =
      if fault.alloc .sequenceJournal then 0 else sequenceAt d.bytes c.superOffset := by
  have hone : ¬ c.layoutVersion = 1 := by rw [hlayout]; decide
  have hzero : ¬ c.layoutVersion ≠ 0 := not_not.mpr hlayout
  simp only [nvmGetSequenceNum, hone, hzero, attempt, allocate, h.info, h.buffer, h.opened, h.seek,
    h.read, hsize, Bool.false_eq_true, if_false]
  split
  · rfl
  · rfl

theorem nvmIncSequenceNum_true (hlayout : c.layoutVersion = 0) {sequence : ℕ} {body : List UInt8}
    {d : Device} (h : (nvmIncSequenceNum c fault sequence body d).1 = true) :
    (nvmIncSequenceNum c fault sequence body d).2.records = d.records ∧
      (nvmIncSequenceNum c fault sequence body d).2.touches =
        .write c.superOffset c.writesize ::
          (if c.emmcOrUfs then d.touches else .erase c.superOffset c.erasesize :: d.touches) ∧
      sequenceAt (nvmIncSequenceNum c fault sequence body d).2.bytes c.superOffset =
        uint32 (sequence + 1) := by
  have hone : ¬ c.layoutVersion = 1 := by rw [hlayout]; decide
  have hzero : ¬ c.layoutVersion ≠ 0 := not_not.mpr hlayout
  have hwrap : uint32 (sequence + 1) < 4294967296 := Nat.mod_lt _ (by decide)
  simp only [nvmIncSequenceNum, hone, hzero, if_false] at h ⊢
  rw [attempt_true h]
  rw [attempt_true h] at h
  by_cases hsize : c.rejects
  · rw [if_pos hsize] at h
    cases h
  · rw [if_neg hsize] at h ⊢
    rw [allocates_true h]
    rw [allocates_true h] at h
    by_cases hemmc : c.emmcOrUfs = true
    · rw [if_pos hemmc] at h ⊢
      rw [if_pos hemmc, opens_and_writes_true h]
      exact ⟨rfl, rfl, sequenceAt_journalPage hsize _ _ _ hwrap _⟩
    · rw [if_neg hemmc] at h ⊢
      rw [if_neg hemmc, erase_true h]
      rw [erase_true h] at h
      rw [opens_and_writes_true h]
      exact ⟨rfl, rfl, sequenceAt_journalPage hsize _ _ _ hwrap _⟩

/-- The sequence number that a call goes by. -/
def callSequence (c : Config) (fault : Faults) (d : Device) : ℕ :=
  (nvmGetSequenceNum c fault (d.logged .info)).1

/-- The history once the block of the record page is erased, where erasing is needed. -/
def preparedTouches (c : Config) (h : List Touch) (sequence : ℕ) : List Touch :=
  if c.emmcOrUfs then h else c.ring.prepared h sequence

/-- The history of a successful call, on top of the one before. -/
def callTouches (c : Config) (h : List Touch) (sequence : ℕ) : List Touch :=
  .write c.superOffset c.writesize ::
    (if c.emmcOrUfs then .write (c.recordOffset sequence) c.writesize :: preparedTouches c h sequence
    else .erase c.superOffset c.erasesize ::
      .write (c.recordOffset sequence) c.writesize :: preparedTouches c h sequence)

/-- What a successful call that is not filtered out leaves. -/
structure Logged (c : Config) (sequence : ℕ) (d d' : Device) : Prop where
  records : d'.records = c.recordOffset sequence :: d.records
  touches : d'.touches = callTouches c d.touches sequence
  sequence : sequenceAt d'.bytes c.superOffset = uint32 (sequence + 1)

theorem preparedTouches_eq (h : List Touch) (sequence : ℕ) :
    preparedTouches c h sequence =
      if c.emmcOrUfs = false ∧ sequence % c.writepagesPerBlock = 0 then
        .erase (c.recordOffset sequence) c.erasesize :: h
      else h := by
  unfold preparedTouches Ring.prepared
  rw [Config.blockSize_eq]
  cases c.emmcOrUfs with
  | true => simp
  | false =>
    simp only [Bool.false_eq_true, if_false, true_and]
    rfl

theorem writeRecord_true (hlayout : c.layoutVersion = 0) {sequence : ℕ} {call : Call} {d d₁ : Device}
    (hrecords : d₁.records = d.records) (htouches : d₁.touches = preparedTouches c d.touches sequence)
    (h : (writeRecord c fault sequence call d₁).1 = true) :
    Logged c sequence d (writeRecord c fault sequence call d₁).2 := by
  unfold writeRecord at h ⊢
  rw [allocates_true h]
  rw [allocates_true h] at h
  by_cases hfiles : call.addsFiles = true
  · rw [if_pos hfiles] at h ⊢
    rw [opens_and_writes_true h]
    rw [opens_and_writes_true h] at h
    obtain ⟨hr, ht, hs⟩ := nvmIncSequenceNum_true hlayout h
    refine ⟨?_, ?_, hs⟩
    · rw [hr]
      exact congrArg _ hrecords
    · rw [ht, callTouches, ← htouches]
      rfl
  · rw [if_neg hfiles] at h
    cases h

theorem historyLog_true (hlayout : c.layoutVersion = 0) {call : Call}
    (hlevel : ¬ call.level < defaultLogLevel) {d : Device}
    (h : (historyLog c fault call d).1 = true) :
    ¬ c.rejects ∧ Logged c (callSequence c fault d) d (historyLog c fault call d).2 := by
  have hone : ¬ c.layoutVersion = 1 := by rw [hlayout]; decide
  have hzero : ¬ c.layoutVersion ≠ 0 := not_not.mpr hlayout
  simp only [historyLog, hlevel, hone, hzero, if_false] at h ⊢
  rw [attempt_true h]
  rw [attempt_true h] at h
  by_cases hsize : c.rejects
  · rw [if_pos hsize] at h
    cases h
  · rw [if_neg hsize, if_neg (Nat.not_lt_zero _)] at h ⊢
    refine ⟨hsize, ?_⟩
    obtain ⟨_, htouches, hrecords⟩ := nvmGetSequenceNum_frame c fault (d.logged .info)
    unfold callSequence
    generalize nvmGetSequenceNum c fault (d.logged .info) = r at h htouches hrecords ⊢
    have hprepared := preparedTouches_eq (c := c) d.touches r.1
    by_cases herase : c.emmcOrUfs = false ∧ r.1 % c.writepagesPerBlock = 0
    · rw [if_pos herase] at h hprepared ⊢
      rw [erase_true h]
      rw [erase_true h] at h
      refine writeRecord_true hlayout ?_ ?_ h
      · exact hrecords
      · rw [hprepared]
        change _ :: r.2.touches = _ :: d.touches
        rw [htouches]
        rfl
    · rw [if_neg herase] at h hprepared ⊢
      refine writeRecord_true hlayout ?_ ?_ h
      · exact hrecords
      · exact htouches.trans hprepared.symm

/-! ## Runs of successful calls -/

/-- Beside the calls, the super page may lose its magic. -/
inductive Event where
  | nvmHistoryLog (fault : Faults) (level : ℕ) (body superBody : List UInt8)
  | nvmHistoryLogTime (fault : Faults) (level : ℕ) (addsFiles : Bool) (body superBody : List UInt8)
  | superPageLost (page : ℕ → UInt8)

def Event.call : Event → Option (Faults × Call)
  | .nvmHistoryLog fault level body superBody => some (fault, ⟨level, true, body, superBody⟩)
  | .nvmHistoryLogTime fault level addsFiles body superBody =>
    some (fault, ⟨level, addsFiles, body, superBody⟩)
  | .superPageLost _ => none

def result (c : Config) (d : Device) : Event → Bool × Device
  | .nvmHistoryLog fault level body superBody => nvmHistoryLog c fault level body superBody d
  | .nvmHistoryLogTime fault level addsFiles body superBody =>
    nvmHistoryLogTime c fault level addsFiles body superBody d
  | .superPageLost page =>
    let bytes := fill d.bytes c.superOffset c.erasesize page
    (wordAt bytes c.superOffset ≠ nvramJournalMagic, { d with bytes := bytes })

/-- The calls of a run succeed. -/
def system (c : Config) : System Device Event where
  Enabled d e := (result c d e).1 = true
  next d e := (result c d e).2

instance (c : Config) (d : Device) (e : Event) : Decidable ((system c).Enabled d e) :=
  inferInstanceAs (Decidable (_ = _))

/-- The sequence number that the next call reads. -/
def nextSequence (c : Config) (d : Device) : ℕ := sequenceAt d.bytes c.superOffset

/-- A call reads the super page without failure. -/
def ReadsSequence (_ : Device) (e : Event) : Prop :=
  ∀ call ∈ e.call, SuperPageRead call.1

/-- Every page that a call writes was erased since it was last written. -/
def WritesErased (c : Config) (d : Device) (e : Event) : Prop :=
  ∃ new, ((system c).next d e).touches = new ++ d.touches ∧ WritesClean d.touches new

/-- What a step of a run does: nothing to the record pages, or what a successful call does. -/
theorem result_cases {d : Device} {e : Event} (h : (result c d e).1 = true) :
    ((result c d e).2.touches = d.touches ∧ (result c d e).2.records = d.records ∧
        (nextSequence c (result c d e).2 = nextSequence c d ∨
          nextSequence c (result c d e).2 = 0)) ∨
      ∃ fault call, e.call = some (fault, call) ∧ c.layoutVersion = 0 ∧ ¬ c.rejects ∧
        Logged c (callSequence c fault d) d (result c d e).2 := by
  have hcall : ∀ fault call, (historyLog c fault call d).1 = true →
      (historyLog c fault call d).2 = d ∨ c.layoutVersion = 0 ∧ ¬ c.rejects ∧
        Logged c (callSequence c fault d) d (historyLog c fault call d).2 := by
    intro fault call hok
    by_cases hlevel : call.level < defaultLogLevel
    · left
      rw [historyLog, if_pos hlevel]
    · by_cases hone : c.layoutVersion = 1
      · left
        rw [historyLog, if_neg hlevel, if_pos hone]
      · by_cases hzero : c.layoutVersion = 0
        · exact Or.inr ⟨hzero, historyLog_true hzero hlevel hok⟩
        · rw [historyLog, if_neg hlevel, if_neg hone, if_pos hzero] at hok
          cases hok
  cases e with
  | nvmHistoryLog fault level body superBody =>
    rcases hcall fault _ h with hsame | ⟨hlayout, hsize, hlogged⟩
    · left
      change (historyLog c fault _ d).2.touches = _ ∧ (historyLog c fault _ d).2.records = _ ∧ _
      exact ⟨by rw [hsame], by rw [hsame], Or.inl (congrArg _ hsame)⟩
    · exact Or.inr ⟨fault, _, rfl, hlayout, hsize, hlogged⟩
  | nvmHistoryLogTime fault level addsFiles body superBody =>
    rcases hcall fault _ h with hsame | ⟨hlayout, hsize, hlogged⟩
    · left
      change (historyLog c fault _ d).2.touches = _ ∧ (historyLog c fault _ d).2.records = _ ∧ _
      exact ⟨by rw [hsame], by rw [hsame], Or.inl (congrArg _ hsame)⟩
    · exact Or.inr ⟨fault, _, rfl, hlayout, hsize, hlogged⟩
  | superPageLost page =>
    have hlost : wordAt (fill d.bytes c.superOffset c.erasesize page) c.superOffset ≠
        nvramJournalMagic := of_decide_eq_true h
    exact Or.inl ⟨rfl, rfl, Or.inr (if_neg hlost)⟩

theorem records_step {d : Device} {e : Event} (enabled : (system c).Enabled d e)
    (h : ∀ off ∈ d.records, c.startAddress ≤ off ∧ off + c.writesize ≤ c.superOffset) :
    ∀ off ∈ ((system c).next d e).records,
      c.startAddress ≤ off ∧ off + c.writesize ≤ c.superOffset := by
  rcases result_cases enabled with ⟨_, hrecords, _⟩ | ⟨fault, call, _, _, _, hlogged⟩
  · change ∀ off ∈ (result c d e).2.records, _
    rw [hrecords]
    exact h
  · change ∀ off ∈ (result c d e).2.records, _
    rw [hlogged.records]
    intro off hoff
    rcases List.mem_cons.mp hoff with rfl | hoff
    · exact c.recordOffset_within _
    · exact h off hoff

/-- A successful call on a ring that is open at its sequence number. -/
theorem callTouches_clean (hnand : c.emmcOrUfs = false) {h : List Touch} {sequence : ℕ}
    (hopen : c.ring.Open h sequence) :
    (∃ new, callTouches c h sequence = new ++ h ∧ WritesClean h new) ∧
      c.ring.Open (callTouches c h sequence) (sequence + 1) := by
  have hcalled : callTouches c h sequence = .write c.superOffset c.writesize ::
      .erase c.superOffset c.erasesize ::
        .write (c.recordOffset sequence) c.writesize :: c.ring.prepared h sequence := by
    simp [callTouches, preparedTouches, hnand]
  have hpage : c.writesize ≤ c.erasesize := Nat.le_of_dvd c.erasesize_pos c.writesize_dvd
  have hsuper : ∀ t, Clean (.erase c.superOffset c.erasesize :: t) c.superOffset c.writesize :=
    fun t => clean_erased (Nat.le_refl _) (by omega)
  have hrecord : Clean (c.ring.prepared h sequence) (c.recordOffset sequence) c.writesize :=
    c.ring.clean_offset hopen
  constructor
  · rw [hcalled]
    unfold Ring.prepared at hrecord ⊢
    split
    · rename_i hzero
      rw [if_pos hzero] at hrecord
      exact ⟨[_, _, _, _], rfl, hsuper _, hrecord, trivial⟩
    · rename_i hzero
      rw [if_neg hzero] at hrecord
      exact ⟨[_, _, _], rfl, hsuper _, hrecord, trivial⟩
  · rw [hcalled]
    apply (c.ring.open_succ hopen).apart
    -- the super page is behind the ring
    intro off _ hend hclean
    rw [c.ring_end] at hend
    exact (hclean.erase _ _).write (Or.inl hend)

/-- The ring is open at the next sequence number: whenever the counter wraps it is at 0. -/
theorem open_step (hnand : c.emmcOrUfs = false) {d : Device} {e : Event}
    (hopen : c.ring.Open d.touches (nextSequence c d)) (enabled : (system c).Enabled d e)
    (hreads : ReadsSequence d e) :
    WritesErased c d e ∧
      c.ring.Open ((system c).next d e).touches (nextSequence c ((system c).next d e)) := by
  unfold WritesErased
  change (∃ new, (result c d e).2.touches = new ++ d.touches ∧ _) ∧
    c.ring.Open (result c d e).2.touches (nextSequence c (result c d e).2)
  rcases result_cases enabled with ⟨htouches, _, hsequence⟩ | ⟨fault, call, he, hlayout, hsize, hlogged⟩
  · rw [htouches]
    refine ⟨⟨[], rfl, trivial⟩, ?_⟩
    rcases hsequence with hsame | hzero
    · rw [hsame]
      exact hopen
    · rw [hzero]
      exact c.ring.open_of_multiple _ (Nat.zero_mod _)
  · have hread := nvmGetSequenceNum_read hlayout hsize (hreads _ he) (d.logged .info)
    have hcall : c.ring.Open d.touches (callSequence c fault d) := by
      unfold callSequence
      rw [hread]
      split
      · exact c.ring.open_of_multiple _ (Nat.zero_mod _)
      · exact hopen
    obtain ⟨hnew, hnext⟩ := callTouches_clean hnand hcall
    have hcount : nextSequence c (result c d e).2 = uint32 (callSequence c fault d + 1) :=
      hlogged.sequence
    rw [hlogged.touches, hcount]
    refine ⟨hnew, ?_⟩
    have hlt : callSequence c fault d < 4294967296 := by
      unfold callSequence
      rw [hread]
      split
      · decide
      · exact sequenceAt_lt _ _
    rcases Nat.lt_or_ge (callSequence c fault d + 1) 4294967296 with hsmall | hlarge
    · rw [uint32, Nat.mod_eq_of_lt hsmall]
      exact hnext
    · have hwrap : uint32 (callSequence c fault d + 1) = 0 := by
        rw [uint32, show callSequence c fault d + 1 = 4294967296 by omega]
      rw [hwrap]
      exact c.ring.open_of_multiple _ (Nat.zero_mod _)

/-- In a run of successful calls record pages stay in the ring, and from a multiple of the pages
per block on NAND pages are erased before they are written again, while the super page is read. -/
theorem records_on_erased_pages {bytes : ℕ → UInt8} {es : List Event}
    (legal : (system c).Legal (untouched bytes) es) :
    (∀ off ∈ ((system c).run (untouched bytes) es).records,
        c.startAddress ≤ off ∧ off + c.writesize ≤ c.superOffset) ∧
      (c.emmcOrUfs = false → ∀ early late, es = early ++ late →
        nextSequence c ((system c).run (untouched bytes) early) % c.writepagesPerBlock = 0 →
        (system c).Along ReadsSequence ((system c).run (untouched bytes) early) late →
        (system c).Along (WritesErased c) ((system c).run (untouched bytes) early) late) := by
  constructor
  · apply invariant_legal (system c) (fun _ _ h enabled => records_step enabled h) _ legal
    intro off hoff
    cases hoff
  · rintro hnand early late rfl hmultiple hreads
    have hlate := ((along_append (system c) _ _ _ _).mp legal).2
    apply along_of_invariant (system c) (fun _ _ hopen enabled h => (open_step hnand hopen enabled h).2)
      (c.ring.open_of_multiple _ hmultiple) hlate hreads
    intro d e hopen enabled h
    exact (open_step hnand hopen enabled h).1

/-- A NAND device of two blocks of two pages: one for records, one for the super page. -/
def twoBlocks : Config where
  size := 2048
  erasesize := 1024
  writesize := 512
  logBlock := 2
  writesize_pos := by decide
  erasesize_pos := by decide
  writesize_dvd := by decide
  erasesize_dvd := by decide
  two_blocks := by decide
  fits := by decide
  layoutVersion := 0
  emmcOrUfs := false

def blank : ℕ → UInt8 := fun _ => 0xFF

def logNote (fault : Faults) : Event := .nvmHistoryLog fault 1 [] []

theorem note_on_erased_page :
    let es := [logNote noFault]
    (∀ off ∈ ((system twoBlocks).run (untouched blank) es).records,
        twoBlocks.startAddress ≤ off ∧ off + twoBlocks.writesize ≤ twoBlocks.superOffset) ∧
      (system twoBlocks).Along (WritesErased twoBlocks) (untouched blank) es := by
  have hlegal : (system twoBlocks).Legal (untouched blank) [logNote noFault] := by decide
  obtain ⟨hrecords, herased⟩ := records_on_erased_pages hlegal
  refine ⟨hrecords, herased rfl [] _ rfl (by decide) ⟨?_, trivial⟩⟩
  rintro _ ⟨⟩
  exact ⟨rfl, rfl, rfl, rfl, rfl⟩

/-- The super page cannot be read. -/
def unreadable : Faults := { noFault with op := fun op => op = .sequenceRead }

/-- When the super page cannot be read the record goes to the page of the sequence number -1, with
no regard to what was written there. -/
theorem unread_sequence_overwrites : ¬ ∀ (c : Config) (bytes : ℕ → UInt8) (early late : List Event),
    (system c).Legal (untouched bytes) (early ++ late) → c.emmcOrUfs = false →
      nextSequence c ((system c).run (untouched bytes) early) % c.writepagesPerBlock = 0 →
      (system c).Along (WritesErased c) ((system c).run (untouched bytes) early) late := by
  intro h
  have hrun := h twoBlocks blank [] ([logNote noFault, logNote noFault] ++ [logNote unreadable])
    (by decide +kernel) rfl (by decide +kernel)
  rw [along_append] at hrun
  have hthird : WritesErased twoBlocks
      ((system twoBlocks).run (untouched blank) [logNote noFault, logNote noFault])
      (logNote unreadable) := hrun.2.1
  have htouches : ((system twoBlocks).next
      ((system twoBlocks).run (untouched blank) [logNote noFault, logNote noFault])
      (logNote unreadable)).touches = [.write 1024 512, .erase 1024 1024, .write 512 512] ++
        ((system twoBlocks).run (untouched blank) [logNote noFault, logNote noFault]).touches := by
    decide +kernel
  have hdirty : ¬ WritesClean
      ((system twoBlocks).run (untouched blank) [logNote noFault, logNote noFault]).touches
      [.write 1024 512, .erase 1024 1024, .write 512 512] := by
    decide +kernel
  generalize (system twoBlocks).run (untouched blank) [logNote noFault, logNote noFault] = d at *
  obtain ⟨new, hnew, hclean⟩ := hthird
  obtain rfl := List.append_cancel_right (hnew.symm.trans htouches)
  exact hdirty hclean

end HistoryLog
