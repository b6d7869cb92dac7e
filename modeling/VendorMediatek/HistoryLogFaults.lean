import VendorMediatek.HistoryLogRing

/-!
# Failing device operations

What a call of `NVM_HistoryLog` answers and leaves when one operation on the device fails, for each
of its operations.
-/

namespace HistoryLog

/-- The first operations are those of NVM_GetSequenceNum, the last those of NVM_IncSequenceNum. -/
inductive Stage where
  | size | sequence | record | super
  deriving DecidableEq, Repr

def Op.stage : Op → Stage
  | .info => .size
  | .sequenceInfo | .sequenceOpen | .sequenceSeek | .sequenceRead => .sequence
  | .logErase | .logOpen | .logSeek | .logWrite => .record
  | .superInfo | .superErase | .superOpen | .superSeek | .superWrite => .super

/-- One operation fails. -/
def single (op : Op) (left : ℕ → UInt8) (written : ℕ) : Faults :=
  ⟨fun o => o = op, fun _ => false, left, written⟩

variable {c : Config} {op o : Op} {left : ℕ → UInt8} {written : ℕ}

/-! ## One step of a call -/

section Steps

variable {α : Type} {a : Alloc} {failed : α} {k : Device → α × Device}
  {next : Device → Bool × Device} {d : Device} {off : ℕ} {page : List UInt8}

theorem attempt_other (h : o ≠ op) :
    attempt (single op left written) o failed k d = k (d.logged o) := by
  unfold attempt
  rw [if_neg]
  exact fun heq => h (of_decide_eq_true heq)

theorem attempt_failed :
    attempt (single op left written) op failed k d = (failed, d.logged op) := by
  unfold attempt
  rw [if_pos]
  exact decide_eq_true rfl

theorem allocate_single : allocate (single op left written) a failed k d = k d := rfl

theorem erase_other (h : o ≠ op) :
    nvmEraseDeviceBlock c (single op left written) o off next d = next (d.erased c o off) := by
  unfold nvmEraseDeviceBlock
  rw [if_neg]
  · rfl
  · exact fun heq => h (of_decide_eq_true heq)

theorem erase_failed : nvmEraseDeviceBlock c (single op left written) op off next d =
    (false, { d.logged op with bytes := fill d.bytes off c.erasesize left }) := by
  unfold nvmEraseDeviceBlock
  rw [if_pos]
  · rfl
  · exact decide_eq_true rfl

theorem writePage_other (h : o ≠ op) :
    writePage c (single op left written) o off page next d = next (d.written c o off page) := by
  unfold writePage
  rw [if_neg]
  · rfl
  · exact fun heq => h (of_decide_eq_true heq)

theorem writePage_failed : writePage c (single op left written) op off page next d =
    (false, { d.logged op with
      bytes := overwrite d.bytes off (page.take (min written (c.writesize - 1))) }) := by
  unfold writePage
  rw [if_pos]
  · rfl
  · exact decide_eq_true rfl

end Steps

/-! ## Which operations are made -/

/-- Only operations of one stage are made. -/
def AttemptsOnly (s : Stage) {α : Type} (k : Device → α × Device) : Prop :=
  ∀ d, ∀ o ∈ (k d).2.attempted, o ∈ d.attempted ∨ o.stage = s

section Attempts

variable {s : Stage} {fault : Faults} {α : Type}

theorem attempts_step (hop : o.stage = s) {k : Device → α × Device} (hk : AttemptsOnly s k)
    {p : Prop} [Decidable p] {failed : α} {d stopped next : Device}
    (hstopped : stopped.attempted = o :: d.attempted) (hnext : next.attempted = o :: d.attempted) :
    ∀ x ∈ (if p then (failed, stopped) else k next).2.attempted, x ∈ d.attempted ∨ x.stage = s := by
  have hlogged : ∀ x ∈ o :: d.attempted, x ∈ d.attempted ∨ x.stage = s := by
    intro x hx
    rcases List.mem_cons.mp hx with rfl | hx
    · exact Or.inr hop
    · exact Or.inl hx
  intro x hx
  split at hx
  · exact hlogged x (hstopped ▸ hx)
  · rcases hk next x hx with hx | hx
    · exact hlogged x (hnext ▸ hx)
    · exact Or.inr hx

theorem attemptsOnly_attempt (hop : o.stage = s) {failed : α} {k : Device → α × Device}
    (hk : AttemptsOnly s k) : AttemptsOnly s (attempt fault o failed k) :=
  fun _ => attempts_step hop hk rfl rfl

theorem attemptsOnly_allocate {a : Alloc} {failed : α} {k : Device → α × Device}
    (hk : AttemptsOnly s k) : AttemptsOnly s (allocate fault a failed k) := by
  intro d x hx
  unfold allocate at hx
  split at hx
  · exact Or.inl hx
  · exact hk d x hx

theorem attemptsOnly_erase (hop : o.stage = s) {start : ℕ} {k : Device → Bool × Device}
    (hk : AttemptsOnly s k) : AttemptsOnly s (nvmEraseDeviceBlock c fault o start k) :=
  fun _ => attempts_step hop hk rfl rfl

theorem attemptsOnly_writePage (hop : o.stage = s) {off : ℕ} {page : List UInt8}
    {k : Device → Bool × Device} (hk : AttemptsOnly s k) :
    AttemptsOnly s (writePage c fault o off page k) :=
  fun _ => attempts_step hop hk rfl rfl

theorem attemptsOnly_ite {p : Prop} [Decidable p] {k k' : Device → α × Device}
    (hk : AttemptsOnly s k) (hk' : AttemptsOnly s k') :
    AttemptsOnly s (fun d => if p then k d else k' d) := by
  intro d x hx
  by_cases hp : p
  · exact hk d x (by simpa only [if_pos hp] using hx)
  · exact hk' d x (by simpa only [if_neg hp] using hx)

theorem attemptsOnly_answer (answer : Device → α) :
    AttemptsOnly s (fun d => (answer d, d)) := fun _ _ hx => Or.inl hx

theorem nvmGetSequenceNum_attempts (c : Config) (fault : Faults) :
    AttemptsOnly .sequence (nvmGetSequenceNum c fault) := by
  unfold nvmGetSequenceNum
  apply attemptsOnly_ite (attemptsOnly_answer _)
  apply attemptsOnly_ite (attemptsOnly_answer _)
  refine attemptsOnly_attempt (by rfl) ?_
  apply attemptsOnly_ite (attemptsOnly_answer _)
  apply attemptsOnly_allocate
  apply attemptsOnly_allocate
  refine attemptsOnly_attempt (by rfl) ?_
  refine attemptsOnly_attempt (by rfl) ?_
  refine attemptsOnly_attempt (by rfl) ?_
  exact attemptsOnly_answer _

theorem nvmIncSequenceNum_attempts (c : Config) (fault : Faults) (sequence : ℕ)
    (body : List UInt8) :
    AttemptsOnly .super (nvmIncSequenceNum c fault sequence body) := by
  unfold nvmIncSequenceNum
  dsimp only
  apply attemptsOnly_ite (attemptsOnly_answer _)
  apply attemptsOnly_ite (attemptsOnly_answer _)
  refine attemptsOnly_attempt (by rfl) ?_
  apply attemptsOnly_ite (attemptsOnly_answer _)
  apply attemptsOnly_allocate
  apply attemptsOnly_allocate
  have hrewrite : AttemptsOnly .super (attempt fault .superOpen false
      (attempt fault .superSeek false (writePage c fault .superWrite c.superOffset
        (journalPage c nvramJournalSuperPage (uint32 (sequence + 1)) body) fun d => (true, d)))) := by
    refine attemptsOnly_attempt (by rfl) ?_
    refine attemptsOnly_attempt (by rfl) ?_
    refine attemptsOnly_writePage (by rfl) ?_
    exact attemptsOnly_answer _
  apply attemptsOnly_ite hrewrite
  exact attemptsOnly_erase rfl hrewrite

end Attempts

/-! ## What lies apart from the super page -/

/-- The bytes from the super page on are the same. -/
def SuperKept (c : Config) (bytes bytes' : ℕ → UInt8) : Prop :=
  ∀ i, c.superOffset ≤ i → bytes' i = bytes i

theorem SuperKept.sequenceAt {bytes bytes' : ℕ → UInt8} (h : SuperKept c bytes bytes') :
    sequenceAt bytes' c.superOffset = sequenceAt bytes c.superOffset :=
  sequenceAt_congr fun i hlo _ => h i hlo

theorem SuperKept.trans {bytes bytes' bytes'' : ℕ → UInt8} (h : SuperKept c bytes bytes')
    (h' : SuperKept c bytes' bytes'') : SuperKept c bytes bytes'' :=
  fun i hi => (h' i hi).trans (h i hi)

/-- The block that a record page is the first of ends where the last block begins. -/
theorem recordBlock_within {sequence : ℕ} (h : sequence % c.writepagesPerBlock = 0) :
    c.recordOffset sequence + c.erasesize ≤ c.superOffset := by
  have hlast := (c.ring.block_within sequence (Nat.sub_lt c.ring.pages_pos Nat.one_pos)).2
  have hfirst := c.ring.pageOf_self sequence
  have hzero : sequence % c.ring.pages = 0 := h
  rw [hzero] at hfirst
  rw [c.ring_end] at hlast
  rw [c.recordOffset_eq, ← hfirst, ← c.blockSize_eq]
  have hpages := Nat.sub_add_cancel (Nat.succ_le_of_lt c.ring.pages_pos)
  have hmul : c.ring.pageSize * (c.ring.pages - 1) + c.ring.pageSize = c.ring.blockSize := by
    rw [← Nat.mul_succ, Nat.succ_eq_add_one, hpages]
    rfl
  simp only [FlashHistory.Ring.pageOf, Nat.mul_add] at hlast ⊢
  omega

theorem superKept_fill (bytes content : ℕ → UInt8) {sequence : ℕ}
    (h : sequence % c.writepagesPerBlock = 0) :
    SuperKept c bytes (fill bytes (c.recordOffset sequence) c.erasesize content) := by
  intro i hi
  have hend := recordBlock_within (c := c) h
  exact if_neg (by omega)

theorem superKept_overwrite (bytes : ℕ → UInt8) (sequence : ℕ) {page : List UInt8}
    (h : page.length ≤ c.writesize) :
    SuperKept c bytes (overwrite bytes (c.recordOffset sequence) page) := by
  intro i hi
  have hend := (c.recordOffset_within sequence).2
  exact if_neg (by omega)

/-! ## The stages of a call -/

/-- NVM_HistoryLog from the erase of a block on. -/
def eraseAndWrite (c : Config) (fault : Faults) (sequence : ℕ) (call : Call) (d : Device) :
    Bool × Device :=
  if c.emmcOrUfs = false ∧ sequence % c.writepagesPerBlock = 0 then
    nvmEraseDeviceBlock c fault .logErase (c.recordOffset sequence)
      (writeRecord c fault sequence call) d
  else writeRecord c fault sequence call d

theorem erased_kept {d : Device} {sequence : ℕ} (h : sequence % c.writepagesPerBlock = 0) :
    SuperKept c d.bytes (d.erased c o (c.recordOffset sequence)).bytes :=
  superKept_fill _ _ h

theorem written_kept (d : Device) (sequence type n : ℕ) (body : List UInt8) :
    SuperKept c d.bytes
      (d.written c o (c.recordOffset sequence) (journalPage c type n body)).bytes :=
  superKept_overwrite _ _ (Nat.le_of_eq (length_journalPage c type n body))

theorem writeRecord_counts (c : Config) (left : ℕ → UInt8) (written sequence : ℕ) {call : Call}
    (hstage : op.stage ≠ .record ∨ op = .logErase) (hfiles : call.addsFiles = true) (d : Device) :
    ∃ d', SuperKept c d.bytes d'.bytes ∧
      (∀ o ∈ d'.attempted, o ∈ d.attempted ∨ o = .logOpen ∨ o = .logSeek ∨ o = .logWrite) ∧
      writeRecord c (single op left written) sequence call d =
        nvmIncSequenceNum c (single op left written) sequence call.superBody d' := by
  have hother : Op.logOpen ≠ op ∧ Op.logSeek ≠ op ∧ Op.logWrite ≠ op := by
    rcases hstage with hstage | rfl
    · refine ⟨?_, ?_, ?_⟩ <;>
        · rintro rfl
          exact hstage rfl
    · decide
  obtain ⟨hopen, hseek, hwrite⟩ := hother
  simp only [writeRecord, allocate_single, hfiles, if_true]
  rw [attempt_other hopen, attempt_other hseek, writePage_other hwrite]
  refine ⟨_, ?_, ?_, rfl⟩
  · exact written_kept (o := .logWrite) ((d.logged .logOpen).logged .logSeek) sequence _ _ _
  intro o ho
  simp only [Device.written, Device.logged, List.mem_cons] at ho
  rcases ho with rfl | rfl | rfl | ho
  · exact Or.inr (Or.inr (Or.inr rfl))
  · exact Or.inr (Or.inr (Or.inl rfl))
  · exact Or.inr (Or.inl rfl)
  · exact Or.inl ho

/-- A failing operation on the record page is answered, and leaves the super page alone. -/
theorem writeRecord_failed (c : Config) (left : ℕ → UInt8) (written sequence : ℕ) {call : Call}
    (hstage : op.stage = .record) (herase : op ≠ .logErase) (hfiles : call.addsFiles = true)
    (d : Device) :
    (writeRecord c (single op left written) sequence call d).1 = false ∧
      SuperKept c d.bytes (writeRecord c (single op left written) sequence call d).2.bytes := by
  simp only [writeRecord, allocate_single, hfiles, if_true]
  by_cases hopen : op = .logOpen
  · subst hopen
    rw [attempt_failed]
    exact ⟨rfl, fun _ _ => rfl⟩
  by_cases hseek : op = .logSeek
  · subst hseek
    rw [attempt_other (Ne.symm hopen), attempt_failed]
    exact ⟨rfl, fun _ _ => rfl⟩
  have hwrite : op = .logWrite := by
    cases op <;> first | rfl | contradiction
  subst hwrite
  rw [attempt_other (Ne.symm hopen), attempt_other (Ne.symm hseek), writePage_failed]
  refine ⟨rfl, superKept_overwrite _ _ ?_⟩
  rw [List.length_take, length_journalPage]
  omega

theorem record_failed (hstage : op.stage = .record) (sequence : ℕ) {call : Call}
    (hfiles : call.addsFiles = true) {d : Device} (hbefore : op ∉ d.attempted)
    (hafter : op ∈ (eraseAndWrite c (single op left written) sequence call d).2.attempted) :
    (eraseAndWrite c (single op left written) sequence call d).1 = false ∧
      SuperKept c d.bytes (eraseAndWrite c (single op left written) sequence call d).2.bytes := by
  unfold eraseAndWrite at hafter ⊢
  by_cases herase : op = .logErase
  · subst herase
    split at hafter
    · rename_i hfirst
      rw [if_pos hfirst, erase_failed]
      exact ⟨rfl, superKept_fill _ _ hfirst.2⟩
    · -- there is no erase to fail
      exfalso
      obtain ⟨d', _, hattempted, hcounts⟩ := writeRecord_counts c left written sequence
        (Or.inr rfl) hfiles d
      rw [hcounts] at hafter
      rcases nvmIncSequenceNum_attempts _ _ _ _ _ _ hafter with hin | hin
      · rcases hattempted _ hin with hin | hin
        · exact hbefore hin
        · simp at hin
      · cases hin
  · split
    · rename_i hfirst
      rw [erase_other (Ne.symm herase)]
      obtain ⟨hanswer, hkept⟩ := writeRecord_failed c left written sequence hstage herase
        hfiles (d.erased c .logErase (c.recordOffset sequence))
      exact ⟨hanswer, (erased_kept hfirst.2).trans hkept⟩
    · exact writeRecord_failed c left written sequence hstage herase hfiles d

/-- Where no operation on the record page fails the call comes to NVM_IncSequenceNum. -/
theorem counts_last (c : Config) (left : ℕ → UInt8) (written sequence : ℕ) {call : Call}
    (hstage : op.stage ≠ .record) (hfiles : call.addsFiles = true) (d : Device) :
    ∃ d', SuperKept c d.bytes d'.bytes ∧ (∀ o ∈ d'.attempted, o ∈ d.attempted ∨ o.stage = .record) ∧
      eraseAndWrite c (single op left written) sequence call d =
        nvmIncSequenceNum c (single op left written) sequence call.superBody d' := by
  have hstages : ∀ o : Op, o = .logOpen ∨ o = .logSeek ∨ o = .logWrite → o.stage = .record := by
    rintro o (rfl | rfl | rfl) <;> rfl
  unfold eraseAndWrite
  split
  · rename_i hfirst
    have herase : Op.logErase ≠ op := by
      rintro rfl
      exact hstage rfl
    rw [erase_other herase]
    obtain ⟨d', hkept, hattempted, hcounts⟩ := writeRecord_counts c left written sequence
      (Or.inl hstage) hfiles (d.erased c .logErase (c.recordOffset sequence))
    refine ⟨d', (erased_kept hfirst.2).trans hkept, ?_, hcounts⟩
    intro o ho
    rcases hattempted o ho with hin | hin
    · rcases List.mem_cons.mp hin with rfl | hin
      · exact Or.inr rfl
      · exact Or.inl hin
    · exact Or.inr (hstages o hin)
  · obtain ⟨d', hkept, hattempted, hcounts⟩ := writeRecord_counts c left written sequence
      (Or.inl hstage) hfiles d
    refine ⟨d', hkept, ?_, hcounts⟩
    intro o ho
    exact (hattempted o ho).imp_right (hstages o)

/-! ## Torn words -/

/-- The first k bytes of one word over those of another. -/
def tornWord (k n under : ℕ) : ℕ := n % 256 ^ k + 256 ^ k * (under / 256 ^ k)

theorem tornWord_of_four_le {k n under : ℕ} (hk : 4 ≤ k) (hn : n < 4294967296)
    (hunder : under < 4294967296) : tornWord k n under = n := by
  have hpow : 4294967296 ≤ 256 ^ k := Nat.pow_le_pow_right (n := 256) (by decide) hk
  rw [tornWord, Nat.mod_eq_of_lt (by omega), Nat.div_eq_of_lt (by omega)]
  rfl

theorem lt_four {i : ℕ} (h : i < 4) : i = 0 ∨ i = 1 ∨ i = 2 ∨ i = 3 := by omega

theorem wordAt_torn {bytes bytes' : ℕ → UInt8} {off n k : ℕ} (hn : n < 4294967296)
    (h : ∀ i, i < 4 → bytes' (off + i) = if i < k then (word n).getD i 0 else bytes (off + i)) :
    wordAt bytes' off = tornWord k n (wordAt bytes off) := by
  have hunder := word_lt bytes off
  have h0 := h 0 (by decide)
  have h1 := h 1 (by decide)
  have h2 := h 2 (by decide)
  have h3 := h 3 (by decide)
  have b0 := (bytes off).toNat_lt
  have b1 := (bytes (off + 1)).toNat_lt
  have b2 := (bytes (off + 2)).toNat_lt
  have b3 := (bytes (off + 3)).toNat_lt
  simp only [word, List.getD_cons_zero, List.getD_cons_succ, Nat.add_zero] at h0 h1 h2 h3
  rcases Nat.lt_or_ge k 4 with hk | hk
  · simp only [wordAt, h0, h1, h2, h3, tornWord]
    rcases lt_four hk with rfl | rfl | rfl | rfl
    · simp [Nat.mod_one]
    · simp [UInt8.toNat_ofNat']
      omega
    · simp [UInt8.toNat_ofNat']
      omega
    · simp [UInt8.toNat_ofNat']
      omega
  · rw [tornWord_of_four_le hk hn hunder]
    rw [if_pos (by omega)] at h0 h1 h2 h3
    simp only [wordAt, h0, h1, h2, h3, UInt8.toNat_ofNat']
    omega

/-- What is read of a super page of which only the first k bytes have been written. -/
theorem sequenceAt_torn (hsize : ¬ c.rejects) (bytes : ℕ → UInt8) (off type : ℕ) {n : ℕ}
    (hn : n < 4294967296) (body : List UInt8) (k : ℕ) :
    sequenceAt (overwrite bytes off ((journalPage c type n body).take (min k (c.writesize - 1)))) off =
      if tornWord k nvramJournalMagic (wordAt bytes off) = nvramJournalMagic then
        tornWord (k - 8) n (wordAt bytes (off + 8))
      else 0 := by
  have hw := writesize_ge hsize
  have hbyte : ∀ i, i < 12 →
      overwrite bytes off ((journalPage c type n body).take (min k (c.writesize - 1))) (off + i) =
        if i < k then (word nvramJournalMagic ++ word type ++ word n).getD i 0
        else bytes (off + i) := by
    intro i hi
    have hlen : ((journalPage c type n body).take (min k (c.writesize - 1))).length =
        min k (c.writesize - 1) := by
      rw [List.length_take, length_journalPage]
      omega
    by_cases hk : i < k
    · rw [if_pos hk, overwrite, hlen, if_pos (by omega), Nat.add_sub_cancel_left,
        ← journalPage_getD hsize type n body hi]
      simp only [List.getD_eq_getElem?_getD]
      rw [List.getElem?_take_of_lt (by omega)]
    · rw [if_neg hk, overwrite, hlen, if_neg (by omega)]
  have hmagic : wordAt (overwrite bytes off
      ((journalPage c type n body).take (min k (c.writesize - 1)))) off =
        tornWord k nvramJournalMagic (wordAt bytes off) := by
    apply wordAt_torn (by decide)
    intro i hi
    rw [hbyte i (by omega)]
    rcases lt_four hi with rfl | rfl | rfl | rfl <;> rfl
  have hsequence : wordAt (overwrite bytes off
      ((journalPage c type n body).take (min k (c.writesize - 1)))) (off + 8) =
        tornWord (k - 8) n (wordAt bytes (off + 8)) := by
    apply wordAt_torn hn
    intro i hi
    have hshift : i < k - 8 ↔ 8 + i < k := by omega
    simp only [Nat.add_assoc, hbyte (8 + i) (by omega), hshift]
    rcases lt_four hi with rfl | rfl | rfl | rfl <;> rfl
  rw [sequenceAt, hmagic, hsequence]

/-! ## A call with one failure -/

/-- The number before the call. -/
def oldSequence (c : Config) (bytes : ℕ → UInt8) : ℕ := sequenceAt bytes c.superOffset

/-- The old number or the next. -/
def OldOrNext (c : Config) (bytes : ℕ → UInt8) (sequence : ℕ) : Prop :=
  sequence = oldSequence c bytes ∨ sequence = uint32 (oldSequence c bytes + 1)

/-- A word of the super page at the time it is written: on NAND its block has been erased. -/
def wordUnder (c : Config) (bytes : ℕ → UInt8) (off : ℕ) : ℕ :=
  if c.emmcOrUfs then wordAt bytes off else 0xFFFFFFFF

/-- The number in a super page of which only the first bytes have been written. -/
def tornSequence (c : Config) (bytes : ℕ → UInt8) (written : ℕ) : ℕ :=
  if tornWord written nvramJournalMagic (wordUnder c bytes c.superOffset) = nvramJournalMagic then
    tornWord (written - 8) (uint32 (oldSequence c bytes + 1))
      (wordUnder c bytes (c.superOffset + 8))
  else 0

theorem tornSequence_of_twelve_le (c : Config) (bytes : ℕ → UInt8) {written : ℕ}
    (h : 12 ≤ written) : tornSequence c bytes written = uint32 (oldSequence c bytes + 1) := by
  have hunder : ∀ off, wordUnder c bytes off < 4294967296 := by
    intro off
    unfold wordUnder
    split
    · exact word_lt bytes off
    · decide
  have hnext : uint32 (oldSequence c bytes + 1) < 4294967296 := Nat.mod_lt _ (by decide)
  unfold tornSequence
  rw [tornWord_of_four_le (by omega) (by decide) (hunder _), if_pos rfl,
    tornWord_of_four_le (by omega) hnext (hunder _)]

/-- Whether a failure leaves a number to go on with. -/
def Recoverable (c : Config) (bytes left : ℕ → UInt8) (written : ℕ) : Op → Prop
  -- the call goes on with the number -1
  | .sequenceInfo | .sequenceOpen | .sequenceSeek | .sequenceRead => False
  | .superErase => OldOrNext c bytes (sequenceAt left c.superOffset)
  -- an erased super page counts as 0
  | .superOpen | .superSeek => c.emmcOrUfs = true ∨ OldOrNext c bytes 0
  | .superWrite => OldOrNext c bytes (tornSequence c bytes written)
  | _ => True

/-- The failure is answered, the number is the old one or the next, and where the number could not
be read nothing was erased or written. -/
structure FailsCleanly (c : Config) (bytes : ℕ → UInt8) (op : Op) (r : Bool × Device) : Prop where
  answer : r.1 = false
  sequence : OldOrNext c bytes (nextSequence c r.2)
  unread : op.stage = .sequence → r.2.bytes = bytes ∧ r.2.touches = []

theorem wordAt_fill (bytes : ℕ → UInt8) {start len off : ℕ} (hlo : start ≤ off)
    (hhi : off + 4 ≤ start + len) : wordAt (fill bytes start len fun _ => 0xFF) off = 0xFFFFFFFF := by
  have hbyte : ∀ i, i < 4 → fill bytes start len (fun _ => 0xFF) (off + i) = 0xFF := by
    intro i hi
    exact if_pos (by omega)
  have h0 := hbyte 0 (by decide)
  rw [Nat.add_zero] at h0
  simp only [wordAt, h0, hbyte 1 (by decide), hbyte 2 (by decide), hbyte 3 (by decide)]
  rfl

section Count

variable {bytes : ℕ → UInt8} {d : Device}

/-- The bytes of the super page when it is about to be written. -/
def prepared (c : Config) (bytes : ℕ → UInt8) : ℕ → UInt8 :=
  if c.emmcOrUfs then bytes else fill bytes c.superOffset c.erasesize fun _ => 0xFF

theorem wordAt_prepared (hsize : ¬ c.rejects) (hkept : SuperKept c bytes d.bytes) {off : ℕ}
    (hlo : c.superOffset ≤ off) (hhi : off + 4 ≤ c.superOffset + 512) :
    wordAt (prepared c d.bytes) off = wordUnder c bytes off := by
  unfold prepared wordUnder
  split
  · exact wordAt_congr fun i hi _ => hkept i (Nat.le_trans hlo hi)
  · have hw := writesize_ge hsize
    have hpage := Nat.le_of_dvd c.erasesize_pos c.writesize_dvd
    exact wordAt_fill _ hlo (by omega)

theorem sequenceAt_prepared (hsize : ¬ c.rejects) (hkept : SuperKept c bytes d.bytes) :
    sequenceAt (prepared c d.bytes) c.superOffset =
      if c.emmcOrUfs then oldSequence c bytes else 0 := by
  unfold sequenceAt
  rw [wordAt_prepared hsize hkept (Nat.le_refl _) (by omega),
    wordAt_prepared hsize hkept (Nat.le_add_right _ _) (by omega)]
  unfold wordUnder oldSequence sequenceAt
  split
  · rfl
  · exact if_neg (by decide)

theorem nvmIncSequenceNum_eq (hlayout : c.layoutVersion = 0) (hsize : ¬ c.rejects)
    (left : ℕ → UInt8) (written sequence : ℕ) (body : List UInt8) (d : Device)
    (hinfo : Op.superInfo ≠ op) (herase : Op.superErase ≠ op) :
    ∃ d', d'.bytes = prepared c d.bytes ∧
      nvmIncSequenceNum c (single op left written) sequence body d =
        attempt (single op left written) .superOpen false
          (attempt (single op left written) .superSeek false
            (writePage c (single op left written) .superWrite c.superOffset
              (journalPage c nvramJournalSuperPage (uint32 (sequence + 1)) body)
                fun d => (true, d))) d' := by
  have hone : ¬ c.layoutVersion = 1 := by rw [hlayout]; decide
  have hzero : ¬ c.layoutVersion ≠ 0 := not_not.mpr hlayout
  simp only [nvmIncSequenceNum, hone, hzero, if_false]
  rw [attempt_other hinfo, if_neg hsize, allocate_single, allocate_single]
  unfold prepared
  split
  · exact ⟨d.logged .superInfo, rfl, rfl⟩
  · rw [erase_other herase]
    exact ⟨(d.logged .superInfo).erased c .superErase c.superOffset, rfl, rfl⟩

/-- A failing erase of the super page leaves the number that can be read from what it leaves. -/
theorem count_erase_failed (hlayout : c.layoutVersion = 0) (hsize : ¬ c.rejects) (body : List UInt8)
    (hbefore : .superErase ∉ d.attempted)
    (hafter : .superErase ∈ (nvmIncSequenceNum c (single .superErase left written)
      (oldSequence c bytes) body d).2.attempted) :
    (nvmIncSequenceNum c (single .superErase left written) (oldSequence c bytes) body d).1 = false ∧
      (OldOrNext c bytes (nextSequence c (nvmIncSequenceNum c (single .superErase left written)
        (oldSequence c bytes) body d).2) ↔ Recoverable c bytes left written .superErase) := by
  have hone : ¬ c.layoutVersion = 1 := by rw [hlayout]; decide
  have hzero : ¬ c.layoutVersion ≠ 0 := not_not.mpr hlayout
  by_cases hemmc : c.emmcOrUfs = true
  · -- there is no erase to fail
    exfalso
    simp only [nvmIncSequenceNum, hone, hzero, hsize, hemmc, if_false, if_true] at hafter
    rw [attempt_other (by decide), allocate_single, allocate_single, attempt_other (by decide),
      attempt_other (by decide), writePage_other (by decide)] at hafter
    simp only [Device.written, Device.logged, List.mem_cons, reduceCtorEq, false_or] at hafter
    exact hbefore hafter
  · simp only [nvmIncSequenceNum, hone, hzero, hsize, hemmc, if_false]
    rw [attempt_other (by decide), allocate_single, allocate_single]
    simp only [Bool.false_eq_true, if_false]
    rw [erase_failed]
    have hpage := Nat.le_of_dvd c.erasesize_pos c.writesize_dvd
    have hw := writesize_ge hsize
    have hleft : sequenceAt (fill d.bytes c.superOffset c.erasesize left) c.superOffset =
        sequenceAt left c.superOffset :=
      sequenceAt_congr fun i hlo hhi => if_pos ⟨hlo, by omega⟩
    refine ⟨rfl, ?_⟩
    unfold nextSequence
    exact iff_of_eq (congrArg _ hleft)

/-- Where the super page is not written the number is that of the page prepared for it. -/
theorem oldOrNext_prepared_iff (hsize : ¬ c.rejects) (hkept : SuperKept c bytes d.bytes) :
    OldOrNext c bytes (sequenceAt (prepared c d.bytes) c.superOffset) ↔
      c.emmcOrUfs = true ∨ OldOrNext c bytes 0 := by
  rw [sequenceAt_prepared hsize hkept]
  by_cases hemmc : c.emmcOrUfs = true
  · simp [hemmc, OldOrNext]
  · simp [hemmc]

/-- A failing operation on the super page is answered, and the number that is left is the old one
or the next in the cases that are recoverable. -/
theorem count_failed (hlayout : c.layoutVersion = 0) (hsize : ¬ c.rejects)
    (hstage : op.stage = .super) (hkept : SuperKept c bytes d.bytes) (body : List UInt8)
    (hbefore : op ∉ d.attempted) (hafter : op ∈ (nvmIncSequenceNum c (single op left written)
      (oldSequence c bytes) body d).2.attempted) :
    (nvmIncSequenceNum c (single op left written) (oldSequence c bytes) body d).1 = false ∧
      (OldOrNext c bytes (nextSequence c
          (nvmIncSequenceNum c (single op left written) (oldSequence c bytes) body d).2) ↔
        Recoverable c bytes left written op) := by
  have hone : ¬ c.layoutVersion = 1 := by rw [hlayout]; decide
  have hzero : ¬ c.layoutVersion ≠ 0 := not_not.mpr hlayout
  cases op with
  | superInfo =>
    simp only [nvmIncSequenceNum, hone, hzero, if_false]
    rw [attempt_failed]
    refine ⟨rfl, iff_of_true (Or.inl ?_) trivial⟩
    exact hkept.sequenceAt
  | superErase =>
    exact count_erase_failed hlayout hsize body hbefore hafter
  | superOpen =>
    obtain ⟨d', hbytes, heq⟩ := nvmIncSequenceNum_eq hlayout hsize left written
      (oldSequence c bytes) body d (by decide : Op.superInfo ≠ .superOpen) (by decide)
    rw [heq, attempt_failed]
    refine ⟨rfl, ?_⟩
    change OldOrNext c bytes (sequenceAt d'.bytes c.superOffset) ↔ _
    rw [hbytes]
    exact oldOrNext_prepared_iff hsize hkept
  | superSeek =>
    obtain ⟨d', hbytes, heq⟩ := nvmIncSequenceNum_eq hlayout hsize left written
      (oldSequence c bytes) body d (by decide : Op.superInfo ≠ .superSeek) (by decide)
    rw [heq, attempt_other (by decide), attempt_failed]
    refine ⟨rfl, ?_⟩
    change OldOrNext c bytes (sequenceAt d'.bytes c.superOffset) ↔ _
    rw [hbytes]
    exact oldOrNext_prepared_iff hsize hkept
  | superWrite =>
    obtain ⟨d', hbytes, heq⟩ := nvmIncSequenceNum_eq hlayout hsize left written
      (oldSequence c bytes) body d (by decide : Op.superInfo ≠ .superWrite) (by decide)
    rw [heq, attempt_other (by decide), attempt_other (by decide), writePage_failed]
    refine ⟨rfl, ?_⟩
    have hnext : uint32 (oldSequence c bytes + 1) < 4294967296 := Nat.mod_lt _ (by decide)
    change OldOrNext c bytes (sequenceAt (overwrite d'.bytes _ _) c.superOffset) ↔ _
    rw [hbytes, sequenceAt_torn hsize _ _ _ hnext,
      wordAt_prepared hsize hkept (Nat.le_refl _) (by omega),
      wordAt_prepared hsize hkept (Nat.le_add_right _ _) (by omega)]
    rfl
  | info | sequenceInfo | sequenceOpen | sequenceSeek | sequenceRead | logErase | logOpen | logSeek
  | logWrite => cases hstage

end Count

theorem eraseAndWrite_true (hlayout : c.layoutVersion = 0) (hsize : ¬ c.rejects)
    (left : ℕ → UInt8) (written sequence : ℕ) {call : Call} (hstage : op.stage = .sequence)
    (hfiles : call.addsFiles = true) (d : Device) :
    (eraseAndWrite c (single op left written) sequence call d).1 = true := by
  have hother : ∀ o : Op, o.stage = .super → o ≠ op := by
    rintro o ho rfl
    rw [ho] at hstage
    cases hstage
  have hrecord : op.stage ≠ .record := by
    rw [hstage]
    decide
  obtain ⟨d', _, _, hcounts⟩ := counts_last c left written sequence hrecord hfiles d
  obtain ⟨d'', _, heq⟩ := nvmIncSequenceNum_eq hlayout hsize left written sequence
    call.superBody d' (hother .superInfo rfl) (hother .superErase rfl)
  rw [hcounts, heq, attempt_other (hother _ rfl), attempt_other (hother _ rfl),
    writePage_other (hother _ rfl)]

theorem historyLog_eq (fault : Faults) {call : Call} (hlevel : ¬ call.level < defaultLogLevel)
    (hlayout : c.layoutVersion = 0) (hsize : ¬ c.rejects) (hinfo : fault.op .info = false)
    (d : Device) : historyLog c fault call d =
      eraseAndWrite c fault (callSequence c fault d) call
        (nvmGetSequenceNum c fault (d.logged .info)).2 := by
  have hone : ¬ c.layoutVersion = 1 := by rw [hlayout]; decide
  have hzero : ¬ c.layoutVersion ≠ 0 := not_not.mpr hlayout
  simp only [historyLog, hlevel, hone, hzero, if_false, attempt, hinfo, Bool.false_eq_true, hsize,
    Nat.not_lt_zero]
  rfl

theorem performed {fault : Faults} {call : Call} {bytes : ℕ → UInt8}
    (h : op ∈ (historyLog c fault call (untouched bytes)).2.attempted) :
    ¬ call.level < defaultLogLevel ∧ c.layoutVersion = 0 ∧
      (op ≠ .info → ¬ c.rejects) := by
  unfold historyLog at h
  by_cases hlevel : call.level < defaultLogLevel
  · rw [if_pos hlevel] at h
    cases h
  by_cases hone : c.layoutVersion = 1
  · rw [if_neg hlevel, if_pos hone] at h
    cases h
  by_cases hzero : c.layoutVersion ≠ 0
  · rw [if_neg hlevel, if_neg hone, if_pos hzero] at h
    cases h
  refine ⟨hlevel, not_not.mp hzero, ?_⟩
  intro hinfo hsize
  simp only [hlevel, hone, hzero, hsize, attempt, if_false, if_true, ite_self] at h
  exact hinfo (List.mem_singleton.mp h)

theorem nvmGetSequenceNum_single (hlayout : c.layoutVersion = 0) (hsize : ¬ c.rejects)
    (hstage : op.stage ≠ .sequence) (d : Device) :
    (nvmGetSequenceNum c (single op left written) d).1 = oldSequence c d.bytes := by
  have hother : ∀ o : Op, o.stage = .sequence → (single op left written).op o = false := by
    intro o ho
    apply decide_eq_false
    rintro rfl
    exact hstage ho
  have hread : SuperPageRead (single op left written) :=
    ⟨hother _ rfl, rfl, hother _ rfl, hother _ rfl, hother _ rfl⟩
  exact nvmGetSequenceNum_read hlayout hsize hread d

theorem info_fails_cleanly {call : Call} (hlevel : ¬ call.level < defaultLogLevel)
    (hlayout : c.layoutVersion = 0) (bytes left : ℕ → UInt8) (written : ℕ) :
    FailsCleanly c bytes .info (historyLog c (single .info left written) call (untouched bytes)) := by
  have hone : ¬ c.layoutVersion = 1 := by rw [hlayout]; decide
  have hzero : ¬ c.layoutVersion ≠ 0 := not_not.mpr hlayout
  simp only [historyLog, hlevel, hone, hzero, if_false]
  rw [attempt_failed]
  refine ⟨rfl, Or.inl rfl, ?_⟩
  intro hstage
  cases hstage

theorem super_fails_cleanly_iff {call : Call} (hlayout : c.layoutVersion = 0) (hsize : ¬ c.rejects)
    (hstage : op.stage = .super) (hfiles : call.addsFiles = true) {bytes left : ℕ → UInt8}
    {written : ℕ} {d : Device} (hkept : SuperKept c bytes d.bytes) (hbefore : op ∉ d.attempted)
    (hafter : op ∈ (eraseAndWrite c (single op left written) (oldSequence c bytes) call
      d).2.attempted) :
    FailsCleanly c bytes op (eraseAndWrite c (single op left written) (oldSequence c bytes) call d) ↔
      Recoverable c bytes left written op := by
  have hrecord : op.stage ≠ .record := by
    rw [hstage]
    decide
  obtain ⟨d', hsuper, hattempted, hcounts⟩ := counts_last c left written
    (oldSequence c bytes) hrecord hfiles d
  rw [hcounts] at hafter ⊢
  have hfresh : op ∉ d'.attempted := by
    intro hin
    rcases hattempted op hin with hin | hin
    · exact hbefore hin
    · exact hrecord hin
  obtain ⟨hanswer, hcount⟩ := count_failed hlayout hsize hstage (hkept.trans hsuper) call.superBody
    hfresh hafter
  constructor
  · intro hclean
    exact hcount.mp hclean.sequence
  · intro hrecoverable
    refine ⟨hanswer, hcount.mpr hrecoverable, ?_⟩
    intro hsequence
    rw [hstage] at hsequence
    cases hsequence

/-- A call in which one operation fails, fails cleanly where the failure is recoverable. -/
theorem fails_cleanly_iff_recoverable (c : Config) (bytes left : ℕ → UInt8) (written level : ℕ)
    (body superBody : List UInt8) {op : Op} (h : op ∈ (nvmHistoryLog c (single op left written)
      level body superBody (untouched bytes)).2.attempted) :
    FailsCleanly c bytes op (nvmHistoryLog c (single op left written) level body superBody
        (untouched bytes)) ↔
      Recoverable c bytes left written op := by
  unfold nvmHistoryLog at h ⊢
  obtain ⟨hlevel, hlayout, hsize⟩ := performed h
  by_cases hinfo : op = .info
  · subst hinfo
    exact iff_of_true (info_fails_cleanly hlevel hlayout bytes left written) trivial
  replace hsize := hsize hinfo
  have hfault : (single op left written).op .info = false := decide_eq_false (Ne.symm hinfo)
  rw [historyLog_eq _ hlevel hlayout hsize hfault] at h ⊢
  obtain ⟨hbytes, _, _⟩ := nvmGetSequenceNum_frame c (single op left written)
    ((untouched bytes).logged .info)
  have hattempts := nvmGetSequenceNum_attempts c (single op left written)
    ((untouched bytes).logged .info) op
  have hnumber : op.stage ≠ .sequence → (nvmGetSequenceNum c (single op left written)
      ((untouched bytes).logged .info)).1 = oldSequence c bytes :=
    fun hstage => nvmGetSequenceNum_single hlayout hsize hstage _
  unfold callSequence at h ⊢
  generalize nvmGetSequenceNum c (single op left written) ((untouched bytes).logged .info) = r at *
  have hbefore : op.stage ≠ .sequence → op ∉ r.2.attempted := by
    intro hstage hin
    rcases hattempts hin with hin | hin
    · exact hinfo (List.mem_singleton.mp hin)
    · exact hstage hin
  have hkept : SuperKept c bytes r.2.bytes := fun i _ => congrFun hbytes i
  have hfiles : (Call.mk level true body superBody).addsFiles = true := rfl
  cases hstage : op.stage with
  | size =>
    exfalso
    cases op <;> first | exact hinfo rfl | contradiction
  | sequence =>
    have htrue := eraseAndWrite_true hlayout hsize left written r.1 hstage hfiles r.2
    apply iff_of_false
    · intro hclean
      rw [hclean.answer] at htrue
      cases htrue
    · cases op <;> first | exact id | cases hstage
  | record =>
    have hnot : op.stage ≠ .sequence := by
      rw [hstage]
      decide
    obtain ⟨hanswer, hsuper⟩ := record_failed hstage r.1 hfiles (hbefore hnot) h
    apply iff_of_true
    · refine ⟨hanswer, Or.inl (hkept.trans hsuper).sequenceAt, ?_⟩
      intro hsequence
      exact absurd hsequence hnot
    · cases op <;> trivial
  | super =>
    have hnot : op.stage ≠ .sequence := by
      rw [hstage]
      decide
    rw [hnumber hnot] at h ⊢
    exact super_fails_cleanly_iff hlayout hsize hstage hfiles hkept (hbefore hnot) h

/-- A record page that is not written in full. -/
theorem torn_record_fails_cleanly : FailsCleanly twoBlocks blank .logWrite
    (nvmHistoryLog twoBlocks (single .logWrite blank 100) 1 [] [] (untouched blank)) :=
  (fails_cleanly_iff_recoverable twoBlocks blank blank 100 1 [] [] (by decide +kernel)).mpr trivial

/-- A call that cannot read the number answers that all is well. -/
theorem unread_sequence_answers_true : ¬ ∀ (c : Config) (op : Op) (bytes left : ℕ → UInt8)
    (written level : ℕ) (body superBody : List UInt8),
    op ∈ (nvmHistoryLog c (single op left written) level body superBody
        (untouched bytes)).2.attempted →
      FailsCleanly c bytes op
        (nvmHistoryLog c (single op left written) level body superBody (untouched bytes)) := by
  intro h
  have hclean := h twoBlocks .sequenceRead blank blank 0 1 [] [] (by decide +kernel)
  have htrue : (nvmHistoryLog twoBlocks (single .sequenceRead blank 0) 1 [] []
      (untouched blank)).1 = true := by
    decide +kernel
  rw [hclean.answer] at htrue
  cases htrue

end HistoryLog
