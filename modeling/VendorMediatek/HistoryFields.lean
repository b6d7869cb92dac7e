import Mathlib.Tactic.IntervalCases
import VendorMediatek.FieldLayouts
import VendorMediatek.HistoryLog
import VendorMediatek.NvramTable

/-!
# The fields of a history record

`NVM_HistoryLog_Time` makes up a journal handle: it copies the IMEI and barcode files of two
directories, the name of the calling function and the text of the log into fields of fixed sizes.
-/

namespace HistoryFields

open FieldLayouts HistoryLog Nvram

def maxFunctionNameLength : ℕ := 48
def maxImeiLength : ℕ := 130
def maxBarcodeLength : ℕ := 250

/-- `timeT` is the size of a time_t. -/
def maxLogLength (timeT : ℕ) : ℕ :=
  nvramJournalHandleSize - 5 * 4 - timeT - maxFunctionNameLength - maxImeiLength - maxBarcodeLength

def prefixImei : List UInt8 := [77, 80, 48, 66, 95]
def prefixBarcode : List UInt8 := [77, 80, 48, 57, 95]

/-- The fields of nvram_journal_handle_t. -/
inductive Field where
  | hMagic | hType | hSequence | hUtcTime | hFuncName | hFuncLine | hLogLength | hLog | imei
  | barcode
  deriving DecidableEq, Repr

def Field.index : Field → ℕ
  | .hMagic => 0
  | .hType => 1
  | .hSequence => 2
  | .hUtcTime => 3
  | .hFuncName => 4
  | .hFuncLine => 5
  | .hLogLength => 6
  | .hLog => 7
  | .imei => 8
  | .barcode => 9

/-- The structure is packed, and no field needs to be moved. -/
def layout (timeT : ℕ) : Layout Field where
  sizes := [4, 4, 4, timeT, maxFunctionNameLength, 4, 4, maxLogLength timeT, maxImeiLength,
    maxBarcodeLength]
  index := Field.index
  index_injective f g h := by cases f <;> cases g <;> first | rfl | cases h
  index_lt f := by cases f <;> simp [Field.index]

/-- An entry of a directory, and what becomes of its file: the st_size that a stat reports, whether
it can be opened, and what is read at once from it. -/
structure DirEntry where
  dName : List UInt8
  stSize : Option ℕ
  opens : Bool
  content : Option (List UInt8)
  length_dName : dName.length = 256
  terminated : 0 ∈ dName

def DirEntry.name (e : DirEntry) : List UInt8 := cString e.dName

/-- The copies made into the journal and the numbers of bytes read into the buffer, each with the
latest first. -/
structure Journal where
  copies : List (Copy Field UInt8)
  reads : List ℕ

namespace Journal

def copy (j : Journal) (f : Field) (start : ℕ) (data : List UInt8) : Journal :=
  { j with copies := ⟨f, start, data⟩ :: j.copies }

def assign (j : Journal) (f : Field) (n : ℕ) : Journal := j.copy f 0 (word n)

def bytes (timeT : ℕ) (j : Journal) : ℕ → UInt8 := (layout timeT).run j.copies fun _ => 0

end Journal

/-! ## The functions -/

/-- A negative count is refused. -/
def DirEntry.read (e : DirEntry) (size : ℤ) : Option (List UInt8) :=
  if size < 0 then none else e.content.map (List.take size.toNat)

def readSize (buffer : Option (List UInt8)) : ℤ := buffer.elim (-1) fun data => data.length

/-- An st_size in an int. -/
def intSize (stSize : ℕ) : ℤ := Int.bmod stSize 4294967296

/-- The body of the loop from the read on. -/
def readFile (e : DirEntry) (size : ℤ) (num : ℕ) (j : Journal) : Bool × Journal :=
  let buffer := (e.read size).getD []
  let j := { j with reads := buffer.length :: j.reads }
  let readSize := readSize (e.read size)
  if readSize ≠ size then (false, j)
  else if readSize = 120 then
    (true, (j.copy .imei 0 (e.dName.take maxImeiLength)).copy .imei e.name.length buffer)
  else if readSize = 66 then
    let start := num * (66 + e.name.length)
    (true, (j.copy .barcode start e.name).copy .barcode (start + e.name.length) buffer)
  else (true, j)

/-- The body of the loop for a file with the prefix. -/
def addOne (e : DirEntry) (num : ℕ) (j : Journal) : Bool × Journal :=
  match e.stSize with
  | none => (false, j)
  | some stSize =>
    if e.opens = false then (false, j) else readFile e (intSize stSize) num j

def addFiles (preFixFile : List UInt8) : List DirEntry → ℕ → Journal → Bool × Journal
  | [], _, j => (true, j)
  | e :: entries, num, j =>
    if e.name = [46] ∨ e.name = [46, 46] then addFiles preFixFile entries num j
    else if preFixFile <+: e.name then
      if 3 ≤ num then (true, j)
      else if (addOne e num j).1 then addFiles preFixFile entries (num + 1) (addOne e num j).2
      else addOne e num j
    else addFiles preFixFile entries num j

/-- A directory that can be opened has a list of entries. -/
def nvmHistoryLogAddFile (dir : Option (List DirEntry)) (preFixFile : List UInt8) (j : Journal) :
    Bool × Journal :=
  match dir with
  | none => (false, j)
  | some entries => addFiles preFixFile entries 0 j

/-- What snprintf puts into a buffer of n bytes. -/
def snprintf (n : ℕ) (text : List UInt8) : List UInt8 := (text.take (n - 1) ++ [0]).take n

/-- The string in h_log, which may run on to the end of the journal. -/
def strlenLog (timeT : ℕ) (j : Journal) : ℕ :=
  let start := (layout timeT).offset .hLog
  (cString ((List.range (nvramJournalHandleSize - start)).map fun i => j.bytes timeT (start + i))).length

/-- What NVM_HistoryLog_Time is called with, and the sequence number that it has read. -/
structure Request where
  sequence : ℕ
  func : List UInt8
  line : ℕ
  time : List UInt8
  log : List UInt8

/-- The journal that is written, from the cleared one on. -/
def nvmHistoryLogTime (timeT : ℕ) (r : Request) (mdRdeb mdCal : Option (List DirEntry)) :
    Bool × Journal :=
  let j := (Journal.mk [] []).assign .hMagic nvramJournalMagic
  let j := j.assign .hType nvramJournalLogPage
  let j := j.assign .hSequence r.sequence
  let j := j.assign .hFuncLine r.line
  let imei := nvmHistoryLogAddFile mdRdeb prefixImei j
  if imei.1 = false then imei
  else
    let barcode := nvmHistoryLogAddFile mdCal prefixBarcode imei.2
    if barcode.1 = false then barcode
    else
      let j := barcode.2.copy .hFuncName 0 r.func
      let j := j.copy .hLog 0 (snprintf (maxLogLength timeT) (r.time ++ 58 :: r.log))
      (true, j.assign .hLogLength (strlenLog timeT j))

/-! ## Copies inside their fields -/

/-- Copies and reads stay inside. -/
structure Inside (timeT : ℕ) (j : Journal) : Prop where
  copies : ∀ c ∈ j.copies, c.InBounds (layout timeT)
  reads : ∀ n ∈ j.reads, n ≤ maxBarcodeLength

/-- A file whose stat and open succeed is read for its size. -/
def DirEntry.Reads (e : DirEntry) (size : ℤ) : Prop :=
  e.opens = true ∧ e.stSize.map intSize = some size

/-- The loop goes on after this file. -/
def DirEntry.Passes (e : DirEntry) : Prop := ∃ size, e.Reads size ∧ readSize (e.read size) = size

/-- What is read from the file fits into the buffer, and with its name into its field. -/
def DirEntry.Fits (e : DirEntry) (num : ℕ) : Prop := ∀ size, e.Reads size →
  ((e.read size).getD []).length ≤ maxBarcodeLength ∧
    (readSize (e.read size) = size → (size = 120 → e.name.length ≤ 10) ∧
      (size = 66 → (num + 1) * (66 + e.name.length) ≤ maxBarcodeLength))

/-- Files that are looked at one after the other, until one does not pass. -/
def FilesFit : List DirEntry → ℕ → Prop
  | [], _ => True
  | e :: files, num => e.Fits num ∧ (e.Passes → FilesFit files (num + 1))

def Taken (preFixFile : List UInt8) (e : DirEntry) : Prop :=
  e.name ≠ [46] ∧ e.name ≠ [46, 46] ∧ preFixFile <+: e.name

instance (preFixFile : List UInt8) (e : DirEntry) : Decidable (Taken preFixFile e) :=
  inferInstanceAs (Decidable (_ ∧ _))

/-- The files of a directory that are looked at, but for those behind one that does not pass. -/
def files (preFixFile : List UInt8) (entries : List DirEntry) : List DirEntry :=
  (entries.filter fun e => Taken preFixFile e).take 3

/-- What is found in a directory fits; `next` is asked for where all files pass. -/
def DirFits (dir : Option (List DirEntry)) (preFixFile : List UInt8) (next : Prop) : Prop :=
  ∀ entries ∈ dir, FilesFit (files preFixFile entries) 0 ∧
    ((∀ e ∈ files preFixFile entries, e.Passes) → next)

def RequestFits (r : Request) (mdRdeb mdCal : Option (List DirEntry)) : Prop :=
  DirFits mdRdeb prefixImei (DirFits mdCal prefixBarcode (r.func.length ≤ maxFunctionNameLength))

section Inside

variable {timeT : ℕ} {j : Journal} {e : DirEntry} {num : ℕ}

theorem inside_copy {f : Field} {start : ℕ} {data : List UInt8} :
    Inside timeT (j.copy f start data) ↔
      start + data.length ≤ (layout timeT).size f ∧ Inside timeT j := by
  constructor
  · intro h
    obtain ⟨hcopy, hcopies⟩ := List.forall_mem_cons.mp h.copies
    exact ⟨hcopy, hcopies, h.reads⟩
  · rintro ⟨hcopy, h⟩
    exact ⟨List.forall_mem_cons.mpr ⟨hcopy, h.copies⟩, h.reads⟩

theorem inside_read {n : ℕ} :
    Inside timeT { j with reads := n :: j.reads } ↔ n ≤ maxBarcodeLength ∧ Inside timeT j := by
  constructor
  · intro h
    obtain ⟨hread, hreads⟩ := List.forall_mem_cons.mp h.reads
    exact ⟨hread, h.copies, hreads⟩
  · rintro ⟨hread, h⟩
    exact ⟨h.copies, List.forall_mem_cons.mpr ⟨hread, h.reads⟩⟩

theorem read_length {n : ℕ} (h : readSize (e.read n) = n) : ((e.read n).getD []).length = n := by
  cases hread : e.read n with
  | none =>
    rw [hread] at h
    change (-1 : ℤ) = n at h
    omega
  | some data =>
    rw [hread] at h
    exact Int.ofNat_inj.mp h

theorem readFile_inside (e : DirEntry) (size : ℤ) (num : ℕ) (j : Journal) :
    Inside timeT (readFile e size num j).2 ↔ Inside timeT j ∧
      ((e.read size).getD []).length ≤ maxBarcodeLength ∧
        (readSize (e.read size) = size → (size = 120 → e.name.length ≤ 10) ∧
          (size = 66 → (num + 1) * (66 + e.name.length) ≤ maxBarcodeLength)) := by
  unfold readFile
  dsimp only
  by_cases hpass : readSize (e.read size) = size
  · rw [if_neg (not_not.mpr hpass), hpass]
    by_cases himei : size = 120
    · subst himei
      have hlen : ((e.read 120).getD []).length = 120 := read_length hpass
      have htake : (e.dName.take maxImeiLength).length = maxImeiLength := by
        rw [List.length_take, e.length_dName]
        rfl
      have hfield : (layout timeT).size .imei = maxImeiLength := rfl
      rw [if_pos rfl, inside_copy, inside_copy, inside_read, hfield, htake, hlen]
      simp only [maxImeiLength, maxBarcodeLength]
      constructor
      · rintro ⟨hname, -, hread, hj⟩
        exact ⟨hj, hread, fun _ => ⟨fun _ => by omega, fun h => absurd h (by decide)⟩⟩
      · rintro ⟨hj, hread, hfits⟩
        have hname := (hfits trivial).1 trivial
        exact ⟨by omega, by decide, hread, hj⟩
    rw [if_neg himei]
    by_cases hbarcode : size = 66
    · subst hbarcode
      have hlen : ((e.read 66).getD []).length = 66 := read_length hpass
      have hfield : (layout timeT).size .barcode = maxBarcodeLength := rfl
      rw [if_pos rfl, inside_copy, inside_copy, inside_read, hfield, Nat.succ_mul, hlen]
      generalize num * (66 + e.name.length) = start
      simp only [maxBarcodeLength]
      constructor
      · rintro ⟨hcopy, -, hread, hj⟩
        exact ⟨hj, hread, fun _ => ⟨fun h => absurd h (by decide), fun _ => by omega⟩⟩
      · rintro ⟨hj, hread, hfits⟩
        have hcopy := (hfits trivial).2 trivial
        exact ⟨by omega, by omega, hread, hj⟩
    · rw [if_neg hbarcode, inside_read]
      tauto
  · rw [if_pos hpass, inside_read]
    tauto

theorem readFile_passes (e : DirEntry) (size : ℤ) (num : ℕ) (j : Journal) :
    (readFile e size num j).1 = true ↔ readSize (e.read size) = size := by
  unfold readFile
  dsimp only
  by_cases hpass : readSize (e.read size) = size
  · rw [if_neg (not_not.mpr hpass)]
    refine iff_of_true ?_ hpass
    split
    · rfl
    · split
      · rfl
      · rfl
  · rw [if_pos hpass]
    exact iff_of_false Bool.false_ne_true hpass

/-- The loop's body for a file that is read, and for one that is not. -/
theorem addOne_cases (e : DirEntry) (num : ℕ) (j : Journal) :
    (∃ size, (∀ n, e.Reads n ↔ n = size) ∧ addOne e num j = readFile e size num j) ∨
      (∀ n, ¬ e.Reads n) ∧ addOne e num j = (false, j) := by
  unfold addOne DirEntry.Reads
  cases e.stSize with
  | none => exact Or.inr ⟨nofun, rfl⟩
  | some stSize =>
    cases e.opens with
    | false => exact Or.inr ⟨nofun, rfl⟩
    | true =>
      refine Or.inl ⟨intSize stSize, fun n => ?_, if_neg nofun⟩
      rw [Option.map_some, Option.some_inj]
      exact (and_iff_right rfl).trans eq_comm

theorem addOne_inside (e : DirEntry) (num : ℕ) (j : Journal) :
    Inside timeT (addOne e num j).2 ↔ Inside timeT j ∧ e.Fits num := by
  unfold DirEntry.Fits
  rcases addOne_cases e num j with ⟨size, hreads, heq⟩ | ⟨hreads, heq⟩
  · simp only [heq, readFile_inside, hreads, forall_eq]
  · rw [heq]
    exact ⟨fun h => ⟨h, fun n hn => absurd hn (hreads n)⟩, And.left⟩

theorem addOne_passes (e : DirEntry) (num : ℕ) (j : Journal) :
    (addOne e num j).1 = true ↔ e.Passes := by
  unfold DirEntry.Passes
  rcases addOne_cases e num j with ⟨size, hreads, heq⟩ | ⟨hreads, heq⟩
  · simp only [heq, readFile_passes, hreads, exists_eq_left]
  · rw [heq]
    exact iff_of_false Bool.false_ne_true fun ⟨n, hn, _⟩ => hreads n hn

/-- The loop over the files that are taken. -/
def addAll : List DirEntry → ℕ → Journal → Bool × Journal
  | [], _, j => (true, j)
  | e :: files, num, j =>
    if (addOne e num j).1 then addAll files (num + 1) (addOne e num j).2 else addOne e num j

/-- The rest of a directory after `num` files: the others are passed over, and from the third file
on nothing is looked at. -/
theorem addFiles_eq (preFixFile : List UInt8) (entries : List DirEntry) (num : ℕ) (j : Journal) :
    addFiles preFixFile entries num j =
      addAll ((entries.filter fun e => Taken preFixFile e).take (3 - num)) num j := by
  induction entries generalizing num j with
  | nil =>
    rw [List.filter_nil, List.take_nil]
    rfl
  | cons e entries ih =>
    by_cases htaken : Taken preFixFile e
    · rw [List.filter_cons_of_pos (by simpa using htaken), addFiles,
        if_neg (not_or.mpr ⟨htaken.1, htaken.2.1⟩), if_pos htaken.2.2]
      by_cases hnum : 3 ≤ num
      · rw [if_pos hnum, Nat.sub_eq_zero_of_le hnum, List.take_zero]
        rfl
      · have hrest : 3 - num = 3 - (num + 1) + 1 := by omega
        rw [if_neg hnum, hrest, List.take_succ_cons, addAll, ih]
    · rw [List.filter_cons_of_neg (by simpa using htaken), ← ih, addFiles]
      by_cases hdot : e.name = [46] ∨ e.name = [46, 46]
      · rw [if_pos hdot]
      · rw [if_neg hdot, if_neg]
        exact fun hprefix => htaken ⟨(not_or.mp hdot).1, (not_or.mp hdot).2, hprefix⟩

theorem addAll_inside (files : List DirEntry) (num : ℕ) (j : Journal) :
    Inside timeT (addAll files num j).2 ↔ Inside timeT j ∧ FilesFit files num := by
  induction files generalizing num j with
  | nil => exact (and_iff_left trivial).symm
  | cons e files ih =>
    rw [addAll, FilesFit]
    by_cases hpasses : e.Passes
    · rw [if_pos ((addOne_passes e num j).mpr hpasses), ih, addOne_inside, and_assoc,
        imp_iff_right hpasses]
    · rw [if_neg fun h => hpasses ((addOne_passes e num j).mp h), addOne_inside]
      simp only [hpasses, false_imp_iff, and_true]

theorem addAll_passes (files : List DirEntry) (num : ℕ) (j : Journal) :
    (addAll files num j).1 = true ↔ ∀ e ∈ files, e.Passes := by
  induction files generalizing num j with
  | nil => exact iff_of_true rfl nofun
  | cons e files ih =>
    rw [addAll, List.forall_mem_cons]
    by_cases hpasses : e.Passes
    · rw [if_pos ((addOne_passes e num j).mpr hpasses), ih]
      exact (and_iff_right hpasses).symm
    · have hfails : ¬ (addOne e num j).1 = true :=
        fun h => hpasses ((addOne_passes e num j).mp h)
      rw [if_neg hfails]
      exact iff_of_false hfails fun h => hpasses h.1

variable {dir : Option (List DirEntry)} {preFixFile : List UInt8}

theorem addFile_inside (timeT : ℕ) (dir : Option (List DirEntry)) (preFixFile : List UInt8)
    (j : Journal) : Inside timeT (nvmHistoryLogAddFile dir preFixFile j).2 ↔ Inside timeT j ∧
      ∀ entries ∈ dir, FilesFit (files preFixFile entries) 0 := by
  cases dir with
  | none => exact (and_iff_left nofun).symm
  | some entries =>
    rw [nvmHistoryLogAddFile, addFiles_eq, addAll_inside]
    simp only [Option.mem_def, Option.some_inj, forall_eq']
    rfl

theorem addFile_passes : (nvmHistoryLogAddFile dir preFixFile j).1 = true ↔
    ∃ entries ∈ dir, ∀ e ∈ files preFixFile entries, e.Passes := by
  cases dir with
  | none => exact iff_of_false Bool.false_ne_true nofun
  | some entries =>
    rw [nvmHistoryLogAddFile, addFiles_eq, addAll_passes]
    simp only [Option.mem_def, Option.some_inj, exists_eq_left']
    rfl

theorem dirFits_iff (j : Journal) (next : Prop) : DirFits dir preFixFile next ↔
    (∀ entries ∈ dir, FilesFit (files preFixFile entries) 0) ∧
      ((nvmHistoryLogAddFile dir preFixFile j).1 = true → next) := by
  rw [addFile_passes]
  constructor
  · intro h
    exact ⟨fun entries hdir => (h entries hdir).1, fun ⟨entries, hdir, hpass⟩ =>
      (h entries hdir).2 hpass⟩
  · rintro ⟨hfit, hnext⟩ entries hdir
    exact ⟨hfit entries hdir, fun hpass => hnext ⟨entries, hdir, hpass⟩⟩

theorem inside_assign {f : Field} (hf : (layout timeT).size f = 4) (n : ℕ) :
    Inside timeT (j.assign f n) ↔ Inside timeT j := by
  rw [Journal.assign, inside_copy, hf]
  exact and_iff_right (Nat.le_refl 4)

theorem inside_log (text : List UInt8) :
    Inside timeT (j.copy .hLog 0 (snprintf (maxLogLength timeT) text)) ↔ Inside timeT j := by
  rw [inside_copy, Nat.zero_add]
  exact and_iff_right (List.length_take_le _ _)

theorem inside_header (timeT : ℕ) (r : Request) : Inside timeT (((((Journal.mk [] []).assign .hMagic
    nvramJournalMagic).assign .hType nvramJournalLogPage).assign .hSequence r.sequence).assign
      .hFuncLine r.line) := by
  rw [inside_assign rfl, inside_assign rfl, inside_assign rfl, inside_assign rfl]
  exact ⟨nofun, nofun⟩

theorem nvmHistoryLogTime_inside (timeT : ℕ) (r : Request)
    (mdRdeb mdCal : Option (List DirEntry)) :
    Inside timeT (nvmHistoryLogTime timeT r mdRdeb mdCal).2 ↔ RequestFits r mdRdeb mdCal := by
  have hheader := inside_header timeT r
  unfold nvmHistoryLogTime
  dsimp only
  generalize Journal.assign _ .hFuncLine r.line = j at hheader ⊢
  unfold RequestFits
  rw [dirFits_iff j, dirFits_iff (nvmHistoryLogAddFile mdRdeb prefixImei j).2]
  have himei := addFile_inside timeT mdRdeb prefixImei j
  rw [and_iff_right hheader] at himei
  generalize nvmHistoryLogAddFile mdRdeb prefixImei j = imei at himei ⊢
  by_cases hpasses : imei.1 = true
  · have hbarcode := addFile_inside timeT mdCal prefixBarcode imei.2
    rw [himei] at hbarcode
    rw [if_neg (ne_false_of_eq_true hpasses), imp_iff_right hpasses, ← and_assoc, ← hbarcode]
    generalize nvmHistoryLogAddFile mdCal prefixBarcode imei.2 = barcode
    by_cases hall : barcode.1 = true
    · have hfield : (layout timeT).size .hFuncName = maxFunctionNameLength := rfl
      rw [if_neg (ne_false_of_eq_true hall), imp_iff_right hall, inside_assign rfl, inside_log,
        inside_copy, hfield, Nat.zero_add]
      exact and_comm
    · rw [if_pos (Bool.of_not_eq_true hall)]
      exact (and_iff_left fun h => absurd h hall).symm
  · rw [if_pos (Bool.of_not_eq_true hpasses), himei]
    exact (and_iff_left fun h => absurd h hpasses).symm

/-- Every copy stays inside its field or the buffer, and a field of the page that is written holds
what was copied there for it. -/
structure Contained (timeT : ℕ) (answer : Bool × Journal) : Prop where
  inside : Inside timeT answer.2
  page : answer.1 = true → ∀ f i, i < (layout timeT).size f →
    answer.2.bytes timeT ((layout timeT).offset f + i) =
      (layout timeT).run (answer.2.copies.filter fun c => c.field = f) (fun _ => 0)
        ((layout timeT).offset f + i)

/-- The copies are contained exactly when the files, their names and the name of the function fit
into what they are copied to. -/
theorem contained_iff (timeT : ℕ) (r : Request) (mdRdeb mdCal : Option (List DirEntry)) :
    Contained timeT (nvmHistoryLogTime timeT r mdRdeb mdCal) ↔ RequestFits r mdRdeb mdCal := by
  rw [← nvmHistoryLogTime_inside timeT]
  constructor
  · exact Contained.inside
  · intro h
    exact ⟨h, fun _ f i hi => run_field h.copies hi _⟩

end Inside

/-- A barcode file of 251 bytes. -/
def longBarcode : DirEntry where
  dName := prefixBarcode ++ [48, 48, 48] ++ List.replicate 248 0
  stSize := some 251
  opens := true
  content := some (List.replicate 251 48)
  length_dName := by
    rw [List.length_append, List.length_replicate]
    rfl
  terminated := List.mem_append_right _ (List.mem_replicate.mpr ⟨by decide, rfl⟩)

/-- It is read beyond the end of the buffer. -/
theorem long_barcode_overruns : ¬ ∀ (timeT : ℕ) (r : Request)
    (mdRdeb mdCal : Option (List DirEntry)),
    Contained timeT (nvmHistoryLogTime timeT r mdRdeb mdCal) := by
  intro h
  have hcontained := h 4 ⟨0, [], 0, [], []⟩ (some []) (some [longBarcode])
  have hread := hcontained.inside.reads 251 (by decide +kernel)
  revert hread
  decide

/-! ## The start of the page -/

section Header

variable {timeT : ℕ} {j j' : Journal} {e : DirEntry}

/-- Further copies go to fields behind h_sequence. -/
def Extends (j j' : Journal) : Prop :=
  ∃ new, j'.copies = new ++ j.copies ∧ ∀ c ∈ new, 2 < c.field.index

theorem extends_refl (j : Journal) : Extends j j := ⟨[], rfl, nofun⟩

theorem Extends.copy (h : Extends j j') {f : Field} (hf : 2 < f.index) (start : ℕ)
    (data : List UInt8) : Extends j (j'.copy f start data) := by
  obtain ⟨new, hcopies, hnew⟩ := h
  exact ⟨_ :: new, congrArg _ hcopies, List.forall_mem_cons.mpr ⟨hf, hnew⟩⟩

theorem addOne_extends (h : Extends j j') (e : DirEntry) (num : ℕ) :
    Extends j (addOne e num j').2 := by
  rcases addOne_cases e num j' with ⟨size, _, heq⟩ | ⟨_, heq⟩
  · rw [heq, readFile]
    dsimp only
    have hread : Extends j { j' with reads := ((e.read size).getD []).length :: j'.reads } := h
    split
    · exact hread
    · split
      · exact (hread.copy (by decide) _ _).copy (by decide) _ _
      · split
        · exact (hread.copy (by decide) _ _).copy (by decide) _ _
        · exact hread
  · rw [heq]
    exact h

theorem addAll_extends (h : Extends j j') (files : List DirEntry) (num : ℕ) :
    Extends j (addAll files num j').2 := by
  induction files generalizing num j' with
  | nil => exact h
  | cons e files ih =>
    rw [addAll]
    split
    · exact ih (addOne_extends h e num) (num + 1)
    · exact addOne_extends h e num

theorem addFile_extends (h : Extends j j') (dir : Option (List DirEntry)) (preFixFile : List UInt8) :
    Extends j (nvmHistoryLogAddFile dir preFixFile j').2 := by
  cases dir with
  | none => exact h
  | some entries =>
    rw [nvmHistoryLogAddFile, addFiles_eq]
    exact addAll_extends h _ 0

theorem nvmHistoryLogTime_extends (timeT : ℕ) (r : Request) (mdRdeb mdCal : Option (List DirEntry)) :
    Extends ((((Journal.mk [] []).assign .hMagic nvramJournalMagic).assign .hType
      nvramJournalLogPage).assign .hSequence r.sequence)
        (nvmHistoryLogTime timeT r mdRdeb mdCal).2 := by
  unfold nvmHistoryLogTime
  dsimp only
  generalize Journal.assign _ .hSequence r.sequence = j
  have hline : Extends j (j.assign .hFuncLine r.line) :=
    (extends_refl j).copy (by decide) _ _
  have himei := addFile_extends hline mdRdeb prefixImei
  generalize nvmHistoryLogAddFile mdRdeb prefixImei (j.assign .hFuncLine r.line) = imei at himei ⊢
  have hbarcode := addFile_extends himei mdCal prefixBarcode
  split
  · exact himei
  · split
    · exact hbarcode
    · have hname := hbarcode.copy (f := .hFuncName) (by decide) 0 r.func
      exact (hname.copy (by decide) _ _).copy (by decide) _ _

/-- Whatever is copied, the page starts with its magic, its type and its number. -/
theorem header_kept (timeT : ℕ) (r : Request) (mdRdeb mdCal : Option (List DirEntry)) {i : ℕ}
    (hi : i < 12) : (nvmHistoryLogTime timeT r mdRdeb mdCal).2.bytes timeT i =
      (word nvramJournalMagic ++ word nvramJournalLogPage ++ word r.sequence).getD i 0 := by
  obtain ⟨new, hcopies, hnew⟩ := nvmHistoryLogTime_extends timeT r mdRdeb mdCal
  have hbefore : ∀ c ∈ new, i < (layout timeT).offset c.field := by
    intro c hc
    have hle := offset_le_of_lt (layout timeT) (f := .hSequence) (hnew c hc)
    have hend : (layout timeT).offset .hSequence + (layout timeT).size .hSequence = 12 := rfl
    omega
  rw [Journal.bytes, hcopies, Layout.run, List.foldr_append]
  refine (run_before hbefore _).trans ?_
  interval_cases i <;> rfl

/-- The page of the record is the one that the ring of record pages is written with. -/
theorem journalPage_eq (c : Config) (timeT : ℕ) (r : Request)
    (mdRdeb mdCal : Option (List DirEntry)) :
    let bytes := (nvmHistoryLogTime timeT r mdRdeb mdCal).2.bytes timeT
    journalPage c nvramJournalLogPage r.sequence ((List.range 500).map fun i => bytes (12 + i)) =
      ((List.range nvramJournalHandleSize).map bytes ++ List.replicate c.writesize 0).take
        c.writesize := by
  intro bytes
  have hheader : (List.range 12).map bytes =
      word nvramJournalMagic ++ word nvramJournalLogPage ++ word r.sequence := by
    apply List.ext_getElem
    · rw [List.length_map, List.length_range]
      rfl
    · intro i hi _
      rw [List.getElem_map, List.getElem_range, ← List.getD_eq_getElem _ 0]
      exact header_kept timeT r mdRdeb mdCal (by simpa using hi)
  rw [nvramJournalHandleSize, show 512 = 12 + 500 from rfl, List.range_add, List.map_append, hheader,
    List.map_map, journalPage]
  simp only [Function.comp_def]

end Header

end HistoryFields
