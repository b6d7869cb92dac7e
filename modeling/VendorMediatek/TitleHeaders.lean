import VendorMediatek.CheckData
import VendorMediatek.Tilings

/-!
# The title headers

Where `NVM_RestoreFromFiles_OneFile` finds the titles of a backup type. The map file begins with a
checksum and two file numbers, then comes one of five headers, then the titles. The header is read
into one of five structures; every case of the switch then chooses one of them again.
-/

namespace TitleHeaders

open CheckData Tilings

inductive Count where
  | iApBootNum | iApCleanNum | iMdBootNum | iMdCleanNum | iMdImpntNum | iMdCoreNum | iMdDataNum
  | iMd2BootNum | iMd2CleanNum | iMd2ImpntNum | iMd5BootNum | iMd5CleanNum | iMd5ImpntNum
  | iViaNum | iMd3BootNum | iMd3CleanNum | iMd3ImpntNum
  deriving DecidableEq, Repr

/-! ## The structures -/

inductive Member where
  | shortInt (count : Count)
  | iFileBufLen
  | backupFlag
  deriving DecidableEq, Repr

/-- A short int or an int. -/
def Member.size : Member → ℕ
  | .shortInt _ => 2
  | _ => 4

/-- The next multiple of the size. -/
def align (size pos : ℕ) : ℕ := (pos + size - 1) / size * size

/-- The members from a position on with their own positions, and where they end. -/
def place : ℕ → List Member → List (Member × ℕ) × ℕ
  | pos, [] => ([], pos)
  | pos, m :: ms =>
    let rest := place (align m.size pos + m.size) ms
    ((m, align m.size pos) :: rest.1, rest.2)

/-- The counts of the application side and of the first modem. -/
def apMd : List Count :=
  [.iApBootNum, .iApCleanNum, .iMdBootNum, .iMdCleanNum, .iMdImpntNum, .iMdCoreNum, .iMdDataNum]

def md2 : List Count := [.iMd2BootNum, .iMd2CleanNum, .iMd2ImpntNum]
def md5 : List Count := [.iMd5BootNum, .iMd5CleanNum, .iMd5ImpntNum]
def md3 : List Count := [.iMd3BootNum, .iMd3CleanNum, .iMd3ImpntNum]

/-- File_Title_Header1 to File_Title_Header5. -/
inductive Header where
  | header1 | header2 | header3 | header4 | header5
  deriving DecidableEq, Repr

def Header.members : Header → List Member
  | .header1 => (apMd ++ md2 ++ md5 ++ [Count.iViaNum]).map .shortInt ++ [.iFileBufLen, .backupFlag]
  | .header2 => (apMd ++ md2 ++ md5).map .shortInt ++ [.iFileBufLen, .backupFlag] ++
      [.shortInt .iViaNum]
  | .header3 => (apMd ++ md2 ++ [Count.iViaNum]).map .shortInt ++ [.iFileBufLen, .backupFlag] ++
      md5.map .shortInt
  | .header4 => (apMd ++ md2).map .shortInt ++ [.iFileBufLen, .backupFlag] ++
      (md5 ++ [Count.iViaNum]).map .shortInt
  | .header5 => (apMd ++ md2 ++ md5 ++ md3).map .shortInt ++ [.iFileBufLen, .backupFlag]

def Header.sizeof (h : Header) : ℕ := align 4 (place 0 h.members).2

/-- Where a count stands in the structure. -/
def Header.position (h : Header) (c : Count) : Option ℕ :=
  (place 0 h.members).1.lookup (.shortInt c)

/-- How many bytes are read into the structure. -/
def Header.readSize : Header → ℕ
  | .header1 => Header.sizeof .header1
  | .header2 => Header.sizeof .header2 - 2 * 2
  | .header3 => Header.sizeof .header3 - 4 * 2
  | .header4 => Header.sizeof .header4 - 4 * 2
  | .header5 => Header.sizeof .header5

/-- The structure that the features choose, for the size of the header, the read and most cases. -/
def fileTitleInfo (s : Support) : Header :=
  if s.md5 && s.evdo && !s.ecciC2k then .header1
  else if s.md5 && !s.evdo && !s.ecciC2k then .header2
  else if !s.md5 && s.evdo && !s.ecciC2k then .header3
  else if !s.md5 && !s.evdo && !s.ecciC2k then .header4
  else .header5

/-! ## The switch -/

/-- The structure that a case uses, its count, and the counts that are added up before it. -/
structure Selection where
  header : Header
  count : Count
  before : List Count
  deriving DecidableEq, Repr

/-- The structure of the cases MD5BOOT, MD5CLN and MD5IMP. -/
def md5Info (s : Support) (headerOffset : ℤ) : Option Header :=
  if headerOffset = 0 ∧ s.md5 = true ∧ s.ecciC2k = false then
    some (if s.evdo then .header1 else .header2)
  else if headerOffset = 0 ∧ s.md5 = true ∧ s.ecciC2k = true then some .header5
  else none

/-- The structure of the cases MD3BOOT, MD3CLN and MD3IMP. -/
def md3Info (s : Support) (headerOffset : ℤ) : Option Header :=
  if headerOffset = 0 ∧ s.ecciC2k = true then some .header5 else none

def md2Info (s : Support) (headerOffset : ℤ) : Option Header :=
  if headerOffset = 0 then some (fileTitleInfo s) else none

def viaSelection (s : Support) (headerOffset : ℤ) : Option Selection :=
  if headerOffset = 0 ∧ s.md5 = true ∧ s.evdo = true ∧ s.ecciC2k = false then
    some ⟨.header1, .iViaNum, apMd ++ md2 ++ md5⟩
  else if headerOffset = 0 ∧ s.md5 = false ∧ s.evdo = true ∧ s.ecciC2k = false then
    some ⟨.header3, .iViaNum, apMd ++ md2⟩
  else if headerOffset ≠ 0 ∧ s.evdo = true ∧ s.ecciC2k = false then
    some ⟨.header3, .iViaNum, apMd⟩
  else none

/-- The cases before ALL. none where iFileNum and iFileTitleOffset stay 0. -/
def select (s : Support) (headerOffset : ℤ) : MetaData → Option Selection
  | .apboot => some ⟨fileTitleInfo s, .iApBootNum, []⟩
  | .apcln => some ⟨fileTitleInfo s, .iApCleanNum, [.iApBootNum]⟩
  | .mdboot => some ⟨fileTitleInfo s, .iMdBootNum, [.iApBootNum, .iApCleanNum]⟩
  | .mdcln => some ⟨fileTitleInfo s, .iMdCleanNum, [.iApBootNum, .iApCleanNum, .iMdBootNum]⟩
  | .mdimp => some ⟨fileTitleInfo s, .iMdImpntNum,
      [.iApBootNum, .iApCleanNum, .iMdBootNum, .iMdCleanNum]⟩
  | .mdcor => some ⟨fileTitleInfo s, .iMdCoreNum,
      [.iApBootNum, .iApCleanNum, .iMdBootNum, .iMdCleanNum, .iMdImpntNum]⟩
  | .mddata => some ⟨fileTitleInfo s, .iMdDataNum,
      [.iApBootNum, .iApCleanNum, .iMdBootNum, .iMdCleanNum, .iMdImpntNum, .iMdCoreNum]⟩
  | .md2boot => (md2Info s headerOffset).map fun h => ⟨h, .iMd2BootNum, apMd⟩
  | .md2cln => (md2Info s headerOffset).map fun h => ⟨h, .iMd2CleanNum, apMd ++ [.iMd2BootNum]⟩
  | .md2imp => (md2Info s headerOffset).map fun h =>
      ⟨h, .iMd2ImpntNum, apMd ++ [.iMd2BootNum, .iMd2CleanNum]⟩
  | .md5boot => (md5Info s headerOffset).map fun h => ⟨h, .iMd5BootNum, apMd ++ md2⟩
  | .md5cln => (md5Info s headerOffset).map fun h =>
      ⟨h, .iMd5CleanNum, apMd ++ md2 ++ [.iMd5BootNum]⟩
  | .md5imp => (md5Info s headerOffset).map fun h =>
      ⟨h, .iMd5ImpntNum, apMd ++ md2 ++ [.iMd5BootNum, .iMd5CleanNum]⟩
  | .via => viaSelection s headerOffset
  | .md3boot => (md3Info s headerOffset).map fun h => ⟨h, .iMd3BootNum, apMd ++ md2 ++ md5⟩
  | .md3cln => (md3Info s headerOffset).map fun h =>
      ⟨h, .iMd3CleanNum, apMd ++ md2 ++ md5 ++ [.iMd3BootNum]⟩
  | .md3imp => (md3Info s headerOffset).map fun h =>
      ⟨h, .iMd3ImpntNum, apMd ++ md2 ++ md5 ++ [.iMd3BootNum, .iMd3CleanNum]⟩

/-- sizeof(unsigned int) + 2 * sizeof(unsigned int) -/
def headerBegin : ℕ := 4 + 2 * 4

def fhs (s : Support) (headerOffset : ℤ) : ℤ :=
  if headerOffset ≠ 0 then headerBegin + (fileTitleInfo s).readSize - headerOffset * 2
  else headerBegin + (fileTitleInfo s).readSize

/-- sizeof(File_Title) -/
def fis : ℕ := 3 * 4 + 128

/-- What the five structures hold. -/
abbrev Stack := Header → Count → ℤ

def sum (v : Count → ℤ) (counts : List Count) : ℤ := (counts.map v).sum

def iFileNum (s : Support) (headerOffset : ℤ) (v : Stack) (type : MetaData) : ℤ :=
  match select s headerOffset type with
  | none => 0
  | some sel => v sel.header sel.count

def iFileTitleOffset (s : Support) (headerOffset : ℤ) (v : Stack) (type : MetaData) : ℤ :=
  match select s headerOffset type with
  | none => 0
  | some sel => fhs s headerOffset + sum (v sel.header) sel.before * fis

def titleWindow (s : Support) (headerOffset : ℤ) (v : Stack) (type : MetaData) : Window :=
  ⟨iFileTitleOffset s headerOffset v type, iFileNum s headerOffset v type * fis⟩

/-- The read fills one structure with the counts of the file, the others stay as they were. -/
def Stack.read (v : Stack) (s : Support) (counts : Count → ℤ) : Stack :=
  fun h c => if h = fileTitleInfo s then counts c else v h c

example : Header.header2.sizeof = 40 ∧ Header.header3.position .iViaNum = some 20 := by decide

/-! ## The windows in order -/

/-- Each case adds up the counts of the types before it, after those that are done. -/
def chained (s : Support) : List Count → List MetaData → Bool
  | _, [] => true
  | done, type :: types =>
    match select s 0 type with
    | none => chained s done types
    | some sel =>
      decide (sel.header = fileTitleInfo s ∧ sel.before = done) &&
        chained s (done ++ [sel.count]) types

/-- The counts of the types that are available. -/
def countsOf (s : Support) (types : List MetaData) : List Count :=
  types.filterMap fun type => (select s 0 type).map Selection.count

@[simp] theorem sum_append (v : Count → ℤ) (cs cs' : List Count) :
    sum v (cs ++ cs') = sum v cs + sum v cs' := by
  simp [sum]

theorem fhs_zero (s : Support) : fhs s 0 = headerBegin + (fileTitleInfo s).readSize := if_neg (by simp)

theorem titleWindow_none {s : Support} {type : MetaData} (h : select s 0 type = none) (v : Stack) :
    titleWindow s 0 v type = ⟨0, 0⟩ := by
  simp [titleWindow, iFileTitleOffset, iFileNum, h]

theorem titleWindow_some {s : Support} {type : MetaData} {sel : Selection}
    (h : select s 0 type = some sel) (v : Stack) : titleWindow s 0 v type =
      ⟨fhs s 0 + sum (v sel.header) sel.before * fis, v sel.header sel.count * fis⟩ := by
  simp only [titleWindow, iFileTitleOffset, iFileNum, h]

/-- Windows that are chained tile the titles behind those that are done. -/
theorem tiles_of_chained {s : Support} (v : Stack) {done : List Count} {types : List MetaData}
    (h : chained s done types = true) :
    Tiles (fhs s 0 + sum (v (fileTitleInfo s)) done * fis) (types.map (titleWindow s 0 v)) ∧
      total (types.map (titleWindow s 0 v)) =
        sum (v (fileTitleInfo s)) (countsOf s types) * fis := by
  induction types generalizing done with
  | nil => exact ⟨tiles_nil _, by simp [countsOf, sum]⟩
  | cons type types ih =>
    rw [chained] at h
    cases hsel : select s 0 type with
    | none =>
      rw [hsel] at h
      have hcounts : countsOf s (type :: types) = countsOf s types := by
        simp [countsOf, hsel]
      obtain ⟨htiles, htotal⟩ := ih h
      rw [List.map_cons, titleWindow_none hsel, tiles_cons, total_cons, hcounts, add_zero, zero_add]
      exact ⟨⟨Or.inl rfl, htiles⟩, htotal⟩
    | some sel =>
      rw [hsel, Bool.and_eq_true, decide_eq_true_iff] at h
      obtain ⟨⟨hheader, hbefore⟩, hrest⟩ := h
      have hcounts : countsOf s (type :: types) = sel.count :: countsOf s types := by
        simp [countsOf, hsel]
      have hnext : sum (v (fileTitleInfo s)) (done ++ [sel.count]) =
          sum (v (fileTitleInfo s)) done + v (fileTitleInfo s) sel.count := by
        simp [sum]
      obtain ⟨htiles, htotal⟩ := ih hrest
      rw [hnext, add_mul, ← add_assoc] at htiles
      rw [List.map_cons, titleWindow_some hsel, hheader, hbefore, tiles_cons, total_cons, hcounts]
      refine ⟨⟨Or.inr rfl, htiles⟩, ?_⟩
      rw [htotal]
      simp only [sum, List.map_cons, List.sum_cons, add_mul]

/-- All the cases are chained, except those of the third modem where its header comes without
support of the fifth modem. -/
theorem chained_all (s : Support) (h : ¬ (s.ecciC2k = true ∧ s.md5 = false)) :
    chained s [] MetaData.beforeAll = true := by
  obtain ⟨_ | _, _ | _, _ | _⟩ := s
  all_goals first | decide | exact absurd ⟨rfl, rfl⟩ h

/-- With header 5 but without the fifth modem its titles stay between the windows: those of the
third modem begin behind them. -/
theorem tiles_without_md5 (evdo : Bool) (v : Stack) :
    Tiles (fhs ⟨false, evdo, true⟩ 0)
        (MetaData.beforeAll.map (titleWindow ⟨false, evdo, true⟩ 0 v)) ↔
      (sum (v .header5) md5 = 0 ∨ ∀ c ∈ md3, v .header5 c = 0) := by
  have hheader : fileTitleInfo ⟨false, evdo, true⟩ = .header5 := by cases evdo <;> rfl
  have hfirst : chained ⟨false, evdo, true⟩ [] (MetaData.beforeAll.take 10) = true := by
    cases evdo <;> decide
  have hcounts : countsOf ⟨false, evdo, true⟩ (MetaData.beforeAll.take 10) = apMd ++ md2 := by
    cases evdo <;> rfl
  have hlast : (MetaData.beforeAll.drop 10).map (titleWindow ⟨false, evdo, true⟩ 0 v) =
      List.replicate 4 ⟨0, 0⟩ ++ [titleWindow ⟨false, evdo, true⟩ 0 v .md3boot,
        titleWindow ⟨false, evdo, true⟩ 0 v .md3cln,
        titleWindow ⟨false, evdo, true⟩ 0 v .md3imp] := by
    cases evdo <;> rfl
  have hwindow : ∀ c before type, select ⟨false, evdo, true⟩ 0 type = some ⟨.header5, c, before⟩ →
      titleWindow ⟨false, evdo, true⟩ 0 v type =
        ⟨fhs ⟨false, evdo, true⟩ 0 + sum (v .header5) before * fis, v .header5 c * fis⟩ :=
    fun _ _ _ hsel => titleWindow_some hsel v
  obtain ⟨htiles, htotal⟩ := tiles_of_chained v hfirst
  rw [sum, List.map_nil, List.sum_nil, zero_mul, add_zero] at htiles
  rw [hcounts, hheader] at htotal
  rw [← List.take_append_drop 10 MetaData.beforeAll, List.map_append, tiles_append, htotal, hlast,
    hwindow _ _ .md3boot rfl, hwindow _ _ .md3cln rfl, hwindow _ _ .md3imp rfl]
  have hfis : (fis : ℤ) = 140 := rfl
  have hboot : sum (v .header5) [.iMd3BootNum] = v .header5 .iMd3BootNum := add_zero _
  have hcln : sum (v .header5) [.iMd3BootNum, .iMd3CleanNum] =
      v .header5 .iMd3BootNum + v .header5 .iMd3CleanNum := by simp [sum]
  simp only [List.replicate, List.cons_append, List.nil_append, tiles_cons, tiles_nil, sum_append,
    hboot, hcln, hfis, md3, List.forall_mem_cons, List.not_mem_nil, false_implies, implies_true,
    and_true, true_or, true_and, add_zero]
  constructor
  · rintro ⟨-, hboot, hcln, himp⟩
    omega
  · intro h
    refine ⟨htiles, ?_⟩
    omega

/-- The header ends where the titles begin. -/
def headerEnd (s : Support) : ℤ := headerBegin + (fileTitleInfo s).readSize

theorem tiles_titles {s : Support} (h : ¬ (s.ecciC2k = true ∧ s.md5 = false)) (v : Stack) :
    Tiles (headerEnd s) (MetaData.beforeAll.map (titleWindow s 0 v)) := by
  have htiles := (tiles_of_chained v (chained_all s h)).1
  rwa [sum, List.map_nil, List.sum_nil, zero_mul, add_zero, fhs_zero] at htiles

/-- The windows tile the title area, with the one exception that a header 5 holds titles of the
fifth modem, which is not supported, before titles of the third. -/
theorem tiles_iff (s : Support) (v : Stack) (counts : Count → ℕ) :
    Tiles (headerEnd s)
        (MetaData.beforeAll.map (titleWindow s 0 (v.read s fun c => counts c))) ↔
      ¬ (s.ecciC2k = true ∧ s.md5 = false ∧ (∃ c ∈ md5, counts c ≠ 0) ∧
        ∃ c ∈ md3, counts c ≠ 0) := by
  by_cases hgap : s.ecciC2k = true ∧ s.md5 = false
  · obtain ⟨md5', evdo, ecci⟩ := s
    obtain ⟨rfl, rfl⟩ := hgap
    have hheader : fileTitleInfo ⟨false, evdo, true⟩ = .header5 := by cases evdo <;> rfl
    rw [headerEnd, ← fhs_zero, tiles_without_md5]
    simp only [Stack.read, hheader, if_true, sum, md5, md3, List.map_cons, List.map_nil,
      List.sum_cons, List.sum_nil, List.forall_mem_cons, List.exists_mem_cons_iff,
      List.not_mem_nil, false_implies, implies_true, true_and, and_true, false_and, exists_false,
      or_false]
    omega
  · exact iff_of_true (tiles_titles hgap _) fun h => hgap ⟨h.1, h.2.1⟩

/-- One title of every type in a header 5. -/
theorem tiles_gap :
    ¬ Tiles (headerEnd ⟨false, false, true⟩) (MetaData.beforeAll.map (titleWindow
      ⟨false, false, true⟩ 0 (Stack.read (fun _ _ => 0) ⟨false, false, true⟩ fun _ => 1))) := by
  decide

def supports : List Support :=
  [⟨false, false, false⟩, ⟨false, false, true⟩, ⟨false, true, false⟩, ⟨false, true, true⟩,
    ⟨true, false, false⟩, ⟨true, false, true⟩, ⟨true, true, false⟩, ⟨true, true, true⟩]

/-- Without an offset every case uses the structure of the read, and only what is read into it. -/
theorem selections_filled :
    (supports.all fun s => MetaData.beforeAll.all fun type =>
      match select s 0 type with
      | none => true
      | some sel => decide (sel.header = fileTitleInfo s) && (sel.count :: sel.before).all fun c =>
        match sel.header.position c with
        | none => false
        | some p => decide (p + 2 ≤ sel.header.readSize)) = true := by
  decide +kernel

theorem select_zero {s : Support} {type : MetaData} {sel : Selection}
    (h : select s 0 type = some sel) :
    sel.header = fileTitleInfo s ∧ ∀ c ∈ sel.count :: sel.before,
      ∃ p, sel.header.position c = some p ∧ p + 2 ≤ sel.header.readSize := by
  have hs : s ∈ supports := by
    obtain ⟨_ | _, _ | _, _ | _⟩ := s <;> simp [supports]
  have htype : type ∈ MetaData.beforeAll := by cases type <;> simp [MetaData.beforeAll]
  have hfilled := List.all_eq_true.mp (List.all_eq_true.mp selections_filled s hs) type htype
  rw [h, Bool.and_eq_true, decide_eq_true_iff, List.all_eq_true] at hfilled
  refine ⟨hfilled.1, fun c hc => ?_⟩
  have hfits := hfilled.2 c hc
  cases hp : sel.header.position c with
  | none =>
    rw [hp] at hfits
    cases hfits
  | some p =>
    rw [hp] at hfits
    exact ⟨p, rfl, of_decide_eq_true hfits⟩

theorem titles_covered {s : Support} (h : ¬ (s.ecciC2k = true ∧ s.md5 = false)) (v : Stack)
    (counts : Count → ℕ) {x : ℤ} (hbegin : headerEnd s ≤ x)
    (hend : x < headerEnd s + total (MetaData.beforeAll.map
      (titleWindow s 0 (v.read s fun c => counts c)))) :
    (MetaData.beforeAll.map (titleWindow s 0 (v.read s fun c => counts c))).countP
      (fun w => w.Contains x) = 1 := by
  rw [(tiles_titles h _).countP_contains, if_pos ⟨hbegin, hend⟩]
  intro w hw
  obtain ⟨type, -, rfl⟩ := List.mem_map.mp hw
  have hnum : 0 ≤ iFileNum s 0 (v.read s fun c => counts c) type := by
    unfold iFileNum
    cases hsel : select s 0 type with
    | none => exact le_rfl
    | some sel =>
      simp only [Stack.read, (select_zero hsel).1, if_true]
      exact Int.natCast_nonneg _
  exact mul_nonneg hnum (Int.natCast_nonneg _)

/-! ## Where the counts come from -/

/-- The positions in the header at which a writer of map files puts the counts, with an offset of
its own. Without one they are those of the structure, and the first counts never move. -/
structure Writer where
  position : Support → ℤ → Count → ℕ
  unshifted : ∀ {s c p}, (fileTitleInfo s).position c = some p → position s 0 c = p
  first : ∀ {s headerOffset c p}, c ∈ apMd → (fileTitleInfo s).position c = some p →
    position s headerOffset c = p

/-- The bytes of the count are read into the structure, from where the writer puts them. -/
def FromRead (w : Writer) (s : Support) (headerOffset : ℤ) (h : Header) (c : Count) : Prop :=
  h = fileTitleInfo s ∧ ∃ p, h.position c = some p ∧ p + 2 ≤ h.readSize ∧
    w.position s headerOffset c = p

/-- Of all the counts that a case of the switch uses. -/
def CountsFromRead (w : Writer) (s : Support) (headerOffset : ℤ) (type : MetaData) : Prop :=
  ∀ sel, select s headerOffset type = some sel →
    ∀ c ∈ sel.count :: sel.before, FromRead w s headerOffset sel.header c

theorem FromRead.of_first {w : Writer} {s : Support} {headerOffset : ℤ} {c : Count} {p : ℕ}
    (hc : c ∈ apMd) (hp : (fileTitleInfo s).position c = some p)
    (hfits : p + 2 ≤ (fileTitleInfo s).readSize) :
    FromRead w s headerOffset (fileTitleInfo s) c :=
  ⟨rfl, p, hp, hfits, w.first hc hp⟩

theorem select_shifted {s : Support} {headerOffset : ℤ} (h : headerOffset ≠ 0) (type : MetaData) :
    type = .via ∨ select s headerOffset type = none ∨
      select s headerOffset type = select s 0 type ∧
        ∀ sel, select s 0 type = some sel → ∀ c ∈ sel.count :: sel.before, c ∈ apMd := by
  cases type with
  | via => exact Or.inl rfl
  | md2boot | md2cln | md2imp => exact Or.inr (Or.inl (by simp [select, md2Info, h]))
  | md5boot | md5cln | md5imp => exact Or.inr (Or.inl (by simp [select, md5Info, h]))
  | md3boot | md3cln | md3imp => exact Or.inr (Or.inl (by simp [select, md3Info, h]))
  | apboot | apcln | mdboot | mdcln | mdimp | mdcor | mddata =>
    refine Or.inr (Or.inr ⟨rfl, fun sel hsel => ?_⟩)
    cases hsel
    dsimp only
    decide

theorem select_via_shifted {s : Support} {headerOffset : ℤ} (h : headerOffset ≠ 0) :
    select s headerOffset .via =
      if s.evdo = true ∧ s.ecciC2k = false then some ⟨.header3, .iViaNum, apMd⟩ else none := by
  simp [select, viaSelection, h]

/-- Without the fifth modem structure 3 is read, and VIA's count is the one that may have moved. -/
theorem countsFromRead_header3 (w : Writer) {headerOffset : ℤ} (h : headerOffset ≠ 0) :
    CountsFromRead w ⟨false, true, false⟩ headerOffset .via ↔
      w.position ⟨false, true, false⟩ headerOffset .iViaNum = 20 := by
  have hvia : Header.header3.position .iViaNum = some 20 := by decide
  unfold CountsFromRead
  rw [select_via_shifted h, if_pos ⟨rfl, rfl⟩]
  constructor
  · intro hall
    obtain ⟨-, p, hp, -, hw⟩ := hall _ rfl .iViaNum List.mem_cons_self
    cases hvia.symm.trans hp
    exact hw
  · intro hw sel hsel c hc
    cases hsel
    rcases List.mem_cons.mp hc with rfl | hc
    · exact ⟨rfl, 20, hvia, by decide, hw⟩
    · have hfits : ∀ c ∈ apMd, ∃ p, Header.header3.position c = some p ∧
          p + 2 ≤ Header.header3.readSize := by decide
      obtain ⟨p, hp, hfits⟩ := hfits c hc
      exact FromRead.of_first (s := ⟨false, true, false⟩) hc hp hfits

theorem countsFromRead_via (w : Writer) {s : Support} {headerOffset : ℤ} (h : headerOffset ≠ 0) :
    CountsFromRead w s headerOffset .via ↔ ¬ (s.evdo = true ∧ s.ecciC2k = false ∧
      (s.md5 = true ∨ w.position s headerOffset .iViaNum ≠ 20)) := by
  by_cases havailable : s.evdo = true ∧ s.ecciC2k = false
  · obtain ⟨md5, evdo, ecci⟩ := s
    obtain ⟨rfl, rfl⟩ := havailable
    cases md5 with
    | true =>
      refine iff_of_false (fun hall => ?_) fun hnot => hnot ⟨rfl, rfl, Or.inl rfl⟩
      have hselect : select ⟨true, true, false⟩ headerOffset .via = _ :=
        (select_via_shifted h).trans (if_pos ⟨rfl, rfl⟩)
      obtain ⟨hheader, -⟩ := hall _ hselect .iViaNum List.mem_cons_self
      cases hheader
    | false =>
      rw [countsFromRead_header3 w h]
      simp
  · unfold CountsFromRead
    rw [select_via_shifted h, if_neg havailable]
    exact iff_of_true nofun fun hnot => havailable ⟨hnot.1, hnot.2.1⟩

/-- Every count comes out of the structure that was read, and from where the writer puts it,
except for VIA with a header offset. There it comes out of structure 3, which is not read where the
fifth modem is supported, and else from the place that the count has without an offset. -/
theorem countsFromRead_iff (w : Writer) (s : Support) (headerOffset : ℤ) (type : MetaData) :
    CountsFromRead w s headerOffset type ↔
      ¬ (type = .via ∧ headerOffset ≠ 0 ∧ s.evdo = true ∧ s.ecciC2k = false ∧
        (s.md5 = true ∨ w.position s headerOffset .iViaNum ≠ 20)) := by
  by_cases hzero : headerOffset = 0
  · subst hzero
    refine iff_of_true (fun sel hsel c hc => ?_) fun h => h.2.1 rfl
    obtain ⟨hheader, hfilled⟩ := select_zero hsel
    obtain ⟨p, hp, hfits⟩ := hfilled c hc
    exact ⟨hheader, p, hp, hfits, w.unshifted (hheader ▸ hp)⟩
  · by_cases hvia : type = .via
    · subst hvia
      rw [countsFromRead_via w hzero]
      simp [hzero]
    · refine iff_of_true (fun sel hsel c hc => ?_) fun h => hvia h.1
      rcases select_shifted hzero type with h | hnone | ⟨hsame, hfirst⟩
      · exact absurd h hvia
      · rw [hnone] at hsel
        cases hsel
      · rw [hsame] at hsel
        obtain ⟨hheader, hfilled⟩ := select_zero hsel
        obtain ⟨p, hp, hfits⟩ := hfilled c hc
        rw [hheader] at hp hfits ⊢
        exact FromRead.of_first (hfirst sel hsel c hc) hp hfits

/-- The counts behind the first ones move up by the offset. -/
def shiftWriter : Writer where
  position s headerOffset c :=
    match (fileTitleInfo s).position c with
    | none => 0
    | some p => if c ∈ apMd then p else (p - 2 * headerOffset).toNat
  unshifted hp := by simp [hp]
  first hc hp := by simp [hp, hc]

/-- For VIA with a header offset: a structure that is not read, and a count that has moved. -/
theorem via_not_fromRead :
    ¬ CountsFromRead shiftWriter ⟨true, true, false⟩ 3 .via ∧
      ¬ CountsFromRead shiftWriter ⟨false, true, false⟩ 3 .via := by
  constructor
  · intro h
    obtain ⟨hheader, -⟩ := h _ rfl .iViaNum List.mem_cons_self
    cases hheader
  · intro h
    obtain ⟨-, p, hp, -, hw⟩ := h _ rfl .iViaNum List.mem_cons_self
    have hvia : Header.header3.position .iViaNum = some 20 := by decide
    have hmoved : shiftWriter.position ⟨false, true, false⟩ 3 .iViaNum = 14 := by decide
    cases hvia.symm.trans hp
    exact absurd (hmoved.symm.trans hw) (by decide)

end TitleHeaders
