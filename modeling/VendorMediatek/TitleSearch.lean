import Mathlib.Data.List.Find
import VendorMediatek.NvramTable
import VendorMediatek.TitleHeaders

/-!
# The search for a title

`NVM_RestoreFromFiles_OneFile` and `NVM_CheckData_OneFile` as a search for the title of one file.
The titles of a type are read one after the other into one buffer, and compared with the name of a
table entry or of a file that is asked for.
-/

namespace TitleSearch

open Nvram ByteFile CheckData CheckSum TitleHeaders

/-- The file of a lid, with its table entry and whether it is the version file, or a file name. -/
inductive Request where
  | entry (f : TCfgFile) (isVerInfo : Bool)
  | name (filename : List UInt8)

def Request.isVerInfo : Request → Bool
  | .entry _ isVerInfo => isVerInfo
  | .name _ => false

def Request.path : Request → List UInt8
  | .entry f _ => f.cFileName
  | .name filename => filename

/-- The backup, and what the calls come to: the reads of NVM_GetCheckSum, those of the sum, the
opens of the two files, malloc and the read of the content, and the open, the write and the checks
of the file that is restored. What stands in the memory behind the title buffer and in the
structures before the read is arbitrary. -/
structure Source where
  support : Support
  headerOffset : ℤ
  map : List UInt8
  allFile : Option (List UInt8)
  getsCheckSum : Bool
  sumCalls : SumCalls
  statsAgain : Bool
  opens : Bool
  readsData : Bool
  opensDest : Bool
  writes : Bool
  checks : Bool
  behind : List UInt8
  stack : Stack

/-! ## The titles of a type -/

def shortAt (bytes : List UInt8) (off : ℕ) : ℤ :=
  Int.bmod (leWord (readAt bytes off 2)).toNat 65536

def intAt (bytes : List UInt8) (off : ℕ) : ℤ :=
  Int.bmod (leWord (readAt bytes off 4)).toNat 4294967296

namespace Source

variable (r : Source)

def filled : Stack := fun h c =>
  match h.position c with
  | none => r.stack h c
  | some p =>
    if h = fileTitleInfo r.support ∧ p + 2 ≤ h.readSize ∧ headerBegin + p + 2 ≤ r.map.length then
      shortAt r.map (headerBegin + p)
    else r.stack h c

def iFileNum (type : MetaData) : ℤ :=
  TitleHeaders.iFileNum r.support r.headerOffset r.filled type

def iFileTitleOffset (type : MetaData) : ℤ :=
  TitleHeaders.iFileTitleOffset r.support r.headerOffset r.filled type

/-- Where the titles are read from. A seek to a negative offset fails and leaves the position
behind the header. -/
def titleBegin (type : MetaData) : ℕ :=
  if r.iFileTitleOffset type < 0 then
    headerBegin + min (fileTitleInfo r.support).readSize (r.map.length - headerBegin)
  else (r.iFileTitleOffset type).toNat

def turns (type : MetaData) : ℕ :=
  if 0 < r.iFileNum type ∧ r.iFileNum type < 32767 then (r.iFileNum type).toNat else 0

end Source

/-- The buffer FileInfo after a read. What the read does not reach is still there. -/
def readTitle (map : List UInt8) (pos : ℕ) (fileInfo : List UInt8) : List UInt8 :=
  readAt map pos fis ++ fileInfo.drop (readAt map pos fis).length

/-- The name in the buffer, from an offset on. A name without a terminator runs on behind it. -/
def nameFrom (behind fileInfo : List UInt8) (off : ℕ) : List UInt8 :=
  cString (fileInfo.drop (12 + off) ++ behind)

/-- "/nvdata" -/
def nvdata : List UInt8 := [47, 110, 118, 100, 97, 116, 97]

/-- From where on the name in the title and the one that is asked for are compared: from 11 and 7
on for a name under /nvdata. -/
def Request.offsets : Request → ℕ × ℕ
  | .entry _ _ => (0, 0)
  | .name filename => if filename.take 7 = nvdata then (11, 7) else (0, 0)

def compares (behind : List UInt8) (req : Request) (fileInfo : List UInt8) : Bool :=
  nameFrom behind fileInfo req.offsets.1 = req.path.drop req.offsets.2

def titleLoop (map : List UInt8) (selects : List UInt8 → Bool) :
    ℕ → ℕ → List UInt8 → Option (List UInt8)
  | 0, _, _ => none
  | n + 1, pos, fileInfo =>
    let fileInfo := readTitle map pos fileInfo
    if selects fileInfo then some fileInfo
    else titleLoop map selects n (pos + (readAt map pos fis).length) fileInfo

/-! ## The restore -/

/-- How far the restore of a title gets: not to the open of the file, not to its end, or there. -/
inductive Stage where
  | rejected | spoiled | restored
  deriving DecidableEq, Repr

def sizeFits (req : Request) (filesize : ℤ) : Bool :=
  match req with
  | .entry f _ => filesize = f.i4RecNum * f.i4RecSize + 2
  | .name _ => true

def hasContent (allFile : List UInt8) (fileInfo : List UInt8) : Bool :=
  0 < intAt fileInfo 8 ∧ intAt fileInfo 8 < 2147483647 ∧ 0 ≤ intAt fileInfo 4 ∧
    intAt fileInfo 4 + intAt fileInfo 8 ≤ allFile.length

/-- Behind the open. The file of a lid is checked once more. -/
def writeTitle (r : Source) (req : Request) : Stage :=
  if !r.writes then .spoiled
  else
    match req with
    | .entry _ _ => if r.checks then .restored else .spoiled
    | .name _ => .restored

def restoreTitle (r : Source) (req : Request) (fileInfo : List UInt8) : Stage :=
  if !sizeFits req (intAt fileInfo 8) then .rejected
  else if !(hasContent (r.allFile.getD []) fileInfo && r.readsData) then .rejected
  else if !r.opensDest then .rejected
  else writeTitle r req

/-- The result with find_flag, and the title whose file has been opened for writing. -/
def nvmRestoreFromFilesOneFile (r : Source) (req : Request) (type : MetaData) :
    (Bool × Bool) × Option (List UInt8) :=
  if req.isVerInfo = true ∨ r.opens = false then ((false, false), none)
  else
    match titleLoop r.map (compares r.behind req) (r.turns type) (r.titleBegin type)
        (List.replicate fis 0) with
    | none => ((false, false), none)
    | some fileInfo =>
      ((decide (restoreTitle r req fileInfo = .restored), true),
        if restoreTitle r req fileInfo = .rejected then none else some fileInfo)

def savedCheckSum (r : Source) : Option UInt32 :=
  if r.getsCheckSum ∧ headerBegin ≤ r.map.length then some (leWord (readAt r.map 0 4)) else none

def backup (r : Source) (req : Request) : Backup where
  support := r.support
  ulSavedCheckSum := savedCheckSum r
  allFile := r.allFile
  sumCalls := r.sumCalls
  statsAgain := r.statsAgain
  restore := fun type => (nvmRestoreFromFilesOneFile r req type).1

def nvmCheckDataOneFile (r : Source) (req : Request) : Bool × Option (List UInt8) :=
  let result := CheckData.nvmCheckDataOneFile (backup r req)
  (result.1, result.2.findSome? fun type => (nvmRestoreFromFilesOneFile r req type).2)

/-! ## What the map file holds -/

def unmasked (s : Support) : List MetaData :=
  MetaData.beforeAll.filter fun type => !(iFileMask s).contains type

/-- The titles in the window of a type, as far as the map file reaches. -/
def titles (r : Source) (type : MetaData) : List (List UInt8) :=
  (List.range (r.iFileNum type).toNat).filterMap fun i : ℕ =>
    let pos := r.iFileTitleOffset type + fis * i
    if 0 ≤ pos ∧ pos + fis ≤ r.map.length then some (readAt r.map pos.toNat fis) else none

/-- The first title of the path in an unmasked type. -/
def wanted (r : Source) (req : Request) : Option (List UInt8) :=
  ((unmasked r.support).flatMap (titles r)).find? fun title =>
    cString (title.drop 12) = req.path

/-- The title that is asked for is restored, and without one nothing is. -/
def Meets (r : Source) (req : Request) : Prop :=
  match wanted r req with
  | some title => nvmCheckDataOneFile r req = (true, some title)
  | none => nvmCheckDataOneFile r req = (false, none)

def seenFrom (map : List UInt8) : ℕ → ℕ → List UInt8 → List (List UInt8)
  | 0, _, _ => []
  | n + 1, pos, fileInfo =>
    readTitle map pos fileInfo ::
      seenFrom map n (pos + (readAt map pos fis).length) (readTitle map pos fileInfo)

def seen (r : Source) (type : MetaData) : List (List UInt8) :=
  seenFrom r.map (r.turns type) (r.titleBegin type) (List.replicate fis 0)

def Passes (r : Source) : Prop :=
  ∃ content, r.allFile = some content ∧ r.statsAgain = true ∧ savedCheckSum r =
    some (nvmComputeCheckSum r.sumCalls r.allFile ^^^ UInt32.ofNat content.length)

/-- Behind the gate the files open and the request is not for the version file. -/
def Searches (r : Source) (req : Request) : Prop :=
  Passes r ∧ req.isVerInfo = false ∧ r.opens = true

def selected (r : Source) (req : Request) : Option (List UInt8) :=
  ((unmasked r.support).flatMap (seen r)).find? (compares r.behind req)

/-! ## The condition on the names -/

/-- The buffer after the read number i from a position on. Behind the last whole title of the map
file comes what is left of the file, over the title before. -/
def bufferAt (map : List UInt8) (pos : ℕ) (fileInfo : List UInt8) (i : ℕ) : List UInt8 :=
  let whole := (map.length - pos) / fis
  if i < whole then readAt map (pos + fis * i) fis
  else readTitle map (pos + fis * whole)
    (if whole = 0 then fileInfo else readAt map (pos + fis * (whole - 1)) fis)

/-- What is compared, over all the unmasked types, however the comparisons come out. -/
def buffers (r : Source) : List (List UInt8) :=
  (unmasked r.support).flatMap fun type => (List.range (r.turns type)).map
    (bufferAt r.map (r.titleBegin type) (List.replicate fis 0))

/-- The name in the title, from the offset of the request on, is the rest of the path. -/
def Agrees (r : Source) (req : Request) (title : List UInt8) : Prop :=
  nameFrom r.behind title req.offsets.1 = req.path.drop req.offsets.2

/-- The title agrees, and nothing that is compared before it does. -/
def AgreesFirst (r : Source) (req : Request) (title : List UInt8) : Prop :=
  Agrees r req title ∧ ∃ before after, buffers r = before ++ title :: after ∧
    ∀ fileInfo ∈ before, ¬ Agrees r req fileInfo

/-- The file of the title is opened: its size is that of the table, its content is read. -/
structure Opens (r : Source) (req : Request) (title : List UInt8) : Prop where
  size : ∀ f isVerInfo, req = .entry f isVerInfo →
    intAt title 8 = f.i4RecNum * f.i4RecSize + 2
  filesize : 0 < intAt title 8 ∧ intAt title 8 < 2147483647
  content : 0 ≤ intAt title 4 ∧ intAt title 4 + intAt title 8 ≤ (r.allFile.getD []).length
  reads : r.readsData = true
  opens : r.opensDest = true

/-- Besides it is written, and the file of a lid passes the checks. -/
structure Restorable (r : Source) (req : Request) (title : List UInt8) : Prop
    extends Opens r req title where
  writes : r.writes = true
  checks : ∀ f isVerInfo, req = .entry f isVerInfo → r.checks = true

theorem titleLoop_eq (map : List UInt8) (selects : List UInt8 → Bool) (n pos : ℕ)
    (fileInfo : List UInt8) :
    titleLoop map selects n pos fileInfo = (seenFrom map n pos fileInfo).find? selects := by
  induction n generalizing pos fileInfo with
  | zero => rfl
  | succ n ih =>
    rw [titleLoop, seenFrom, List.find?_cons, ih]
    cases selects (readTitle map pos fileInfo) <;> rfl

theorem restoreLoop_first {α : Type} (mask : List MetaData) {restore : MetaData → Bool × Bool}
    (found : MetaData → Option α) (ok : α → Bool)
    (hrestore : ∀ type, restore type = ((found type).elim (false, false) fun a => (ok a, true)))
    (types : List MetaData) :
    (restoreLoop mask restore types false).1 =
        ((types.filter fun type => !mask.contains type).findSome? found).elim false ok ∧
      ∀ {β : Type} (g : α → Option β),
        (restoreLoop mask restore types false).2.findSome? (fun type => (found type).bind g) =
          ((types.filter fun type => !mask.contains type).findSome? found).bind g := by
  induction types with
  | nil => exact ⟨rfl, fun _ => rfl⟩
  | cons type types ih =>
    obtain ⟨hres, htouched⟩ := ih
    cases hmask : mask.contains type with
    | true =>
      have hloop : restoreLoop mask restore (type :: types) false =
          restoreLoop mask restore types false := by rw [restoreLoop, hmask, if_pos rfl]
      rw [hloop, List.filter_cons_of_neg (by rw [hmask]; decide)]
      exact ⟨hres, htouched⟩
    | false =>
      rw [List.filter_cons_of_pos (by rw [hmask]; rfl), List.findSome?_cons]
      have hr := hrestore type
      cases hfound : found type with
      | none =>
        have hloop : restoreLoop mask restore (type :: types) false =
            ((restoreLoop mask restore types false).1,
              type :: (restoreLoop mask restore types false).2) := by
          rw [hfound, Option.elim_none] at hr
          simp only [restoreLoop, hmask, Bool.false_eq_true, if_false, hr]
        rw [hloop]
        refine ⟨hres, fun g => ?_⟩
        rw [List.findSome?_cons, hfound, Option.bind_none]
        exact htouched g
      | some a =>
        have hloop : restoreLoop mask restore (type :: types) false = (ok a, [type]) := by
          rw [hfound, Option.elim_some] at hr
          simp only [restoreLoop, hmask, Bool.false_eq_true, if_false, hr]
        rw [hloop]
        refine ⟨rfl, fun g => ?_⟩
        rw [List.findSome?_cons, hfound, Option.bind_some]
        cases g a <;> rfl

def found (r : Source) (req : Request) (type : MetaData) : Option (List UInt8) :=
  (seen r type).find? (compares r.behind req)

def touched (r : Source) (req : Request) (fileInfo : List UInt8) : Option (List UInt8) :=
  if restoreTitle r req fileInfo = .rejected then none else some fileInfo

def succeeds (r : Source) (req : Request) (fileInfo : List UInt8) : Bool :=
  decide (restoreTitle r req fileInfo = .restored)

theorem restoreOneFile_eq {r : Source} {req : Request} (hreq : req.isVerInfo = false)
    (hopens : r.opens = true) (type : MetaData) :
    nvmRestoreFromFilesOneFile r req type =
      ((found r req type).elim (false, false) fun fileInfo => (succeeds r req fileInfo, true),
        (found r req type).bind (touched r req)) := by
  have hturned : ¬ (req.isVerInfo = true ∨ r.opens = false) := by simp [hreq, hopens]
  rw [nvmRestoreFromFilesOneFile, if_neg hturned, titleLoop_eq]
  unfold found seen
  cases (seenFrom r.map (r.turns type) (r.titleBegin type) (List.replicate fis 0)).find?
    (compares r.behind req) with
  | none => simp only [Option.elim_none, Option.bind_none]
  | some fileInfo => simp only [Option.elim_some, Option.bind_some, succeeds, touched]

theorem restoreOneFile_none {r : Source} {req : Request}
    (h : ¬ (req.isVerInfo = false ∧ r.opens = true)) (type : MetaData) :
    nvmRestoreFromFilesOneFile r req type = ((false, false), none) := by
  rw [nvmRestoreFromFilesOneFile, if_pos]
  by_contra hnot
  exact h (by simpa using hnot)

theorem backup_passes {r : Source} (h : Passes r) (req : Request) :
    CheckData.nvmCheckDataOneFile (backup r req) =
      restoreLoop (iFileMask r.support) (fun type => (nvmRestoreFromFilesOneFile r req type).1)
        MetaData.beforeAll false := by
  obtain ⟨content, hfile, hstat, hsaved⟩ := h
  rw [hfile] at hsaved
  simp only [CheckData.nvmCheckDataOneFile, backup, hfile, hstat, hsaved, Bool.not_true,
    Bool.false_eq_true, if_false, ne_eq, not_true]

theorem backup_fails {r : Source} (h : ¬ Passes r) (req : Request) :
    CheckData.nvmCheckDataOneFile (backup r req) = (false, []) :=
  nvmCheckDataOneFile_false (not_not.mp (mt nvmCheckDataOneFile_restores.mp h))

theorem nvmCheckDataOneFile_eq {r : Source} {req : Request} (h : Searches r req) :
    nvmCheckDataOneFile r req =
      ((selected r req).elim false (succeeds r req), (selected r req).bind (touched r req)) := by
  obtain ⟨hpasses, hreq, hopens⟩ := h
  have hone := restoreOneFile_eq hreq hopens
  have hfirst : selected r req = (unmasked r.support).findSome? (found r req) :=
    List.find?_flatMap
  obtain ⟨hres, htouched⟩ := restoreLoop_first (iFileMask r.support) (found r req)
    (succeeds r req) (fun type => congrArg Prod.fst (hone type)) MetaData.beforeAll
  have htypes := htouched (touched r req)
  rw [nvmCheckDataOneFile, backup_passes hpasses, hfirst]
  simp only [hone] at hres htypes ⊢
  exact Prod.ext hres htypes

theorem nvmCheckDataOneFile_closed {r : Source} {req : Request} (h : ¬ Searches r req) :
    nvmCheckDataOneFile r req = (false, none) := by
  by_cases hpasses : Passes r
  · have hone := restoreOneFile_none fun hopens => h ⟨hpasses, hopens⟩
    obtain ⟨hres, -⟩ := restoreLoop_first (iFileMask r.support)
      (fun _ => (none : Option Unit)) (fun _ => true)
      (fun type => congrArg Prod.fst (hone type)) MetaData.beforeAll
    have hnone : ∀ types : List MetaData,
        types.findSome? (fun _ => (none : Option Unit)) = none := fun types =>
      List.findSome?_eq_none_iff.mpr fun _ _ => rfl
    rw [hnone, Option.elim_none] at hres
    rw [nvmCheckDataOneFile, backup_passes hpasses, hres]
    simp only [hone]
    exact congrArg _ (List.findSome?_eq_none_iff.mpr fun _ _ => rfl)
  · rw [nvmCheckDataOneFile, backup_fails hpasses]
    rfl

theorem readTitle_full {map : List UInt8} {pos : ℕ} (h : pos + fis ≤ map.length)
    {fileInfo : List UInt8} (hlen : fileInfo.length = fis) :
    readTitle map pos fileInfo = readAt map pos fis := by
  have hread : (readAt map pos fis).length = fis := by
    rw [length_readAt]
    omega
  rw [readTitle, hread, List.drop_of_length_le hlen.le, List.append_nil]

theorem readTitle_end {map : List UInt8} {pos : ℕ} (h : map.length ≤ pos)
    (fileInfo : List UInt8) : readTitle map pos fileInfo = fileInfo := by
  rw [readTitle, readAt, List.drop_of_length_le h]
  rfl

theorem length_readTitle (map : List UInt8) (pos : ℕ) {fileInfo : List UInt8}
    (hlen : fileInfo.length = fis) : (readTitle map pos fileInfo).length = fis := by
  rw [readTitle, List.length_append, List.length_drop, hlen, length_readAt]
  omega

/-- Two reads in a row: after a whole title one title less is left, and at the end of the map file
the buffer no longer changes. -/
theorem bufferAt_succ (map : List UInt8) (pos : ℕ) {fileInfo : List UInt8}
    (hlen : fileInfo.length = fis) (i : ℕ) : bufferAt map pos fileInfo (i + 1) =
      bufferAt map (pos + (readAt map pos fis).length) (readTitle map pos fileInfo) i := by
  have hfis : fis = 140 := rfl
  by_cases hfull : pos + fis ≤ map.length
  · have hread : (readAt map pos fis).length = fis := by
      rw [length_readAt]
      omega
    obtain ⟨n, hwhole⟩ : ∃ n, (map.length - pos) / fis = n + 1 :=
      Nat.exists_eq_succ_of_ne_zero (Nat.div_pos (by omega) (by omega)).ne'
    have hwhole' : (map.length - (pos + fis)) / fis = n := by
      rw [hfis] at hwhole ⊢
      omega
    have hnext : ∀ k, pos + fis * (k + 1) = pos + fis + fis * k := fun k => by
      rw [Nat.mul_succ]
      omega
    have hlast : (if n = 0 then readAt map pos fis else readAt map (pos + fis + fis * (n - 1)) fis) =
        readAt map (pos + fis * n) fis := by
      cases n with
      | zero => simp
      | succ n => rw [if_neg (Nat.succ_ne_zero n), Nat.add_sub_cancel, hnext]
    rw [hread, readTitle_full hfull hlen]
    simp only [bufferAt, hwhole, hwhole', hnext, hlast, Nat.add_lt_add_iff_right,
      Nat.add_sub_cancel, Nat.succ_ne_zero, if_false]
  · have hwhole : (map.length - pos) / fis = 0 := Nat.div_eq_of_lt (by omega)
    have hwhole' : (map.length - (pos + (readAt map pos fis).length)) / fis = 0 :=
      Nat.div_eq_of_lt (by omega)
    have hend : map.length ≤ pos + (readAt map pos fis).length := by
      rw [length_readAt]
      omega
    simp only [bufferAt, hwhole, hwhole', Nat.not_lt_zero, if_false, if_true, Nat.mul_zero,
      Nat.add_zero, readTitle_end hend]

theorem bufferAt_zero (map : List UInt8) (pos : ℕ) {fileInfo : List UInt8}
    (hlen : fileInfo.length = fis) :
    bufferAt map pos fileInfo 0 = readTitle map pos fileInfo := by
  have hfis : 0 < fis := by decide
  by_cases hfull : pos + fis ≤ map.length
  · rw [bufferAt, if_pos (Nat.div_pos (by omega) hfis), readTitle_full hfull hlen, Nat.mul_zero,
      Nat.add_zero]
  · have hwhole : (map.length - pos) / fis = 0 := Nat.div_eq_of_lt (by omega)
    simp only [bufferAt, hwhole, Nat.not_lt_zero, if_false, if_true, Nat.mul_zero, Nat.add_zero]

theorem seenFrom_eq (map : List UInt8) (n pos : ℕ) {fileInfo : List UInt8}
    (hlen : fileInfo.length = fis) :
    seenFrom map n pos fileInfo = (List.range n).map (bufferAt map pos fileInfo) := by
  induction n generalizing pos fileInfo with
  | zero => rfl
  | succ n ih =>
    rw [seenFrom, ih _ (length_readTitle map pos hlen), List.range_succ_eq_map, List.map_cons,
      List.map_map, bufferAt_zero map pos hlen]
    exact congrArg _ (List.map_congr_left fun i _ => (bufferAt_succ map pos hlen i).symm)

theorem agreesFirst_iff (r : Source) (req : Request) (title : List UInt8) :
    AgreesFirst r req title ↔ selected r req = some title := by
  have hseen : (unmasked r.support).flatMap (seen r) = buffers r :=
    List.flatMap_congr fun type _ =>
      seenFrom_eq r.map (r.turns type) (r.titleBegin type) List.length_replicate
  rw [selected, hseen, List.find?_eq_some_iff_append]
  simp only [AgreesFirst, Agrees, compares, decide_eq_true_eq, Bool.not_eq_true',
    decide_eq_false_iff_not]

theorem opens_iff (r : Source) (req : Request) (title : List UInt8) :
    Opens r req title ↔ sizeFits req (intAt title 8) = true ∧
      hasContent (r.allFile.getD []) title = true ∧ r.readsData = true ∧ r.opensDest = true := by
  have hsize : sizeFits req (intAt title 8) = true ↔ ∀ f isVerInfo, req = .entry f isVerInfo →
      intAt title 8 = f.i4RecNum * f.i4RecSize + 2 := by
    cases req <;> simp [sizeFits]
  rw [hsize, hasContent, decide_eq_true_iff]
  constructor
  · intro h
    exact ⟨h.size, ⟨h.filesize.1, h.filesize.2, h.content⟩, h.reads, h.opens⟩
  · rintro ⟨hfits, ⟨hpos, hmax, hcontent⟩, hreads, hopens⟩
    exact ⟨hfits, ⟨hpos, hmax⟩, hcontent, hreads, hopens⟩

theorem restoreTitle_closed {r : Source} {req : Request} {title : List UInt8}
    (h : ¬ Opens r req title) : restoreTitle r req title = .rejected := by
  rw [opens_iff] at h
  rw [restoreTitle]
  cases hfits : sizeFits req (intAt title 8) with
  | false => rfl
  | true =>
    cases hcontent : hasContent (r.allFile.getD []) title with
    | false => rfl
    | true =>
      cases hreads : r.readsData with
      | false => rfl
      | true =>
        cases hopens : r.opensDest with
        | false => rfl
        | true => exact absurd ⟨hfits, hcontent, hreads, hopens⟩ h

theorem restoreTitle_opened {r : Source} {req : Request} {title : List UInt8}
    (h : Opens r req title) : restoreTitle r req title = writeTitle r req := by
  obtain ⟨hfits, hcontent, hreads, hopens⟩ := (opens_iff r req title).mp h
  rw [restoreTitle, hfits, hcontent, hreads, hopens]
  rfl

theorem restoreTitle_opens (r : Source) (req : Request) (title : List UInt8) :
    restoreTitle r req title ≠ .rejected ↔ Opens r req title := by
  by_cases h : Opens r req title
  · refine iff_of_true ?_ h
    rw [restoreTitle_opened h, writeTitle.eq_def]
    cases r.writes <;> cases req <;> cases r.checks <;> simp
  · exact iff_of_false (fun hstage => hstage (restoreTitle_closed h)) h

theorem restoreTitle_restorable (r : Source) (req : Request) (title : List UInt8) :
    restoreTitle r req title = .restored ↔ Restorable r req title := by
  by_cases h : Opens r req title
  · have hrestorable : Restorable r req title ↔ r.writes = true ∧
        ∀ f isVerInfo, req = .entry f isVerInfo → r.checks = true :=
      ⟨fun h => ⟨h.writes, h.checks⟩, fun hrest => ⟨h, hrest.1, hrest.2⟩⟩
    rw [restoreTitle_opened h, hrestorable, writeTitle.eq_def]
    cases r.writes <;> cases req <;> cases r.checks <;> simp
  · rw [restoreTitle_closed h]
    exact iff_of_false (by decide) fun hrest => h hrest.toOpens

theorem meets_none {r : Source} {req : Request} (h : wanted r req = none) :
    Meets r req ↔ (Searches r req → ∀ fileInfo, AgreesFirst r req fileInfo →
      ¬ Opens r req fileInfo) := by
  simp only [Meets, h, agreesFirst_iff, ← restoreTitle_opens, not_not]
  by_cases hsearch : Searches r req
  · rw [nvmCheckDataOneFile_eq hsearch]
    cases selected r req with
    | none => simp
    | some fileInfo =>
      simp only [Option.elim_some, Option.bind_some, succeeds, touched, hsearch, true_implies,
        Option.some.injEq, forall_eq']
      cases restoreTitle r req fileInfo <;> simp
  · rw [nvmCheckDataOneFile_closed hsearch]
    exact iff_of_true rfl fun h' => absurd h' hsearch

theorem meets_some {r : Source} {req : Request} {title : List UInt8}
    (h : wanted r req = some title) :
    Meets r req ↔ Searches r req ∧ AgreesFirst r req title ∧ Restorable r req title := by
  simp only [Meets, h, agreesFirst_iff, ← restoreTitle_restorable]
  by_cases hsearch : Searches r req
  · rw [nvmCheckDataOneFile_eq hsearch]
    cases selected r req with
    | none => simp
    | some fileInfo =>
      simp only [Option.elim_some, Option.bind_some, succeeds, touched, hsearch, true_and,
        Option.some.injEq]
      by_cases hsame : fileInfo = title
      · subst hsame
        generalize restoreTitle r req fileInfo = stage
        cases stage <;> simp
      · generalize restoreTitle r req fileInfo = stage
        cases stage <;> simp [hsame]
  · rw [nvmCheckDataOneFile_closed hsearch]
    exact iff_of_false nofun fun h' => hsearch h'.1

theorem cString_terminated {name : List UInt8} (hname : 0 ∉ name) (rest : List UInt8) :
    cString (name ++ 0 :: rest) = name := by
  have hall : ∀ b ∈ name, decide (b ≠ 0) = true := fun b hb =>
    decide_eq_true fun hzero => hname (hzero ▸ hb)
  rw [cString, List.takeWhile_append_of_pos hall, List.takeWhile_cons_of_neg (by decide),
    List.append_nil]

theorem nameFrom_of_terminated {title : List UInt8} (hend : 0 ∈ title.drop 12)
    (behind : List UInt8) {off : ℕ} (hoff : off ≤ (cString (title.drop 12)).length) :
    nameFrom behind title off = (cString (title.drop 12)).drop off := by
  obtain ⟨name, rest, hsplit, hname⟩ := List.eq_append_cons_of_mem hend
  rw [hsplit, cString_terminated hname] at hoff ⊢
  have hdrop : title.drop (12 + off) = name.drop off ++ 0 :: rest := by
    rw [← List.drop_drop, hsplit, List.drop_append_of_le_length hoff]
  have hnot : 0 ∉ name.drop off := fun hmem => hname (List.mem_of_mem_drop hmem)
  rw [nameFrom, hdrop, List.append_assoc, List.cons_append, cString_terminated hnot]

def Request.Exact : Request → Prop
  | .entry _ _ => True
  | .name filename => filename.take 7 ≠ nvdata

theorem Request.Exact.offsets {req : Request} (h : req.Exact) : req.offsets = (0, 0) := by
  cases req with
  | entry f isVerInfo => rfl
  | name filename => exact if_neg h

theorem agrees_exact {r : Source} {req : Request} (hreq : req.Exact) {title : List UInt8}
    (hend : 0 ∈ title.drop 12) :
    Agrees r req title ↔ cString (title.drop 12) = req.path := by
  rw [Agrees, hreq.offsets, nameFrom_of_terminated hend r.behind (Nat.zero_le _), List.drop_zero,
    List.drop_zero]

/-- The titles of the unmasked types are in the map file, with names that end, and no type has too
many of them. -/
structure Intact (r : Source) : Prop where
  begins : ∀ type ∈ unmasked r.support, 0 ≤ r.iFileTitleOffset type
  ends : ∀ type ∈ unmasked r.support,
    r.iFileTitleOffset type + fis * r.iFileNum type ≤ r.map.length
  few : ∀ type ∈ unmasked r.support, r.iFileNum type < 32767
  terminated : ∀ type ∈ unmasked r.support, ∀ title ∈ titles r type, 0 ∈ title.drop 12

theorem seenFrom_full {map : List UInt8} {n pos : ℕ} (h : pos + fis * n ≤ map.length)
    (fileInfo : List UInt8) (hlen : fileInfo.length = fis) :
    seenFrom map n pos fileInfo = (List.range n).map fun i => readAt map (pos + fis * i) fis := by
  induction n generalizing pos fileInfo with
  | zero => rfl
  | succ n ih =>
    rw [Nat.mul_succ] at h
    have hread : (readAt map pos fis).length = fis := by
      rw [length_readAt]
      omega
    have htitle : readTitle map pos fileInfo = readAt map pos fis := by
      rw [readTitle, hread, List.drop_of_length_le hlen.le, List.append_nil]
    rw [seenFrom, hread, htitle, ih (by omega) _ hread, List.range_succ_eq_map, List.map_cons,
      List.map_map]
    have hnext : ∀ i, pos + fis + fis * i = pos + fis * (i + 1) := fun i => by
      rw [Nat.mul_succ]
      omega
    simp only [hnext, Function.comp_def, Nat.succ_eq_add_one, Nat.mul_zero, Nat.add_zero]

theorem Intact.seen_eq {r : Source} (h : Intact r) {type : MetaData}
    (htype : type ∈ unmasked r.support) : seen r type = titles r type := by
  have hbegin := h.begins type htype
  have hend := h.ends type htype
  have hfew := h.few type htype
  obtain ⟨pos, hoff⟩ := Int.eq_ofNat_of_zero_le hbegin
  have hpos : r.titleBegin type = pos := by
    rw [Source.titleBegin, hoff, if_neg (not_lt.mpr (Int.natCast_nonneg pos)), Int.toNat_natCast]
  have hturns : r.turns type = (r.iFileNum type).toNat := by
    unfold Source.turns
    split <;> omega
  rw [hoff] at hend
  rw [seen, titles, hpos, hturns, hoff]
  cases hn : (r.iFileNum type).toNat with
  | zero => rfl
  | succ n =>
    have hnum : r.iFileNum type = (n + 1 : ℕ) := by omega
    rw [hnum] at hend
    have hfull : pos + fis * (n + 1) ≤ r.map.length := by exact_mod_cast hend
    rw [seenFrom_full hfull _ List.length_replicate, ← List.filterMap_eq_map]
    refine List.filterMap_congr fun i hi => ?_
    have hle : fis * (i + 1) ≤ fis * (n + 1) :=
      Nat.mul_le_mul_left _ (List.mem_range.mp hi)
    rw [Nat.mul_succ] at hle
    have hcast : (pos : ℤ) + fis * i = (pos + fis * i : ℕ) := by push_cast; rfl
    have hinside : (0 : ℤ) ≤ (pos + fis * i : ℕ) ∧
        ((pos + fis * i : ℕ) : ℤ) + fis ≤ r.map.length := ⟨by omega, by omega⟩
    simp only [hcast, if_pos hinside, Int.toNat_natCast, Function.comp_apply]

theorem Intact.selected_eq {r : Source} (h : Intact r) {req : Request} (hreq : req.Exact) :
    selected r req = wanted r req := by
  rw [selected, wanted, List.flatMap_congr fun type htype => h.seen_eq htype]
  refine List.find?_congr fun title htitle => ?_
  obtain ⟨type, htype, hmem⟩ := List.mem_flatMap.mp htitle
  exact decide_eq_decide.mpr (agrees_exact hreq (h.terminated type htype title hmem))

theorem Intact.meets_exact {r : Source} (h : Intact r) {req : Request} (hreq : req.Exact) :
    Meets r req ↔ ∀ title, wanted r req = some title →
      Searches r req ∧ Restorable r req title := by
  have hfirst := agreesFirst_iff r req
  rw [h.selected_eq hreq] at hfirst
  cases hwanted : wanted r req with
  | none => simp [meets_none hwanted, hfirst, hwanted]
  | some title => simp [meets_some hwanted, hfirst, hwanted]

/-! ## A title that is passed over -/

end TitleSearch
