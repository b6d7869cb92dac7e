import VendorMediatek.CheckSum

/-!
# The check before a restore from the backup

`NVM_CheckData_OneFile` with every outcome of the calls that it makes. What a restore of a file
type does is a parameter: only whether it is reached matters here.
-/

namespace CheckData

open CheckSum

inductive MetaData where
  | apboot | apcln | mdboot | mdcln | mdimp | mdcor | mddata | md2boot | md2cln | md2imp
  | md5boot | md5cln | md5imp | via | md3boot | md3cln | md3imp
  deriving DecidableEq, Repr

/-- The types before ALL, in the order of the enumeration. -/
def MetaData.beforeAll : List MetaData :=
  [apboot, apcln, mdboot, mdcln, mdimp, mdcor, mddata, md2boot, md2cln, md2imp, md5boot, md5cln,
    md5imp, via, md3boot, md3cln, md3imp]

structure Support where
  md5 : Bool
  evdo : Bool
  ecciC2k : Bool

def iFileMask (p : Support) : List MetaData :=
  (if !p.md5 && !p.evdo then [.mdcor, .mddata, .md5boot, .md5cln, .md5imp, .via]
    else if !p.md5 && p.evdo then [.mdcor, .mddata, .md5boot, .md5cln, .md5imp]
    else if p.md5 && !p.evdo then [.mdcor, .mddata, .via]
    else [.mdcor, .mddata]) ++
  if !p.ecciC2k then [.md3boot, .md3cln, .md3imp] else []

/-- The loop over the types, with bRet so far. A restore gives its result and find_flag. The
types it was called with are listed. -/
def restoreLoop (mask : List MetaData) (restore : MetaData → Bool × Bool) :
    List MetaData → Bool → Bool × List MetaData
  | [], bRet => (bRet, [])
  | eBackupType :: types, bRet =>
    if mask.contains eBackupType then restoreLoop mask restore types bRet
    else
      match restore eBackupType with
      | (bRet, true) => (bRet, [eBackupType])
      | (bRet, false) =>
        let (bRet, called) := restoreLoop mask restore types bRet
        (bRet, eBackupType :: called)

/-- What NVM_CheckData_OneFile meets: the checksum of the map file where NVM_GetCheckSum reads
one, the data file, and the outcome of each call. -/
structure Backup where
  support : Support
  ulSavedCheckSum : Option UInt32
  allFile : Option (List UInt8)
  sumCalls : SumCalls
  statsAgain : Bool
  restore : MetaData → Bool × Bool

/-- The result and the types that a restore was tried for. -/
def nvmCheckDataOneFile (b : Backup) : Bool × List MetaData :=
  match b.ulSavedCheckSum with
  | none => (false, [])
  | some ulSavedCheckSum =>
    let ulCheckSum := nvmComputeCheckSum b.sumCalls b.allFile
    match b.allFile with
    | none => (false, [])
    | some content =>
      if !b.statsAgain then (false, [])
      else if ulSavedCheckSum ≠ ulCheckSum ^^^ UInt32.ofNat content.length then (false, [])
      else restoreLoop (iFileMask b.support) b.restore MetaData.beforeAll false

theorem restoreLoop_ne_nil (p : Support) (restore : MetaData → Bool × Bool) :
    (restoreLoop (iFileMask p) restore MetaData.beforeAll false).2 ≠ [] := by
  have hmask : (iFileMask p).contains .apboot = false := by
    obtain ⟨_ | _, _ | _, _ | _⟩ := p <;> rfl
  rw [MetaData.beforeAll, restoreLoop, hmask, if_neg Bool.false_ne_true]
  match restore .apboot with
  | (bRet, true) => simp
  | (bRet, false) => simp

theorem nvmCheckDataOneFile_restores {b : Backup} :
    (nvmCheckDataOneFile b).2 ≠ [] ↔
      ∃ content, b.allFile = some content ∧ b.statsAgain = true ∧
        b.ulSavedCheckSum = some
          (nvmComputeCheckSum b.sumCalls b.allFile ^^^ UInt32.ofNat content.length) := by
  obtain ⟨support, saved, file, sumCalls, statsAgain, restore⟩ := b
  cases saved with
  | none => simp [nvmCheckDataOneFile]
  | some saved =>
    cases file with
    | none => simp [nvmCheckDataOneFile]
    | some content =>
      cases statsAgain with
      | false => simp [nvmCheckDataOneFile]
      | true =>
        have hloop := restoreLoop_ne_nil support restore
        by_cases hsum : saved = nvmComputeCheckSum sumCalls (some content) ^^^
            UInt32.ofNat content.length
        · simp [nvmCheckDataOneFile, hsum, hloop]
        · simp [nvmCheckDataOneFile, hsum]

theorem nvmCheckDataOneFile_false {b : Backup} (h : (nvmCheckDataOneFile b).2 = []) :
    nvmCheckDataOneFile b = (false, []) := by
  obtain ⟨support, saved, file, sumCalls, statsAgain, restore⟩ := b
  revert h
  simp only [nvmCheckDataOneFile]
  repeat' split
  all_goals first
    | exact fun _ => rfl
    | exact fun h => absurd h (restoreLoop_ne_nil support restore)

/-- A restore is tried only behind a sum of the whole content that matches the saved one, and a
failed computation ends in false. -/
def RestoresChecked (b : Backup) : Prop :=
  ((nvmCheckDataOneFile b).2 ≠ [] → ¬ SumFails b.sumCalls b.allFile ∧
    ∃ content, b.allFile = some content ∧ content.length < 4294967296 ∧
      b.ulSavedCheckSum = some (sumOf content ^^^ UInt32.ofNat content.length)) ∧
  (SumFails b.sumCalls b.allFile → nvmCheckDataOneFile b = (false, []))

/-- A failed computation passes where the saved checksum is the size, since its sum is 0. -/
theorem failed_reaches {b : Backup} {content : List UInt8} (hfile : b.allFile = some content)
    (hstat : b.statsAgain = true) (hfails : SumFails b.sumCalls b.allFile)
    (hsaved : b.ulSavedCheckSum = some (UInt32.ofNat content.length)) :
    (nvmCheckDataOneFile b).2 ≠ [] := by
  refine nvmCheckDataOneFile_restores.mpr ⟨content, hfile, hstat, ?_⟩
  rw [hsaved, nvmComputeCheckSum_fails hfails, UInt32.zero_xor]

theorem done_reaches {b : Backup} {content : List UInt8} (hfile : b.allFile = some content)
    (hstat : b.statsAgain = true) (hok : ¬ SumFails b.sumCalls b.allFile)
    (hsaved : b.ulSavedCheckSum = some (sumOf (content.take (content.length % 4294967296)) ^^^
      UInt32.ofNat content.length)) :
    (nvmCheckDataOneFile b).2 ≠ [] := by
  refine nvmCheckDataOneFile_restores.mpr ⟨content, hfile, hstat, ?_⟩
  rw [hfile] at hok ⊢
  rw [hsaved, nvmComputeCheckSum_some hok]

theorem saved_of_reached {b : Backup} (h : (nvmCheckDataOneFile b).2 ≠ []) :
    ∃ content, b.allFile = some content ∧ b.statsAgain = true ∧
      (SumFails b.sumCalls b.allFile → b.ulSavedCheckSum = some (UInt32.ofNat content.length)) ∧
      (¬ SumFails b.sumCalls b.allFile → b.ulSavedCheckSum =
        some (sumOf (content.take (content.length % 4294967296)) ^^^
          UInt32.ofNat content.length)) := by
  obtain ⟨content, hfile, hstat, hsaved⟩ := nvmCheckDataOneFile_restores.mp h
  refine ⟨content, hfile, hstat, fun hfails => ?_, fun hok => ?_⟩
  · rw [hsaved, nvmComputeCheckSum_fails hfails, UInt32.zero_xor]
  · rw [hfile] at hok hsaved
    rw [hsaved, nvmComputeCheckSum_some hok]

/-- The sum that stands for a failure is 0, so the saved one is then compared with the size. -/
theorem restoresChecked_iff (b : Backup) :
    RestoresChecked b ↔ ∀ content saved, b.allFile = some content → b.statsAgain = true →
      b.ulSavedCheckSum = some saved →
        (SumFails b.sumCalls b.allFile → saved ≠ UInt32.ofNat content.length) ∧
        (¬ SumFails b.sumCalls b.allFile → 4294967296 ≤ content.length →
          saved ≠ sumOf (content.take (content.length % 4294967296)) ^^^
            UInt32.ofNat content.length) := by
  constructor
  · rintro ⟨hrestores, -⟩ content saved hfile hstat hsaved
    constructor
    · rintro hfails rfl
      exact (hrestores (failed_reaches hfile hstat hfails hsaved)).1 hfails
    · rintro hok hlong rfl
      obtain ⟨-, content', hfile', hshort, -⟩ :=
        hrestores (done_reaches hfile hstat hok hsaved)
      rw [hfile] at hfile'
      cases hfile'
      omega
  · intro h
    have hrestores : (nvmCheckDataOneFile b).2 ≠ [] → ¬ SumFails b.sumCalls b.allFile ∧
        ∃ content, b.allFile = some content ∧ content.length < 4294967296 ∧
          b.ulSavedCheckSum = some (sumOf content ^^^ UInt32.ofNat content.length) := by
      intro hreached
      obtain ⟨content, hfile, hstat, hsize, hsum⟩ := saved_of_reached hreached
      have hok : ¬ SumFails b.sumCalls b.allFile :=
        fun hfails => (h content _ hfile hstat (hsize hfails)).1 hfails rfl
      have hshort : content.length < 4294967296 := by
        by_contra hlong
        exact (h content _ hfile hstat (hsum hok)).2 hok (Nat.le_of_not_lt hlong) rfl
      refine ⟨hok, content, hfile, hshort, ?_⟩
      rw [hsum hok, Nat.mod_eq_of_lt hshort, List.take_length]
    refine ⟨hrestores, fun hfails => nvmCheckDataOneFile_false ?_⟩
    by_contra hreached
    exact (hrestores hreached).1 hfails

/-- The read fails and the saved checksum is the size of the file. -/
theorem failed_sum_restores :
    nvmCheckDataOneFile ⟨⟨true, true, true⟩, some 4, some [1, 0, 0, 0], ⟨true, true, fun _ => false⟩,
        true, fun _ => (true, true)⟩ = (true, [.apboot]) ∧
      ¬ ∀ b : Backup, RestoresChecked b := by
  have hrun : nvmCheckDataOneFile ⟨⟨true, true, true⟩, some 4, some [1, 0, 0, 0],
      ⟨true, true, fun _ => false⟩, true, fun _ => (true, true)⟩ = (true, [.apboot]) := by decide
  refine ⟨hrun, fun h => ?_⟩
  have hfails : SumFails ⟨true, true, fun _ => false⟩ (some [1, 0, 0, 0]) :=
    Or.inr (Or.inr ⟨0, Nat.zero_le _, rfl⟩)
  have hfalse := (h ⟨⟨true, true, true⟩, some 4, some [1, 0, 0, 0], ⟨true, true, fun _ => false⟩,
    true, fun _ => (true, true)⟩).2 hfails
  rw [hrun] at hfalse
  cases hfalse

end CheckData
