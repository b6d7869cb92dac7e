import VendorMediatek.Handles
import VendorMediatek.VersionDelete

/-!
# The mutex of the version file

`NVM_UpdateFileVerNo` with all its exits, as the calls that it makes on the mutex
generateFileVerlock and on descriptors. What the system calls answer is arbitrary. Where the source
stores outside an array, reads an entry that no table has or leaves the range of an int, the
behaviour is undefined.
-/

namespace VersionLocks

open Nvram ByteFile Handles
open VersionDelete (Memcpy)

universe u

variable {ι : Type u}

/-- The answers of the calls, in the order of the source. An open that fails gives no descriptor, a
read no bytes, and malloc answers for the size it is asked for. -/
structure VerCalls (ι : Type u) where
  openSearch : Option ι
  /-- What statbuf holds in an int, also where fstat fails. -/
  searchSize : ℤ
  searchRead : ℕ → Option (List UInt8)
  open1 : Option ι
  header : Option (List UInt8)
  stSize : Option ℕ
  malloc1 : ℤ → Bool
  malloc2 : ℤ → Bool
  openAgain : Option ι
  /-- The results of the read of the file and of the last write, by the length asked for. -/
  pread : ℤ → ℤ
  openTrunc : Option ι
  pwrite : ℤ → ℤ

/-- The index at which the loop ends. A read that fails would store to tempstr[-1]. -/
def searchLoop (read : ℕ → Option (List UInt8)) (target : List UInt8) : ℕ → ℕ → Option ℕ
  | 0, iIndex => some iIndex
  | n + 1, iIndex =>
    match read iIndex with
    | none => none
    | some tempstr =>
      if cString tempstr = target then some iIndex else searchLoop read target n (iIndex + 1)

def ilooptime (c : VerCalls ι) : ℤ := Int.tdiv c.searchSize recordSize

/-- The part before the first lock: the calls, and the flag that it goes on with. -/
def search (t : Tables) (c : VerCalls ι) (lid : ℤ) :
    Option (List (Event ι) × Option VerInfoUpdateFlag) :=
  if lid < 0 then none
  else
    match t.cfgFile lid.toNat with
    | none => some ([], none)
    | some f =>
      match c.openSearch with
      | none => some ([.unlock], none)
      | some fd =>
        (searchLoop c.searchRead f.targetName (ilooptime c).toNat 0).map fun iIndex =>
          ([.opened fd, .closed fd], some (if iIndex = ilooptime c then .verAdd else .verUpdate))

/-- The truncating reopen and the write of buffer2, up to the last close and unlock. -/
def rewrite (c : VerCalls ι) (count : ℤ) : List (Event ι) × Bool :=
  match c.openTrunc with
  | none => ([.lock, .unlock], false)
  | some fd =>
    ([.lock, .opened fd, .closed fd, .unlock], decide (c.pwrite count = count))

/-- The size in an int. -/
def int (stSize : ℕ) : ℤ := Int.bmod stSize 4294967296

def InInt (x : ℤ) : Prop := -2147483648 ≤ x ∧ x < 2147483648

instance (x : ℤ) : Decidable (InInt x) := inferInstanceAs (Decidable (_ ∧ _))

/-- One of the tables has an entry for the lid. -/
def InTables (t : Tables) (lid : ℤ) : Prop := 0 ≤ lid ∧ lid < t.iNvRamFileMaxLid

instance (t : Tables) (lid : ℤ) : Decidable (InTables t lid) := inferInstanceAs (Decidable (_ ∧ _))

def closeAndUnlock (fd : ι) : List (Event ι) := [.closed fd, .unlock]

/-- The two copies of VerDel, of a record of the given size. -/
def copies (iFileSize size off : ℤ) : List Memcpy :=
  let rest := iFileSize - size
  [⟨rest, iFileSize, 0, 0, off⟩,
    ⟨rest, iFileSize, off, off + size, iFileSize - (off + size)⟩]

/-- VerDel behind the first open. The result of the read is compared with st_size itself. -/
def delete (c : VerCalls ι) (fd : ι) (size off : ℤ) : Option (List (Event ι) × Bool) :=
  match c.stSize with
  | none => some (closeAndUnlock fd, false)
  | some stSize =>
    if c.malloc1 (int stSize) = false ∨ c.malloc2 (int stSize - size) = false then
      some (closeAndUnlock fd, false)
    else if c.pread (int stSize) ≠ stSize then some (closeAndUnlock fd, false)
    else if ¬ ∀ m ∈ copies (int stSize) size off, m.InBounds then none
    else
      let rest := rewrite c (int stSize - size)
      some (closeAndUnlock fd ++ rest.1, rest.2)

/-- VerAdd in the middle of the file. The copies in front of the record and behind it fit, and
between them is the entry of the lid. -/
def addMiddle (t : Tables) (c : VerCalls ι) (fd : ι) (lid size iFileSize : ℤ) :
    Option (List (Event ι) × Bool) :=
  match c.openAgain with
  | none => some (closeAndUnlock fd ++ [.lock, .unlock], false)
  | some again =>
    let calls := closeAndUnlock fd ++ ([.lock, .opened again] ++ closeAndUnlock again)
    if c.pread iFileSize ≠ iFileSize then some (calls, false)
    else if ¬ InTables t lid then none
    else
      let rest := rewrite c (iFileSize + size)
      some (calls ++ rest.1, rest.2)

/-- VerAdd behind the first open. -/
def add (t : Tables) (c : VerCalls ι) (fd : ι) (lid size off : ℤ) :
    Option (List (Event ι) × Bool) :=
  match c.stSize with
  | none => some (closeAndUnlock fd, false)
  | some stSize =>
    if ¬ InInt off then none
    else if int stSize ≤ off then
      if InTables t lid then some (closeAndUnlock fd, true) else none
    else if ¬ InInt (int stSize + size) then none
    else if c.malloc1 (int stSize) = false ∨ c.malloc2 (int stSize + size) = false then
      some (closeAndUnlock fd, false)
    else addMiddle t c fd lid size (int stSize)

/-- The format that the header tells. -/
def isNewVerInfo (header : List UInt8) : Bool := cString header = strVerInfo

def sizeOf (isNew : Bool) : ℕ := if isNew then recordSize else fileVerLength

/-- The offset of the lid's record. -/
def offsetOf (isNew : Bool) (lid : ℤ) : ℤ :=
  if isNew then (lid + 1) * recordSize else lid * fileVerLength

/-- The chain of the three updates behind the first open; a flag that is none of them ends in the
last else, which does not close the file. -/
def change (t : Tables) (c : VerCalls ι) (fd : ι) (lid : ℤ) (isNew : Bool) :
    Option VerInfoUpdateFlag → Option (List (Event ι) × Bool)
  | some .verUpdate =>
    -- in the old format the offset is a product with the lid
    if isNew = true ∨ InInt (lid * fileVerLength) then some (closeAndUnlock fd, true) else none
  | some .verDel => delete c fd (sizeOf isNew) (offsetOf isNew lid)
  | some .verAdd => add t c fd lid (sizeOf isNew) (offsetOf isNew lid)
  | none => some ([.unlock], false)

/-- From the first lock on. -/
def locked (t : Tables) (c : VerCalls ι) (lid : ℤ) (flag : Option VerInfoUpdateFlag) :
    Option (List (Event ι) × Bool) :=
  match c.open1 with
  | none => some ([.lock, .unlock], false)
  | some fd =>
    match c.header with
    | none => none
    | some header =>
      (change t c fd lid (isNewVerInfo header) flag).map fun rest =>
        ([.lock, .opened fd] ++ rest.1, rest.2)

/-- The calls that are made, and the result; none where the behaviour is undefined. The flag is none
for an int that is none of the enumerators. -/
def nvmUpdateFileVerNo (t : Tables) (c : VerCalls ι) (lid : ℤ)
    (flag : Option VerInfoUpdateFlag) : Option (List (Event ι) × Bool) :=
  match flag with
  | some .verUpdate =>
    match search t c lid with
    | none => none
    | some (calls, none) => some (calls, false)
    | some (calls, some flag) =>
      (locked t c lid (some flag)).map fun rest => (calls ++ rest.1, rest.2)
  | flag => locked t c lid flag

/-! ## Where the calls are settled -/

/-- The search comes to the target, and every read up to it succeeds. -/
def Found (c : VerCalls ι) (target : List UInt8) : Prop :=
  ∃ i < (ilooptime c).toNat, (∃ b, c.searchRead i = some b ∧ cString b = target) ∧
    ∀ j < i, ∃ b, c.searchRead j = some b ∧ cString b ≠ target

/-- Every read succeeds, and none is of the target. -/
def Missed (c : VerCalls ι) (target : List UInt8) : Prop :=
  ∀ j < (ilooptime c).toNat, ∃ b, c.searchRead j = some b ∧ cString b ≠ target

def DeleteDefined (c : VerCalls ι) (isNew : Bool) (lid : ℤ) : Prop :=
  ∀ stSize, c.stSize = some stSize → c.malloc1 (int stSize) = true →
    c.malloc2 (int stSize - sizeOf isNew) = true → c.pread (int stSize) = stSize →
      0 ≤ offsetOf isNew lid ∧ offsetOf isNew lid + sizeOf isNew ≤ int stSize

/-- Where the record is added behind the end the entry of the lid is read, in the middle only once
the file has been read. -/
def AddDefined (t : Tables) (c : VerCalls ι) (isNew : Bool) (lid : ℤ) : Prop :=
  ∀ stSize, c.stSize = some stSize → InInt (offsetOf isNew lid) ∧
    (int stSize ≤ offsetOf isNew lid → InTables t lid) ∧
    (offsetOf isNew lid < int stSize → InInt (int stSize + sizeOf isNew) ∧
      (c.malloc1 (int stSize) = true → c.malloc2 (int stSize + sizeOf isNew) = true →
        c.openAgain.isSome → c.pread (int stSize) = int stSize → InTables t lid))

def ChangeSettles (t : Tables) (c : VerCalls ι) (isNew : Bool) (lid : ℤ) :
    Option VerInfoUpdateFlag → Prop
  | some .verUpdate => isNew = true ∨ InInt (lid * fileVerLength)
  | some .verDel => DeleteDefined c isNew lid
  | some .verAdd => AddDefined t c isNew lid
  | none => False

/-- From the first lock on. -/
def LockedSettles (t : Tables) (c : VerCalls ι) (lid : ℤ) (flag : Option VerInfoUpdateFlag) :
    Prop :=
  c.open1 = none ∨ ∃ header, c.header = some header ∧
    ChangeSettles t c (isNewVerInfo header) lid flag

/-- VerUpdate returns at a lid beyond the tables, or its search opens the file and ends in order. A
negative size leaves the loop at once, with the flag as it is. -/
def Settles (t : Tables) (c : VerCalls ι) (lid : ℤ) : Option VerInfoUpdateFlag → Prop
  | some .verUpdate => 0 ≤ lid ∧ ∀ f, t.cfgFile lid.toNat = some f → c.openSearch.isSome ∧
      ((Found c f.targetName ∨ ilooptime c < 0) ∧ LockedSettles t c lid (some .verUpdate) ∨
        0 ≤ ilooptime c ∧ Missed c f.targetName ∧ LockedSettles t c lid (some .verAdd))
  | flag => LockedSettles t c lid flag

/-! ## The discipline -/

section Discipline

variable [DecidableEq ι]

theorem settled_rewrite (c : VerCalls ι) (count : ℤ) : Settled (rewrite c count).1 := by
  unfold rewrite
  cases c.openTrunc with
  | none => simp [Settled, Ledger.start]
  | some fd => simp [Settled, Ledger.start]

/-- The calls take a locked mutex and one open descriptor to the end of the function. -/
def Finishes (fd : ι) (es : List (Event ι)) : Prop :=
  Ledger.run ⟨true, [fd]⟩ es = some Ledger.start

theorem finishes_close (fd : ι) : Finishes fd (closeAndUnlock fd) := by
  simp [Finishes, closeAndUnlock, Ledger.start]

theorem Finishes.append {fd : ι} {es es' : List (Event ι)} (h : Finishes fd es)
    (h' : Settled es') : Finishes fd (es ++ es') := by
  unfold Finishes at *
  rw [Ledger.run_append, h, Option.bind_some]
  exact h'

theorem settled_locked_iff (fd : ι) (es : List (Event ι)) :
    Settled ([.lock, .opened fd] ++ es) ↔ Finishes fd es := by
  simp [Settled, Finishes, Ledger.start]

theorem settled_searched_iff (fd : ι) (es : List (Event ι)) :
    Settled ([.opened fd, .closed fd] ++ es) ↔ Settled es := by
  simp [Settled, Ledger.start]

theorem finishes_delete {c : VerCalls ι} {fd : ι} {size off : ℤ} {r : List (Event ι) × Bool}
    (h : delete c fd size off = some r) : Finishes fd r.1 := by
  unfold delete at h
  split at h
  · obtain rfl := Option.some_inj.mp h
    exact finishes_close fd
  · split_ifs at h
    · obtain rfl := Option.some_inj.mp h
      exact finishes_close fd
    · obtain rfl := Option.some_inj.mp h
      exact finishes_close fd
    · obtain rfl := Option.some_inj.mp h
      exact (finishes_close fd).append (settled_rewrite c _)

theorem finishes_addMiddle {t : Tables} {c : VerCalls ι} {fd : ι} {lid size iFileSize : ℤ}
    {r : List (Event ι) × Bool} (h : addMiddle t c fd lid size iFileSize = some r) :
    Finishes fd r.1 := by
  unfold addMiddle at h
  split at h
  · obtain rfl := Option.some_inj.mp h
    have hfree : Settled ([.lock, .unlock] : List (Event ι)) := by simp [Settled, Ledger.start]
    exact (finishes_close fd).append hfree
  · rename_i again _
    have hread := (settled_locked_iff again (closeAndUnlock again)).mpr (finishes_close again)
    dsimp only at h
    split_ifs at h
    · obtain rfl := Option.some_inj.mp h
      exact (finishes_close fd).append hread
    · obtain rfl := Option.some_inj.mp h
      exact ((finishes_close fd).append hread).append (settled_rewrite c _)

theorem finishes_add {t : Tables} {c : VerCalls ι} {fd : ι} {lid size off : ℤ}
    {r : List (Event ι) × Bool} (h : add t c fd lid size off = some r) : Finishes fd r.1 := by
  unfold add at h
  split at h
  · obtain rfl := Option.some_inj.mp h
    exact finishes_close fd
  · split_ifs at h
    · obtain rfl := Option.some_inj.mp h
      exact finishes_close fd
    · obtain rfl := Option.some_inj.mp h
      exact finishes_close fd
    · exact finishes_addMiddle h

end Discipline

/-! ## What is defined -/

theorem copies_inBounds_iff {iFileSize off : ℤ} {size : ℕ} :
    (∀ m ∈ copies iFileSize size off, m.InBounds) ↔ 0 ≤ off ∧ off + size ≤ iFileSize := by
  simp only [copies, List.forall_mem_cons, List.not_mem_nil, false_implies, implies_true, and_true,
    Memcpy.InBounds]
  omega

theorem delete_isSome_iff (c : VerCalls ι) (fd : ι) (isNew : Bool) (lid : ℤ) :
    (delete c fd (sizeOf isNew) (offsetOf isNew lid)).isSome ↔ DeleteDefined c isNew lid := by
  unfold delete DeleteDefined
  cases hstat : c.stSize with
  | none => simp
  | some stSize =>
    simp only [Option.some.injEq, forall_eq']
    split_ifs with hmalloc hread hcopies
    · rcases hmalloc with hmalloc | hmalloc
      · simp [hmalloc]
      · simp [hmalloc]
    · simp [hread]
    · rw [copies_inBounds_iff] at hcopies
      simp [hcopies]
    · rw [copies_inBounds_iff] at hcopies
      simp only [not_or, Bool.not_eq_false, ne_eq, not_not] at hmalloc hread
      simp [hmalloc, hread, hcopies]

theorem addMiddle_isSome_iff (t : Tables) (c : VerCalls ι) (fd : ι) (lid size iFileSize : ℤ) :
    (addMiddle t c fd lid size iFileSize).isSome ↔
      (c.openAgain.isSome → c.pread iFileSize = iFileSize → InTables t lid) := by
  unfold addMiddle
  cases c.openAgain with
  | none => simp
  | some again =>
    dsimp only
    split_ifs with hread htables
    · simp [hread]
    · simp [htables]
    · simp [not_not.mp hread, htables]

theorem add_isSome_iff (t : Tables) (c : VerCalls ι) (fd : ι) (isNew : Bool) (lid : ℤ) :
    (add t c fd lid (sizeOf isNew) (offsetOf isNew lid)).isSome ↔ AddDefined t c isNew lid := by
  unfold add AddDefined
  cases hstat : c.stSize with
  | none => simp
  | some stSize =>
    simp only [Option.some.injEq, forall_eq']
    split_ifs with hoff hend htables hsum hmalloc
    · simp [hoff, htables, not_lt.mpr hend]
    · simp [htables, hend]
    · rcases hmalloc with hmalloc | hmalloc
      · simp [hmalloc, hoff, hsum, hend]
      · simp [hmalloc, hoff, hsum, hend]
    · rw [addMiddle_isSome_iff]
      simp only [not_or, Bool.not_eq_false] at hmalloc
      simp [hmalloc, hoff, hsum, hend, not_le.mp hend]
    · simp [hsum, not_le.mp hend]
    · simp [hoff]

theorem searchLoop_eq_some {read : ℕ → Option (List UInt8)} {target : List UInt8} {n i k : ℕ} :
    searchLoop read target n i = some k ↔ i ≤ k ∧ k ≤ i + n ∧
      (∀ j, i ≤ j → j < k → ∃ b, read j = some b ∧ cString b ≠ target) ∧
      (k < i + n → ∃ b, read k = some b ∧ cString b = target) := by
  induction n generalizing i with
  | zero =>
    rw [searchLoop, Option.some_inj]
    constructor
    · rintro rfl
      exact ⟨le_refl _, le_refl _, fun j hle hlt => absurd hlt (not_lt.mpr hle),
        fun h => absurd h (lt_irrefl _)⟩
    · rintro ⟨hle, hge, -, -⟩
      omega
  | succ n ih =>
    rw [searchLoop]
    cases hread : read i with
    | none =>
      refine iff_of_false nofun ?_
      rintro ⟨hle, hge, hpasses, hfinds⟩
      rcases Nat.eq_or_lt_of_le hle with rfl | hlt
      · obtain ⟨b, hb, -⟩ := hfinds (by omega)
        exact nomatch hread.symm.trans hb
      · obtain ⟨b, hb, -⟩ := hpasses i (le_refl i) hlt
        exact nomatch hread.symm.trans hb
    | some b =>
      dsimp only
      split_ifs with hfound
      · rw [Option.some_inj]
        constructor
        · rintro rfl
          exact ⟨le_refl _, by omega, fun j hle hlt => absurd hlt (not_lt.mpr hle),
            fun _ => ⟨b, hread, hfound⟩⟩
        · rintro ⟨hle, -, hpasses, -⟩
          by_contra hne
          obtain ⟨b', hb', hother⟩ := hpasses i (le_refl i) (by omega)
          obtain rfl := Option.some_inj.mp (hread.symm.trans hb')
          exact hother hfound
      · rw [ih]
        constructor
        · rintro ⟨hle, hge, hpasses, hfinds⟩
          refine ⟨by omega, by omega, fun j hj hlt => ?_, fun h => hfinds (by omega)⟩
          rcases Nat.eq_or_lt_of_le hj with rfl | hj
          · exact ⟨b, hread, hfound⟩
          · exact hpasses j hj hlt
        · rintro ⟨hle, hge, hpasses, hfinds⟩
          rcases Nat.eq_or_lt_of_le hle with rfl | hlt
          · obtain ⟨b', hb', htarget⟩ := hfinds (by omega)
            obtain rfl := Option.some_inj.mp (hread.symm.trans hb')
            exact absurd htarget hfound
          · exact ⟨hlt, by omega, fun j hj => hpasses j (by omega), fun h => hfinds (by omega)⟩

/-! ## The whole function -/

section Settling

variable [DecidableEq ι]

theorem exists_some_iff {α : Type*} {o : Option α} {P : α → Prop} (h : ∀ r, o = some r → P r) :
    (∃ r, o = some r ∧ P r) ↔ o.isSome := by
  rw [Option.isSome_iff_exists]
  exact exists_congr fun r => and_iff_left_of_imp (h r)

theorem change_settles_iff (t : Tables) (c : VerCalls ι) (fd : ι) (lid : ℤ) (isNew : Bool)
    (flag : Option VerInfoUpdateFlag) :
    (∃ r, change t c fd lid isNew flag = some r ∧ Finishes fd r.1) ↔
      ChangeSettles t c isNew lid flag := by
  cases flag with
  | none =>
    refine iff_of_false ?_ id
    rintro ⟨r, hr, hfinishes⟩
    obtain rfl := Option.some_inj.mp hr
    simp [Finishes, Ledger.start] at hfinishes
  | some flag =>
    cases flag with
    | verUpdate =>
      rw [change, ChangeSettles]
      split_ifs with hoff
      · exact iff_of_true ⟨_, rfl, finishes_close fd⟩ hoff
      · refine iff_of_false ?_ hoff
        rintro ⟨r, hr, _⟩
        cases hr
    | verDel =>
      rw [change, exists_some_iff fun r => finishes_delete]
      exact delete_isSome_iff c fd isNew lid
    | verAdd =>
      rw [change, exists_some_iff fun r => finishes_add]
      exact add_isSome_iff t c fd isNew lid

theorem locked_settles_iff (t : Tables) (c : VerCalls ι) (lid : ℤ)
    (flag : Option VerInfoUpdateFlag) :
    (∃ r, locked t c lid flag = some r ∧ Settled r.1) ↔ LockedSettles t c lid flag := by
  unfold locked LockedSettles
  cases c.open1 with
  | none =>
    refine iff_of_true ⟨_, rfl, ?_⟩ (Or.inl rfl)
    simp [Settled, Ledger.start]
  | some fd =>
    cases c.header with
    | none => simp
    | some header =>
      simp only [← change_settles_iff t c fd, reduceCtorEq, false_or, Option.some.injEq,
        exists_eq_left', Option.map_eq_some_iff]
      constructor
      · rintro ⟨r, ⟨rest, hrest, rfl⟩, hsettled⟩
        exact ⟨rest, hrest, (settled_locked_iff fd rest.1).mp hsettled⟩
      · rintro ⟨rest, hrest, hfinishes⟩
        exact ⟨_, ⟨rest, hrest, rfl⟩, (settled_locked_iff fd rest.1).mpr hfinishes⟩

omit [DecidableEq ι] in
theorem searchLoop_flag_iff (c : VerCalls ι) (target : List UInt8)
    (P : VerInfoUpdateFlag → Prop) :
    (∃ k, searchLoop c.searchRead target (ilooptime c).toNat 0 = some k ∧
        P (if k = ilooptime c then .verAdd else .verUpdate)) ↔
      ((Found c target ∨ ilooptime c < 0) ∧ P .verUpdate ∨
        0 ≤ ilooptime c ∧ Missed c target ∧ P .verAdd) := by
  simp only [searchLoop_eq_some, Nat.zero_le, true_and, true_implies, Nat.zero_add]
  constructor
  · rintro ⟨k, ⟨hle, hpasses, hfinds⟩, hP⟩
    by_cases hend : (k : ℤ) = ilooptime c
    · rw [if_pos hend] at hP
      exact Or.inr ⟨by omega, fun j hj => hpasses j (by omega), hP⟩
    · rw [if_neg hend] at hP
      refine Or.inl ⟨?_, hP⟩
      by_cases hneg : ilooptime c < 0
      · exact Or.inr hneg
      · exact Or.inl ⟨k, by omega, hfinds (by omega), fun j hj => hpasses j hj⟩
  · rintro (⟨⟨k, hk, hfinds, hpasses⟩ | hneg, hP⟩ | ⟨hpos, hmissed, hP⟩)
    · refine ⟨k, ⟨hk.le, fun j hj => hpasses j hj, fun _ => hfinds⟩, ?_⟩
      rwa [if_neg (by omega)]
    · refine ⟨0, ⟨Nat.zero_le _, nofun, fun h => by omega⟩, ?_⟩
      rwa [if_neg (by omega)]
    · refine ⟨(ilooptime c).toNat, ⟨le_refl _, hmissed, fun h => absurd h (lt_irrefl _)⟩, ?_⟩
      rwa [if_pos (by omega)]

/-- The calls are defined and settled exactly under the condition on their answers. -/
theorem settled_iff (t : Tables) (c : VerCalls ι) (lid : ℤ) (flag : Option VerInfoUpdateFlag) :
    (∃ r, nvmUpdateFileVerNo t c lid flag = some r ∧ Settled r.1) ↔ Settles t c lid flag := by
  cases flag with
  | none => exact locked_settles_iff t c lid none
  | some flag =>
    cases flag with
    | verDel => exact locked_settles_iff t c lid (some .verDel)
    | verAdd => exact locked_settles_iff t c lid (some .verAdd)
    | verUpdate =>
      simp only [nvmUpdateFileVerNo, search, Settles]
      split_ifs with hneg
      · exact iff_of_false (fun ⟨r, hr, _⟩ => nomatch hr) fun h => absurd h.1 (by omega)
      · rw [and_iff_right (not_lt.mp hneg)]
        cases t.cfgFile lid.toNat with
        | none => exact iff_of_true ⟨_, rfl, rfl⟩ nofun
        | some f =>
          simp only [Option.some.injEq, forall_eq']
          cases c.openSearch with
          | none =>
            refine iff_of_false ?_ fun h => nomatch h.1
            rintro ⟨r, hr, hsettled⟩
            obtain rfl := Option.some_inj.mp hr
            simp [Settled, Ledger.start, Ledger.next] at hsettled
          | some fd =>
            rw [Option.isSome_some, eq_self, true_and,
              ← searchLoop_flag_iff c f.targetName fun flag => LockedSettles t c lid (some flag)]
            simp only [← locked_settles_iff]
            cases searchLoop c.searchRead f.targetName (ilooptime c).toNat 0 with
            | none => simp
            | some k =>
              constructor
              · rintro ⟨r, hr, hsettled⟩
                obtain ⟨rest, hrest, rfl⟩ := Option.map_eq_some_iff.mp hr
                exact ⟨k, rfl, rest, hrest, (settled_searched_iff fd rest.1).mp hsettled⟩
              · rintro ⟨k', hk, rest, hrest, hsettled⟩
                obtain rfl := Option.some_inj.mp hk
                exact ⟨_, Option.map_eq_some_iff.mpr ⟨rest, hrest, rfl⟩,
                  (settled_searched_iff fd rest.1).mpr hsettled⟩

/-- What is wrong with the enumerators is the exit of the search alone. -/
theorem settled_or_unlocks {t : Tables} {c : VerCalls ι} {lid : ℤ} {flag : VerInfoUpdateFlag}
    {r : List (Event ι) × Bool} (h : nvmUpdateFileVerNo t c lid (some flag) = some r) :
    Settled r.1 ∨ r.1 = [.unlock] := by
  have hlocked : ∀ (flag : VerInfoUpdateFlag) r, locked t c lid (some flag) = some r →
      Settled r.1 := by
    intro flag r hr
    unfold locked at hr
    split at hr
    · obtain rfl := Option.some_inj.mp hr
      simp [Settled, Ledger.start]
    · rename_i fd _
      split at hr
      · cases hr
      · obtain ⟨rest, hrest, rfl⟩ := Option.map_eq_some_iff.mp hr
        refine (settled_locked_iff fd rest.1).mpr ?_
        cases flag with
        | verUpdate =>
          rw [change] at hrest
          split_ifs at hrest
          obtain rfl := Option.some_inj.mp hrest
          exact finishes_close fd
        | verDel => exact finishes_delete hrest
        | verAdd => exact finishes_add hrest
  cases flag with
  | verDel => exact Or.inl (hlocked .verDel r h)
  | verAdd => exact Or.inl (hlocked .verAdd r h)
  | verUpdate =>
    simp only [nvmUpdateFileVerNo, search] at h
    split_ifs at h
    cases hf : t.cfgFile lid.toNat with
    | none =>
      rw [hf] at h
      obtain rfl := Option.some_inj.mp h
      exact Or.inl rfl
    | some f =>
      rw [hf] at h
      cases hopen : c.openSearch with
      | none =>
        rw [hopen] at h
        obtain rfl := Option.some_inj.mp h
        exact Or.inr rfl
      | some fd =>
        rw [hopen] at h
        cases hloop : searchLoop c.searchRead f.targetName (ilooptime c).toNat 0 with
        | none =>
          simp only [hloop] at h
          cases h
        | some k =>
          simp only [hloop] at h
          obtain ⟨rest, hrest, rfl⟩ := Option.map_eq_some_iff.mp h
          exact Or.inl ((settled_searched_iff fd rest.1).mpr (hlocked _ rest hrest))

end Settling

/-- No open succeeds. -/
def noOpen : VerCalls ℕ where
  openSearch := none
  searchSize := 0
  searchRead := fun _ => none
  open1 := none
  header := none
  stSize := none
  malloc1 := fun _ => false
  malloc2 := fun _ => false
  openAgain := none
  pread := fun _ => -1
  openTrunc := none
  pwrite := fun _ => -1

theorem unlocks_free : ¬ ∃ r, nvmUpdateFileVerNo smallTables noOpen 0 (some .verUpdate) = some r ∧
    Settled r.1 := by
  rintro ⟨r, hr, hsettled⟩
  obtain rfl := Option.some_inj.mp hr
  exact absurd hsettled (by decide)

/-! ## The models of the content -/

open VersionDelete (DelCalls verDelCalls entrySize entryOffset iFileSize)

section Content

variable (fd : ι) (file : List UInt8)

/-- The answers behind a deletion from a version file. -/
def delCalls (d : DelCalls) : VerCalls ι where
  openSearch := none
  searchSize := 0
  searchRead := fun _ => none
  open1 := if d.open1 then some fd else none
  header := if d.readHeader then some (readAt file 0 (fileNameLength - 1)) else none
  stSize := if d.stat then some file.length else none
  malloc1 := fun size => d.mallocs ∧ 0 ≤ size
  malloc2 := fun size => d.mallocs ∧ 0 ≤ size
  openAgain := none
  pread := fun n => if d.readDel then n else -1
  openTrunc := if d.open2 then some fd else none
  pwrite := fun n => d.written.elim (-1) fun k => min k n

theorem rewrite_delCalls (d : DelCalls) {lid : ℤ} (hslot : VersionDelete.SlotInFile lid file) :
    (rewrite (delCalls fd file d) (file.length - entrySize file)).2 =
      (d.open2 && d.written.elim false fun k =>
        decide ((VersionDelete.buffer2 lid file).length ≤ k)) := by
  have hlength := VersionDelete.length_buffer2 hslot
  unfold rewrite
  cases hopen : d.open2 with
  | false => simp [delCalls, hopen]
  | true =>
    cases hwritten : d.written with
    | none =>
      have hcount : ¬ (-1 : ℤ) = file.length - entrySize file := by omega
      simp [delCalls, hopen, hwritten, hcount]
    | some k =>
      have hcount : min (k : ℤ) (file.length - entrySize file) =
          file.length - entrySize file ↔ (VersionDelete.buffer2 lid file).length ≤ k := by
        omega
      simp [delCalls, hopen, hwritten, hcount]

theorem delete_delCalls (d : DelCalls) (lid : ℤ) (hstat : d.stat = true) :
    (delete (delCalls fd file d) fd (entrySize file) (entryOffset lid file)).map Prod.snd =
      if d.mallocs = false ∨ iFileSize file < entrySize file then some false
      else if d.readDel = false ∨ iFileSize file ≠ file.length then some false
      else if ¬ ∀ m ∈ VersionDelete.copies lid file, m.InBounds then none
      else some (d.open2 && d.written.elim false fun k =>
        decide ((VersionDelete.buffer2 lid file).length ≤ k)) := by
  have hcopies : copies (iFileSize file) (entrySize file) (entryOffset lid file) =
      VersionDelete.copies lid file := rfl
  have hsize : int file.length = iFileSize file := rfl
  have hst : (delCalls fd file d).stSize = some file.length := by simp [delCalls, hstat]
  have hmalloc : (delCalls fd file d).malloc1 (iFileSize file) = false ∨
      (delCalls fd file d).malloc2 (iFileSize file - entrySize file) = false ↔
        d.mallocs = false ∨ iFileSize file < entrySize file := by
    cases hm : d.mallocs with
    | false => simp [delCalls, hm]
    | true =>
      simp only [delCalls, hm, true_and, decide_eq_false_iff_not, not_le, Bool.true_eq_false,
        false_or]
      omega
  have hread : (delCalls fd file d).pread (iFileSize file) ≠ file.length ↔
      d.readDel = false ∨ iFileSize file ≠ file.length := by
    cases hr : d.readDel with
    | false =>
      simp only [delCalls, hr, Bool.false_eq_true, if_false, true_or, iff_true]
      omega
    | true => simp [delCalls, hr]
  unfold delete
  rw [hst]
  simp only [hsize, hcopies, hmalloc, hread]
  split_ifs with h1 h2 h3
  · rfl
  · rfl
  · have hint := not_not.mp (not_or.mp h2).2
    have hslot := (VersionDelete.copies_inBounds_iff hint).mp h3
    rw [hint]
    exact congrArg some (rewrite_delCalls fd file d hslot)
  · rfl

/-- The calls are undefined where the deletion is, and have its result. -/
theorem nvmUpdateFileVerNo_verDel (t : Tables) (d : DelCalls) (lid : ℤ) :
    (nvmUpdateFileVerNo t (delCalls fd file d) lid (some .verDel)).map Prod.snd =
      (verDelCalls d lid file).map Prod.fst := by
  have hlocked : nvmUpdateFileVerNo t (delCalls fd file d) lid (some .verDel) =
      locked t (delCalls fd file d) lid (some .verDel) := rfl
  rw [hlocked, locked]
  cases hopen : d.open1 with
  | false => simp [delCalls, verDelCalls, hopen]
  | true =>
    have hopen1 : (delCalls fd file d).open1 = some fd := by simp [delCalls, hopen]
    rw [hopen1]
    cases hheader : d.readHeader with
    | false => simp [delCalls, verDelCalls, hopen, hheader]
    | true =>
      have hread : (delCalls fd file d).header = some (readAt file 0 (fileNameLength - 1)) := by
        simp [delCalls, hheader]
      have hchange : change t (delCalls fd file d) fd lid
          (isNewVerInfo (readAt file 0 (fileNameLength - 1))) (some .verDel) =
            delete (delCalls fd file d) fd (entrySize file) (entryOffset lid file) := rfl
      simp only [hread, hchange, Option.map_map]
      change (delete _ _ _ _).map Prod.snd = _
      cases hstat : d.stat with
      | false => simp [delete, delCalls, verDelCalls, hopen, hheader, hstat]
      | true =>
        rw [delete_delCalls fd file d lid hstat]
        simp only [verDelCalls, hopen, hheader, hstat, Bool.true_eq_false, if_false]
        split_ifs with h1 h2 h3 h4
        · rfl
        · rfl
        · simp [h4]
        · cases d.written with
          | none => simp
          | some k => simp [h4]
        · rfl

/-- The answers on a version file where every call succeeds in full. -/
def fullCalls : VerCalls ι where
  openSearch := some fd
  searchSize := file.length
  searchRead := fun iIndex => some (readAt file (iIndex * recordSize) (fileNameLength - 1))
  open1 := some fd
  header := some (readAt file 0 (fileNameLength - 1))
  stSize := some file.length
  malloc1 := fun size => 0 ≤ size
  malloc2 := fun size => 0 ≤ size
  openAgain := some fd
  pread := id
  openTrunc := some fd
  pwrite := id

theorem add_full (t : Tables) {lid : ℤ} (htables : InTables t lid) {size : ℕ} {off : ℤ}
    (hoff : InInt off) (hsize : (file.length : ℤ) + size < 2147483648) :
    (add t (fullCalls fd file) fd lid size off).map Prod.snd = some true := by
  have hint : int file.length = file.length := Int.bmod_eq_of_le (by omega) (by omega)
  have hsum : InInt (file.length + size) := by
    unfold InInt
    omega
  have hmiddle : (addMiddle t (fullCalls fd file) fd lid size file.length).map Prod.snd =
      some true := by
    simp [addMiddle, fullCalls, htables, rewrite]
  have hstat : (fullCalls fd file).stSize = some file.length := rfl
  have hmalloc : ¬ ((fullCalls fd file).malloc1 file.length = false ∨
      (fullCalls fd file).malloc2 (file.length + size) = false) := by
    simp only [fullCalls, decide_eq_false_iff_not]
    omega
  unfold add
  rw [hstat]
  dsimp only
  rw [hint, if_neg (not_not_intro hoff)]
  split_ifs
  · rfl
  · exact hmiddle

theorem searchLoop_full (target : List UInt8) (n i : ℕ) :
    ∃ k, searchLoop (fullCalls fd file).searchRead target n i = some k := by
  induction n generalizing i with
  | zero => exact ⟨i, rfl⟩
  | succ n ih =>
    simp only [searchLoop, fullCalls] at ih ⊢
    split_ifs
    · exact ⟨i, rfl⟩
    · exact ih (i + 1)

theorem locked_full (t : Tables) {lid : ℕ} (htables : InTables t lid)
    (hsize : file.length + recordSize < 2147483648) (hlid : (lid + 1) * recordSize < 2147483648)
    {flag : VerInfoUpdateFlag} (hflag : flag ≠ .verDel) :
    (locked t (fullCalls fd file) lid (some flag)).map Prod.snd = some true := by
  have hheader : (fullCalls fd file).header = some (readAt file 0 (fileNameLength - 1)) := rfl
  have hopen : (fullCalls fd file).open1 = some fd := rfl
  generalize hnew : isNewVerInfo (readAt file 0 (fileNameLength - 1)) = isNew
  have hsizes : sizeOf isNew ≤ recordSize := by cases isNew <;> decide
  have hoffset : InInt (offsetOf isNew lid) ∧ InInt (lid * fileVerLength) := by
    have hrecord : recordSize = 74 := rfl
    have hver : fileVerLength = 4 := rfl
    rw [hrecord] at hlid
    unfold InInt offsetOf
    rw [hrecord, hver]
    split <;> push_cast <;> omega
  rw [locked, hopen]
  dsimp only
  rw [hheader]
  dsimp only
  rw [hnew, Option.map_map]
  change Option.map Prod.snd _ = _
  cases flag with
  | verDel => exact absurd rfl hflag
  | verUpdate =>
    rw [change, if_pos (Or.inr hoffset.2)]
    rfl
  | verAdd => exact add_full fd file t htables hoffset.1 (by omega)

/-- On a version file where the sums fit an int an update or an addition has the result that it has
for the content of the file. -/
theorem nvmUpdateFileVerNo_result (t : Tables) {file' : List UInt8} {lid : ℕ}
    {flag : VerInfoUpdateFlag} {result : Bool} (hflag : flag ≠ .verDel)
    (hsize : file.length + recordSize < 2147483648) (hlid : (lid + 1) * recordSize < 2147483648)
    (h : Nvram.nvmUpdateFileVerNo t lid flag file = some (result, file')) :
    (nvmUpdateFileVerNo t (fullCalls fd file) lid (some flag)).map Prod.snd = some result := by
  have htables : ∀ f, t.cfgFile lid = some f → InTables t lid := by
    intro f hf
    have hlt := Tables.lt_of_cfgFile hf
    unfold InTables
    omega
  cases flag with
  | verDel => exact absurd rfl hflag
  | verAdd =>
    simp only [Nvram.nvmUpdateFileVerNo] at h
    cases hf : t.cfgFile lid with
    | none =>
      rw [hf] at h
      cases h
    | some f =>
      rw [hf] at h
      cases h
      exact locked_full fd file t (htables f hf) hsize hlid hflag
  | verUpdate =>
    simp only [Nvram.nvmUpdateFileVerNo] at h
    cases hf : t.cfgFile lid with
    | none =>
      rw [hf] at h
      cases h
      rw [nvmUpdateFileVerNo, search, if_neg (by omega), Int.toNat_natCast, hf]
      rfl
    | some f =>
      rw [hf] at h
      have hresult : result = true := by
        dsimp only at h
        split at h <;> exact (congrArg Prod.fst (Option.some_inj.mp h)).symm
      obtain ⟨k, hk⟩ := searchLoop_full fd file f.targetName (ilooptime (fullCalls fd file)).toNat 0
      have hsearch : search t (fullCalls fd file) lid = some ([.opened fd, .closed fd],
          some (if (k : ℤ) = ilooptime (fullCalls fd file) then .verAdd else .verUpdate)) := by
        rw [search, if_neg (by omega), Int.toNat_natCast, hf]
        dsimp only
        rw [show (fullCalls fd file).openSearch = some fd from rfl]
        dsimp only
        rw [hk]
        rfl
      rw [nvmUpdateFileVerNo, hsearch, Option.map_map, hresult]
      exact locked_full fd file t (htables f hf) hsize hlid (by split <;> decide)

end Content

end VersionLocks
