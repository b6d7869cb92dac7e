import VendorMediatek.VersionFile

/-!
# Deleting a version record

`NVM_UpdateFileVerNo` with VerDel, with the outcome of every call that it makes. The record is cut
out between two buffers, and the version file is truncated before the second one is written.
-/

namespace VersionDelete

open Nvram ByteFile

/-- What the calls come to: whether the reads and the mallocs succeed in full, and the result of
the write, none for -1. -/
structure DelCalls where
  open1 : Bool
  readHeader : Bool
  stat : Bool
  mallocs : Bool
  readDel : Bool
  open2 : Bool
  written : Option ℕ

/-- A call of memcpy with the sizes of its two buffers. -/
structure Memcpy where
  destSize : ℤ
  srcSize : ℤ
  dest : ℤ
  src : ℤ
  n : ℤ

def Memcpy.InBounds (m : Memcpy) : Prop :=
  0 ≤ m.n ∧ 0 ≤ m.dest ∧ m.dest + m.n ≤ m.destSize ∧ 0 ≤ m.src ∧ m.src + m.n ≤ m.srcSize

instance (m : Memcpy) : Decidable m.InBounds := inferInstanceAs (Decidable (_ ∧ _))

def entrySize (file : List UInt8) : ℕ := if bIsNewVerInfo file then recordSize else fileVerLength

/-- The expressions in file_lid. Where one of them leaves the range of an int the copy is out of
bounds as well. -/
def entryOffset (lid : ℤ) (file : List UInt8) : ℤ :=
  if bIsNewVerInfo file then (lid + 1) * recordSize else lid * fileVerLength

/-- st_size in an int. -/
def iFileSize (file : List UInt8) : ℤ := Int.bmod file.length 4294967296

/-- What stands before the record, and what stands behind it. -/
def copies (lid : ℤ) (file : List UInt8) : List Memcpy :=
  let size := iFileSize file
  let rest := size - entrySize file
  let off := entryOffset lid file
  [⟨rest, size, 0, 0, off⟩, ⟨rest, size, off, off + entrySize file, size - (off + entrySize file)⟩]

def buffer2 (lid : ℤ) (file : List UInt8) : List UInt8 :=
  let off := (entryOffset lid file).toNat
  file.take off ++ file.drop (off + entrySize file)

/-- The result and the version file afterwards, none where the behaviour is undefined. -/
def verDelCalls (c : DelCalls) (lid : ℤ) (file : List UInt8) : Option (Bool × List UInt8) :=
  if c.open1 = false then some (false, file)
  -- tempstr[-1] is written where the read of the header fails
  else if c.readHeader = false then none
  else if c.stat = false then some (false, file)
  -- no block has a negative size
  else if c.mallocs = false ∨ iFileSize file < entrySize file then some (false, file)
  -- the result of pread is compared with st_size itself
  else if c.readDel = false ∨ iFileSize file ≠ file.length then some (false, file)
  else if ¬ ∀ m ∈ copies lid file, m.InBounds then none
  else if c.open2 = false then some (false, file)
  else
    match c.written with
    | none => some (false, [])
    | some n => some (decide ((buffer2 lid file).length ≤ n), (buffer2 lid file).take n)

/-- The file without the record of the lid, which it holds in full. -/
def Removed (lid : ℤ) (file file' : List UInt8) : Prop :=
  0 ≤ lid ∧ ∃ before record behind, file = before ++ record ++ behind ∧
    (before.length : ℤ) = entryOffset lid file ∧ record.length = entrySize file ∧
    file' = before ++ behind

def RemovesOrKeeps (c : DelCalls) (lid : ℤ) (file : List UInt8) : Prop :=
  verDelCalls c lid file = some (false, file) ∨
    ∃ file', verDelCalls c lid file = some (true, file') ∧ Removed lid file file'

/-- The call returns false before it computes with the lid. -/
def LeavesEarly (c : DelCalls) (file : List UInt8) : Prop :=
  c.open1 = false ∨ c.readHeader = true ∧
    (c.stat = false ∨ c.mallocs = false ∨ c.readDel = false ∨
      file.length < entrySize file ∨ 2147483648 ≤ file.length)

/-- The slot of the lid lies in the file. -/
def SlotInFile (lid : ℤ) (file : List UInt8) : Prop :=
  0 ≤ entryOffset lid file ∧ entryOffset lid file + entrySize file ≤ file.length

instance (lid : ℤ) (file : List UInt8) : Decidable (SlotInFile lid file) :=
  inferInstanceAs (Decidable (_ ∧ _))

theorem iFileSize_eq_iff (file : List UInt8) :
    iFileSize file = file.length ↔ file.length < 2147483648 := by
  constructor
  · intro h
    have hlt : iFileSize file < (4294967296 + 1) / 2 := Int.bmod_lt (by decide)
    omega
  · intro h
    exact Int.bmod_eq_of_le (by omega) (by omega)

theorem entrySize_pos (file : List UInt8) : 0 < entrySize file := by
  unfold entrySize
  split <;> decide

theorem copies_inBounds_iff {lid : ℤ} {file : List UInt8} (hsize : iFileSize file = file.length) :
    (∀ m ∈ copies lid file, m.InBounds) ↔ SlotInFile lid file := by
  have hpos := entrySize_pos file
  simp only [copies, hsize, List.forall_mem_cons, List.not_mem_nil, false_implies, implies_true,
    and_true, Memcpy.InBounds, SlotInFile]
  omega

theorem length_buffer2 {lid : ℤ} {file : List UInt8} (h : SlotInFile lid file) :
    (buffer2 lid file).length + entrySize file = file.length := by
  obtain ⟨hoff, hend⟩ := h
  simp only [buffer2, List.length_append, List.length_take, List.length_drop]
  omega

theorem removed_iff {lid : ℤ} {file file' : List UInt8} :
    Removed lid file file' ↔ 0 ≤ lid ∧ SlotInFile lid file ∧ file' = buffer2 lid file := by
  constructor
  · rintro ⟨hlid, before, record, behind, hfile, hoff, hrec, rfl⟩
    have hlen := congrArg List.length hfile
    simp only [List.length_append] at hlen
    refine ⟨hlid, ⟨by omega, by omega⟩, ?_⟩
    have htake : file.take before.length = before := by
      rw [hfile, List.append_assoc, List.take_left]
    have hdrop : file.drop (before.length + record.length) = behind := by
      rw [hfile, ← List.length_append, List.drop_left]
    rw [buffer2, ← hoff, Int.toNat_natCast, ← hrec, htake, hdrop]
  · rintro ⟨hlid, ⟨hoff, hend⟩, rfl⟩
    refine ⟨hlid, file.take (entryOffset lid file).toNat,
      readAt file (entryOffset lid file).toNat (entrySize file),
      file.drop ((entryOffset lid file).toNat + entrySize file), ?_, ?_, ?_, rfl⟩
    · rw [readAt, List.append_assoc, ← List.drop_drop, List.take_append_drop,
        List.take_append_drop]
    · rw [List.length_take]
      omega
    · rw [length_readAt]
      omega

theorem entryOffset_natCast (lid : ℕ) (file : List UInt8) :
    entryOffset lid file =
      (if bIsNewVerInfo file then (lid + 1) * recordSize else lid * fileVerLength : ℕ) := by
  unfold entryOffset
  split <;> push_cast <;> rfl

theorem verDel_eq (lid : ℕ) (file : List UInt8) :
    verDel lid file =
      let off := if bIsNewVerInfo file then (lid + 1) * recordSize else lid * fileVerLength
      if file.length < entrySize file then some (false, file)
      else if off + entrySize file ≤ file.length then
        some (true, file.take off ++ file.drop (off + entrySize file))
      else none := rfl

/-- With full calls on a file whose size fits an int this is the cut of the version file. -/
theorem verDelCalls_full {c : DelCalls} (hopen1 : c.open1 = true) (hheader : c.readHeader = true)
    (hstat : c.stat = true) (hmallocs : c.mallocs = true) (hread : c.readDel = true)
    (hopen2 : c.open2 = true) {n : ℕ} (hwritten : c.written = some n) (lid : ℕ)
    {file : List UInt8} (hint : file.length < 2147483648) (hn : file.length ≤ n) :
    verDelCalls c lid file = verDel lid file := by
  have hsize := (iFileSize_eq_iff file).mpr hint
  simp only [verDelCalls, hopen1, hheader, hstat, hmallocs, hread, hopen2, hwritten, hsize,
    copies_inBounds_iff hsize, Bool.true_eq_false, if_false, false_or, ne_eq, not_true]
  have hoff := entryOffset_natCast lid file
  rw [verDel_eq]
  generalize (if bIsNewVerInfo file then (lid + 1) * recordSize else lid * fileVerLength) = off
    at hoff
  have hslot : SlotInFile lid file ↔ off + entrySize file ≤ file.length := by
    unfold SlotInFile
    omega
  by_cases hshort : file.length < entrySize file
  · simp [hshort]
  by_cases hfit : off + entrySize file ≤ file.length
  · have hlen := length_buffer2 (hslot.mpr hfit)
    have hfull : (buffer2 lid file).length ≤ n := by omega
    have hcut : buffer2 lid file = file.take off ++ file.drop (off + entrySize file) := by
      rw [buffer2, hoff, Int.toNat_natCast]
    have hnat : ¬ (file.length : ℤ) < entrySize file := by omega
    simp only [hshort, hnat, hslot, hfit, not_true, if_false, if_true, hfull, decide_true,
      List.take_of_length_le hfull, ← hcut]
  · have hnat : ¬ (file.length : ℤ) < entrySize file := by omega
    simp only [hshort, hnat, hslot, hfit, not_false_iff, if_false, if_true]

theorem verDelCalls_early {c : DelCalls} {file : List UInt8} (h : LeavesEarly c file) {lid : ℤ} :
    verDelCalls c lid file = some (false, file) := by
  rcases h with hopen1 | ⟨hheader, hrest⟩
  · rw [verDelCalls, if_pos hopen1]
  · have hsized : iFileSize file < entrySize file ∨ iFileSize file ≠ file.length →
        verDelCalls c lid file = some (false, file) := by
      rintro (hshort | hlong)
      · simp [verDelCalls, hheader, hshort]
      · simp [verDelCalls, hheader, hlong]
    rcases hrest with hstat | hmallocs | hread | hshort | hlong
    · simp [verDelCalls, hheader, hstat]
    · simp [verDelCalls, hheader, hmallocs]
    · simp [verDelCalls, hheader, hread]
    · apply hsized
      by_cases hsize : iFileSize file = file.length
      · left
        omega
      · exact Or.inr hsize
    · exact hsized (Or.inr ((iFileSize_eq_iff file).not.mpr (not_lt.mpr hlong)))

/-- Past the early exits the calls are right where the slot lies in the file, and the file is not
truncated or the write is full. -/
theorem removesOrKeeps_late {c : DelCalls} {lid : ℤ} {file : List UInt8}
    (hopen1 : c.open1 = true) (hheader : c.readHeader = true) (hearly : ¬ LeavesEarly c file) :
    RemovesOrKeeps c lid file ↔ SlotInFile lid file ∧
      (c.open2 = false ∨ 0 ≤ lid ∧ ∃ n, c.written = some n ∧
        file.length ≤ n + entrySize file) := by
  simp only [LeavesEarly, hopen1, hheader, Bool.true_eq_false, false_or, true_and, not_or,
    Bool.not_eq_false, not_lt, not_le] at hearly
  obtain ⟨hstat, hmallocs, hread, hlong, hint⟩ := hearly
  have hsize := (iFileSize_eq_iff file).mpr hint
  have hnat : ¬ (file.length : ℤ) < entrySize file := by omega
  unfold RemovesOrKeeps
  simp only [verDelCalls, hopen1, hheader, hstat, hmallocs, hread, hsize,
    copies_inBounds_iff hsize, Bool.true_eq_false, if_false, false_or, ne_eq, not_true, hnat]
  by_cases hslot : SlotInFile lid file
  · have hlen := length_buffer2 hslot
    have hpos := entrySize_pos file
    have hne : ∀ n, (buffer2 lid file).take n ≠ file := fun n heq => by
      have := congrArg List.length heq
      rw [List.length_take] at this
      omega
    simp only [hslot, not_true, if_false, true_and]
    cases hopen2 : c.open2 with
    | false => simp
    | true =>
      cases hwritten : c.written with
      | none =>
        have hnil : [] ≠ file := hne 0
        simp [hnil]
      | some n =>
        have hfull : (buffer2 lid file).length ≤ n ↔ file.length ≤ n + entrySize file := by omega
        simp only [removed_iff, Bool.true_eq_false, if_false, false_or, Option.some.injEq,
          Prod.mk.injEq, hne n, and_false, hslot, true_and, hfull, exists_eq_left',
          decide_eq_true_iff]
        constructor
        · rintro ⟨file', ⟨hn, -⟩, hlid, -⟩
          exact ⟨hlid, hn⟩
        · rintro ⟨hlid, hn⟩
          exact ⟨_, ⟨hn, rfl⟩, hlid, List.take_of_length_le (hfull.mpr hn)⟩
  · simp [hslot]

/-- A call removes a record or leaves the file alone exactly where it returns early, or where the
slot of the lid lies in the file and the file is then either not truncated or written in full. -/
theorem removesOrKeeps_iff (c : DelCalls) (lid : ℤ) (file : List UInt8) :
    RemovesOrKeeps c lid file ↔
      LeavesEarly c file ∨ c.readHeader = true ∧ SlotInFile lid file ∧
        (c.open2 = false ∨ 0 ≤ lid ∧ ∃ n, c.written = some n ∧
          file.length ≤ n + entrySize file) := by
  by_cases hearly : LeavesEarly c file
  · refine iff_of_true (Or.inl ?_) (Or.inl hearly)
    exact verDelCalls_early hearly
  · cases hopen1 : c.open1 with
    | false => exact absurd (Or.inl hopen1) hearly
    | true =>
      cases hheader : c.readHeader with
      | false => simp [RemovesOrKeeps, verDelCalls, hopen1, hheader, hearly]
      | true => simp [removesOrKeeps_late hopen1 hheader hearly, hearly]

/-- Full calls. -/
def allSucceed : DelCalls := ⟨true, true, true, true, true, true, some 1000⟩

/-- One version of the old format: the deletion of the next one copies a negative length. With two
versions the deletion of the first truncates the file before a write that fails. -/
theorem removesOrKeeps_fails :
    ¬ RemovesOrKeeps allSucceed 1 [48, 48, 49, 0] ∧
      ¬ RemovesOrKeeps { allSucceed with written := none } 0 [48, 48, 49, 0, 48, 48, 50, 0] := by
  constructor
  · rintro (h | ⟨file', h, -⟩)
    · revert h
      decide
    · have hnone : verDelCalls allSucceed 1 [48, 48, 49, 0] = none := by decide
      exact absurd (hnone.symm.trans h) nofun
  · rintro (h | ⟨file', h, -⟩)
    · revert h
      decide
    · have hlost : verDelCalls { allSucceed with written := none } 0
          [48, 48, 49, 0, 48, 48, 50, 0] = some (false, []) := by decide
      exact absurd (hlost.symm.trans h) nofun

end VersionDelete
