import Mathlib.Data.List.GetD
import Mathlib.Data.UInt
import Mathlib.Tactic.Ring

/-!
# Blocks read and written at offsets

`readAt` and `writeAt` are pread and pwrite on a file, and memcpy on a buffer where
the range lies within it. A write behind the end leaves a hole of zeros.
-/

namespace ByteFile

universe u

variable {α : Type u}

def readAt (file : List α) (off count : ℕ) : List α := (file.drop off).take count

variable [Zero α]

def writeAt (file : List α) (off : ℕ) (data : List α) : List α :=
  if data = [] then file
  else
    file.take off ++ List.replicate (off - file.length) 0 ++ data ++ file.drop (off + data.length)

omit [Zero α] in
@[simp] theorem length_readAt (file : List α) (off count : ℕ) :
    (readAt file off count).length = min count (file.length - off) := by
  simp [readAt]

omit [Zero α] in
theorem readAt_all {file : List α} {count : ℕ} (h : file.length ≤ count) :
    readAt file 0 count = file := by
  rw [readAt, List.drop_zero, List.take_of_length_le h]

@[simp] theorem writeAt_nil (file : List α) (off : ℕ) : writeAt file off [] = file := by
  simp [writeAt]

@[simp] theorem writeAt_length (file : List α) : ∀ data, writeAt file file.length data = file ++ data
  | [] => by simp
  | b :: data => by simp [writeAt]

theorem writeAt_of_le {file : List α} {off : ℕ} {data : List α} (h : off ≤ file.length) :
    writeAt file off data = file.take off ++ data ++ file.drop (off + data.length) := by
  by_cases hd : data = []
  · simp [hd]
  · simp [writeAt, hd, Nat.sub_eq_zero_of_le h]

theorem length_writeAt_max {data : List α} (hd : data ≠ []) (file : List α) (off : ℕ) :
    (writeAt file off data).length = max file.length (off + data.length) := by
  rw [writeAt, if_neg hd]
  simp only [List.length_append, List.length_take, List.length_replicate, List.length_drop]
  omega

theorem length_writeAt {file : List α} {off : ℕ} {data : List α}
    (h : off + data.length ≤ file.length) : (writeAt file off data).length = file.length := by
  rw [writeAt_of_le (by omega)]
  simp only [List.length_append, List.length_take, List.length_drop]
  omega

theorem take_writeAt {file : List α} {off : ℕ} (h : off ≤ file.length) (data : List α) :
    (writeAt file off data).take (off + data.length) = file.take off ++ data := by
  rw [writeAt_of_le h]
  apply List.take_left'
  simp [h]

theorem writeAt_behind {file : List α} {off : ℕ} (h : off ≤ file.length) (a b : List α) :
    writeAt (writeAt file off a) (off + a.length) b = writeAt file off (a ++ b) := by
  have hlen : off + a.length ≤ (writeAt file off a).length := by
    rw [writeAt_of_le h]
    simp only [List.length_append, List.length_take]
    omega
  have hdrop : (writeAt file off a).drop (off + a.length + b.length) =
      file.drop (off + (a ++ b).length) := by
    rw [writeAt_of_le h, List.drop_append,
      List.drop_of_length_le (by simp only [List.length_append, List.length_take]; omega),
      List.nil_append, List.drop_drop, List.length_append, List.length_append, List.length_take,
      Nat.min_eq_left h]
    congr 1
    omega
  rw [writeAt_of_le hlen, take_writeAt h, hdrop, writeAt_of_le h, List.append_assoc _ a b]

theorem take_writeAt_within {file : List α} {off n : ℕ} {data : List α}
    (h : off + data.length ≤ n) :
    (writeAt file off data).take n = writeAt (file.take n) off data := by
  by_cases hd : data = []
  · simp [hd]
  · have hbefore : (file.take off ++ List.replicate (off - file.length) 0 ++ data).length =
        off + data.length := by
      simp only [List.length_append, List.length_take, List.length_replicate]
      omega
    have hfill : off - min n file.length = off - file.length := by omega
    have hoff : min off n = off := by omega
    simp only [writeAt, hd, if_false, List.length_take, hfill, List.take_take, hoff, List.drop_take]
    rw [List.take_append, hbefore, List.take_of_length_le (by rw [hbefore]; exact h)]

/-! ## Windows

A window is what a reader with a cleared buffer sees: zeros stand where the file has ended. -/

def window (file : List α) (off count : ℕ) : List α :=
  (List.range count).map fun i => file.getD (off + i) 0

@[simp] theorem length_window (file : List α) (off count : ℕ) :
    (window file off count).length = count := by
  simp [window]

theorem window_congr {file file' : List α} {off off' count : ℕ}
    (h : ∀ i < count, file.getD (off + i) 0 = file'.getD (off' + i) 0) :
    window file off count = window file' off' count :=
  List.map_congr_left fun i hi => h i (List.mem_range.mp hi)

theorem take_window (file : List α) (off : ℕ) {m n : ℕ} (h : m ≤ n) :
    (window file off n).take m = window file off m := by
  rw [window, window, ← List.map_take, List.take_range, Nat.min_eq_left h]

theorem drop_window (file : List α) (off m n : ℕ) :
    (window file off (m + n)).drop m = window file (off + m) n := by
  apply List.ext_getElem
  · simp
  · intro i _ _
    simp [window, Nat.add_assoc]

theorem window_add (file : List α) (off m n : ℕ) :
    window file off (m + n) = window file off m ++ window file (off + m) n := by
  rw [← drop_window, ← take_window file off (Nat.le_add_right m n), List.take_append_drop]

theorem window_drop (file : List α) (k off n : ℕ) :
    window (file.drop k) off n = window file (off + k) n := by
  apply window_congr
  intro i _
  simp only [List.getD_eq_getElem?_getD, List.getElem?_drop]
  congr 2
  omega

theorem readAt_padded (file : List α) (off count : ℕ) :
    readAt file off count ++ List.replicate (count - (readAt file off count).length) 0 =
      window file off count := by
  apply List.ext_getElem
  · simp only [List.length_append, length_readAt, List.length_replicate, length_window]
    omega
  · intro i _ hi
    simp only [length_window] at hi
    simp only [window, List.getElem_map, List.getElem_range, List.getD_eq_getElem?_getD]
    by_cases hoff : off + i < file.length
    · rw [List.getElem_append_left (by simp; omega)]
      simp [readAt, hoff]
    · rw [List.getElem_append_right (by simp; omega), List.getElem_replicate,
        List.getElem?_eq_none (by omega), Option.getD_none]

theorem getD_writeAt (file : List α) (off : ℕ) (data : List α) (i : ℕ) :
    (writeAt file off data).getD i 0 =
      if off ≤ i ∧ i < off + data.length then data.getD (i - off) 0 else file.getD i 0 := by
  by_cases hd : data = []
  · subst hd
    rw [writeAt_nil, if_neg (by simp)]
  · simp only [writeAt, hd, if_false, List.getD_eq_getElem?_getD, List.getElem?_append,
      List.length_append, List.length_take, List.length_replicate, List.getElem?_take,
      List.getElem?_replicate, List.getElem?_drop]
    grind

theorem getD_insert {file : List α} {p : ℕ} (hp : p ≤ file.length) (data : List α) (i : ℕ) :
    (file.take p ++ data ++ file.drop p).getD i 0 =
      if i < p then file.getD i 0
      else if i < p + data.length then data.getD (i - p) 0
      else file.getD (i - data.length) 0 := by
  simp only [List.getD_eq_getElem?_getD, List.getElem?_append, List.length_append,
    List.length_take, List.getElem?_take, List.getElem?_drop]
  grind

theorem window_writeAt {a n : ℕ} {data : List α} (h : a + n ≤ data.length) (file : List α)
    (off : ℕ) : window (writeAt file off data) (off + a) n = readAt data a n := by
  apply List.ext_getElem
  · simp
    omega
  · intro i hi _
    simp only [length_window] at hi
    simp only [window, readAt, List.getElem_map, List.getElem_range, List.getElem_take,
      List.getElem_drop]
    rw [getD_writeAt, if_pos (by omega), List.getD_eq_getElem _ _ (by omega)]
    congr 1
    omega

theorem window_writeAt_of_disjoint {off off' n : ℕ} {data : List α}
    (h : off' + n ≤ off ∨ off + data.length ≤ off') (file : List α) :
    window (writeAt file off data) off' n = window file off' n := by
  apply window_congr
  intro i hi
  rw [getD_writeAt, if_neg (by omega)]

section Insert

variable {file : List α} {p : ℕ} (hp : p ≤ file.length) (data : List α)

include hp

theorem window_insert_before {off n : ℕ} (h : off + n ≤ p) :
    window (file.take p ++ data ++ file.drop p) off n = window file off n := by
  apply window_congr
  intro i hi
  rw [getD_insert hp, if_pos (by omega)]

theorem window_insert_at {a n : ℕ} (h : a + n ≤ data.length) :
    window (file.take p ++ data ++ file.drop p) (p + a) n = readAt data a n := by
  apply List.ext_getElem
  · simp
    omega
  · intro i hi _
    simp only [length_window] at hi
    simp only [window, readAt, List.getElem_map, List.getElem_range, List.getElem_take,
      List.getElem_drop]
    rw [getD_insert hp, if_neg (by omega), if_pos (by omega), List.getD_eq_getElem _ _ (by omega)]
    congr 1
    omega

theorem window_insert_behind {off n : ℕ} (h : p ≤ off) :
    window (file.take p ++ data ++ file.drop p) (off + data.length) n = window file off n := by
  apply window_congr
  intro i hi
  rw [getD_insert hp, if_neg (by omega), if_neg (by omega)]
  congr 1
  omega

end Insert

end ByteFile
