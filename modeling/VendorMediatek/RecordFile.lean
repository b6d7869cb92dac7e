import VendorMediatek.ByteFile

/-!
# Files of records of one size

A file of records is their concatenation. Cutting it at a multiple of the record size cuts the
list of records, so the byte operations are insertion and removal in that list.
-/

namespace RecordFile

open ByteFile
open scoped List

universe u

variable {α : Type u} {k : ℕ}

/-- A record cannot have the wrong size. -/
abbrev Record (α : Type u) (k : ℕ) := { r : List α // r.length = k }

def encode (rs : List (Record α k)) : List α := rs.flatMap Subtype.val

@[simp] theorem encode_nil : encode ([] : List (Record α k)) = [] := rfl

@[simp] theorem encode_cons (r : Record α k) (rs : List (Record α k)) :
    encode (r :: rs) = r.val ++ encode rs := rfl

@[simp] theorem encode_append (rs ss : List (Record α k)) :
    encode (rs ++ ss) = encode rs ++ encode ss := List.flatMap_append

@[simp] theorem length_encode (rs : List (Record α k)) : (encode rs).length = rs.length * k := by
  induction rs with
  | nil => simp
  | cons r rs ih => rw [encode_cons, List.length_append, ih, r.property, List.length_cons]; ring

theorem take_encode (rs : List (Record α k)) (i : ℕ) :
    (encode rs).take (i * k) = encode (rs.take i) := by
  induction rs generalizing i with
  | nil => simp
  | cons r rs ih =>
    cases i with
    | zero => simp
    | succ i =>
      rw [encode_cons, List.take_succ_cons, encode_cons, ← ih i,
        show (i + 1) * k = r.val.length + i * k by rw [r.property]; ring,
        List.take_length_add_append]

theorem drop_encode (rs : List (Record α k)) (i : ℕ) :
    (encode rs).drop (i * k) = encode (rs.drop i) := by
  induction rs generalizing i with
  | nil => simp
  | cons r rs ih =>
    cases i with
    | zero => simp
    | succ i =>
      rw [encode_cons, List.drop_succ_cons, ← ih i,
        show (i + 1) * k = r.val.length + i * k by rw [r.property]; ring,
        List.drop_length_add_append]

theorem encode_injective (hk : 0 < k) {rs ss : List (Record α k)} (h : encode rs = encode ss) :
    rs = ss := by
  induction rs generalizing ss with
  | nil =>
    cases ss with
    | nil => rfl
    | cons s ss =>
      have := congrArg List.length h
      simp only [encode_nil, encode_cons, List.length_nil, List.length_append, s.property] at this
      omega
  | cons r rs ih =>
    cases ss with
    | nil =>
      have := congrArg List.length h
      simp only [encode_nil, encode_cons, List.length_nil, List.length_append, r.property] at this
      omega
    | cons s ss =>
      obtain ⟨hr, hs⟩ := List.append_inj h (r.property.trans s.property.symm)
      rw [Subtype.ext hr, ih hs]

/-- The bytes of a record put in between two records are that record put in between. -/
theorem encode_insert (rs : List (Record α k)) (i : ℕ) (r : Record α k) :
    (encode rs).take (i * k) ++ r.val ++ (encode rs).drop (i * k) =
      encode (rs.take i ++ r :: rs.drop i) := by
  rw [take_encode, drop_encode, encode_append, encode_cons, List.append_assoc]

theorem encode_erase (rs : List (Record α k)) (i : ℕ) :
    (encode rs).take (i * k) ++ (encode rs).drop (i * k + k) = encode (rs.eraseIdx i) := by
  rw [show i * k + k = (i + 1) * k by ring, take_encode, drop_encode, List.eraseIdx_eq_take_drop_succ,
    encode_append]

theorem writeAt_encode [Zero α] {rs : List (Record α k)} {i : ℕ} (hi : i < rs.length)
    (r : Record α k) : writeAt (encode rs) (i * k) r.val = encode (rs.set i r) := by
  have hle : i * k ≤ (encode rs).length := by
    rw [length_encode]
    exact Nat.mul_le_mul_right k hi.le
  rw [writeAt_of_le hle, r.property, show i * k + k = (i + 1) * k by ring, take_encode,
    drop_encode, List.set_eq_take_append_cons_drop, if_pos hi, encode_append, encode_cons,
    List.append_assoc]

theorem readAt_encode (rs : List (Record α k)) {i : ℕ} (hi : i < rs.length) :
    readAt (encode rs) (i * k) k = rs[i].val := by
  rw [readAt, drop_encode, List.drop_eq_getElem_cons hi, encode_cons]
  exact List.take_left' rs[i].property

/-- Records that are written over the start of a file are read back from there. -/
theorem window_writeAt_encode [Zero α] (rs : List (Record α k)) (old : List α) {i : ℕ}
    (hi : i < rs.length) : window (writeAt old 0 (encode rs)) (i * k) k = rs[i].val := by
  have hfit : i * k + k ≤ (encode rs).length := by
    rw [length_encode, ← Nat.succ_mul]
    exact Nat.mul_le_mul_right k hi
  have hwritten := window_writeAt hfit old 0
  rw [Nat.zero_add] at hwritten
  exact hwritten.trans (readAt_encode rs hi)

def addRange : ℕ → List α → List α → List α
  | _, [], l => l
  | p, r :: rs, l => addRange (p + 1) rs (l.take p ++ r :: l.drop p)

/-- Each removal moves the records behind it one place down, so the next position skips one. -/
def delRange : ℕ → ℕ → List α → Option (List α)
  | _, 0, l => some l
  | p, j + 1, l => if p < l.length then delRange (p + 1) j (l.eraseIdx p) else none

theorem addRange_eq {p : ℕ} {rs l : List α} (hp : p ≤ l.length) :
    addRange p rs l = l.take p ++ rs ++ l.drop p := by
  induction rs generalizing p l with
  | nil => simp [addRange]
  | cons r rs ih =>
    have hlen : (l.take p ++ [r]).length = p + 1 := by simp [hp]
    have hsplit : l.take p ++ r :: l.drop p = l.take p ++ [r] ++ l.drop p := by simp
    rw [addRange, ih (by simp; omega), hsplit, List.take_left' hlen, List.drop_left' hlen]
    simp

theorem delRange_sublist {p j : ℕ} {l m : List α} (h : delRange p j l = some m) : m <+ l := by
  induction j generalizing p l with
  | zero => rw [delRange] at h; cases h; exact List.Sublist.refl _
  | succ j ih =>
    rw [delRange] at h
    split at h
    · exact (ih h).trans (List.eraseIdx_sublist _ _)
    · cases h

theorem delRange_erase {p j : ℕ} {l m : List α} (h : delRange p (j + 1) l = some m) :
    m <+ l.eraseIdx p := by
  rw [delRange] at h
  split at h
  · exact delRange_sublist h
  · cases h

theorem delRange_length {p j : ℕ} {l m : List α} (h : delRange p j l = some m) :
    m.length + j = l.length := by
  induction j generalizing p l with
  | zero => rw [delRange] at h; cases h; rfl
  | succ j ih =>
    rw [delRange] at h
    split at h
    · rename_i hp
      have hm := ih h
      rw [List.length_eraseIdx_of_lt hp] at hm
      omega
    · cases h

theorem delRange_take {p j : ℕ} {l m : List α} (h : delRange p j l = some m) :
    m.take p = l.take p := by
  induction j generalizing p l with
  | zero => rw [delRange] at h; cases h; rfl
  | succ j ih =>
    rw [delRange] at h
    split at h
    · have hm := congrArg (List.take p) (ih h)
      rw [List.take_take, List.take_take, Nat.min_eq_left (Nat.le_succ p)] at hm
      rw [hm, List.eraseIdx_eq_take_drop_succ]
      exact List.take_left' (by simp; omega)
    · cases h

/-- Half the removals exhaust the records behind the first position. -/
theorem delRange_eq_none {p j : ℕ} {l : List α} (h : l.length ≤ p + 2 * j) :
    delRange p (j + 1) l = none := by
  induction j generalizing p l with
  | zero => rw [delRange, if_neg (by omega)]
  | succ j ih =>
    rw [delRange]
    split
    · rename_i hp
      exact ih (by rw [List.length_eraseIdx_of_lt hp]; omega)
    · rfl

theorem delRange_one {p : ℕ} {l : List α} (hp : p < l.length) :
    delRange p 1 l = some (l.eraseIdx p) := by
  rw [delRange, if_pos hp, delRange]

end RecordFile
