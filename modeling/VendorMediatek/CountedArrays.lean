import Mathlib.Algebra.Group.Nat.Defs
import Mathlib.Data.Nat.Basic

/-!
# Arrays with a count beside them

A struct keeps the number of elements in an integer field and the elements in an array of fixed
length. The field takes the size of a list as its width allows, and a loop copies as many elements
as the field says and the array has room for.
-/

namespace CountedArrays

universe u

structure IntType where
  bits : ℕ
  signed : Bool
  deriving DecidableEq, Repr

/-- A size as an integer field holds it. -/
def IntType.cast (t : IntType) (size : ℕ) : ℤ :=
  if t.signed then Int.bmod size (2 ^ t.bits) else (size : ℤ) % (2 ^ t.bits : ℕ)

/-- The sizes whose field is no more than a bound: from half of the range on a signed one is
negative. -/
def IntType.Fits (t : IntType) (size bound : ℕ) : Prop :=
  size % 2 ^ t.bits ≤ bound ∨ t.signed = true ∧ 2 ^ (t.bits - 1) ≤ size % 2 ^ t.bits

instance (t : IntType) (size bound : ℕ) : Decidable (t.Fits size bound) :=
  inferInstanceAs (Decidable (_ ∨ _))

theorem half_two_pow (bits : ℕ) : (2 ^ bits + 1) / 2 = 2 ^ (bits - 1) := by
  cases bits with
  | zero => rfl
  | succ bits =>
    rw [Nat.pow_succ, Nat.add_sub_cancel]
    omega

/-- A signed field has the residues from half of the range on as negative numbers. -/
theorem cast_eq (t : IntType) (size : ℕ) :
    t.cast size = if t.signed = true ∧ 2 ^ (t.bits - 1) ≤ size % 2 ^ t.bits
      then ((size % 2 ^ t.bits : ℕ) : ℤ) - (2 ^ t.bits : ℕ) else ((size % 2 ^ t.bits : ℕ) : ℤ) := by
  have hmod : (size : ℤ) % (2 ^ t.bits : ℕ) = (size % 2 ^ t.bits : ℕ) := (Int.natCast_emod ..).symm
  have hhalf := half_two_pow t.bits
  have hlt : size % 2 ^ t.bits < 2 ^ t.bits := Nat.mod_lt _ (Nat.two_pow_pos _)
  rw [IntType.cast]
  rcases hs : t.signed with _ | _
  · simp only [Bool.false_eq_true, if_false, false_and]
    exact hmod
  · simp only [if_true, true_and]
    split_ifs with hlarge
    · rw [Int.bmod_neg _ _ (by omega), hmod]
    · rw [Int.bmod_eq_emod_of_lt (by omega), hmod]

theorem cast_le_iff (t : IntType) (size bound : ℕ) : t.cast size ≤ bound ↔ t.Fits size bound := by
  have hlt : size % 2 ^ t.bits < 2 ^ t.bits := Nat.mod_lt _ (Nat.two_pow_pos _)
  rw [cast_eq, IntType.Fits]
  split_ifs with hneg
  · exact iff_of_true (by omega) (.inr hneg)
  · rw [Int.ofNat_le]
    exact ⟨.inl, fun h => h.resolve_right hneg⟩

theorem cast_le_size (t : IntType) (size : ℕ) : t.cast size ≤ size :=
  (cast_le_iff t size size).mpr (.inl (Nat.mod_le _ _))

variable {α : Type u} {n : ℕ}

/-- array[i] = list[i] for i below the limit; none where there is no such element. -/
def copyLoop (list : List α) (array : Vector α n) : ℕ → Option (Vector α n)
  | 0 => some array
  | i + 1 => do
    let array ← copyLoop list array i
    let value ← list[i]?
    if h : i < n then some (array.set i value) else none

theorem copyLoop_eq (list : List α) (array : Vector α n) (limit : ℕ) (hlist : limit ≤ list.length)
    (hn : limit ≤ n) :
    ∃ copied, copyLoop list array limit = some copied ∧
      copied.toList = list.take limit ++ array.toList.drop limit := by
  induction limit with
  | zero => exact ⟨array, rfl, rfl⟩
  | succ i ih =>
    obtain ⟨copied, hcopied, hcells⟩ := ih (by omega) (by omega)
    have hi : i < list.length := by omega
    have hlength : (list.take i).length = i := List.length_take_of_le (by omega)
    refine ⟨copied.set i list[i] (by omega), ?_, ?_⟩
    · rw [copyLoop, hcopied]
      simp only [Option.bind_eq_bind, Option.bind_some, List.getElem?_eq_getElem hi]
      rw [dif_pos (show i < n by omega)]
    · rw [Vector.toList_set, hcells, List.set_append_right _ _ (by omega), hlength, Nat.sub_self,
        List.drop_eq_getElem_cons (by rw [Vector.length_toList]; omega), List.set_cons_zero,
        List.take_add_one, List.getElem?_eq_getElem hi, List.append_assoc]
      rfl

/-- The count and the array behind it, filled from a list. -/
def fill (t : IntType) (list : List α) (array : Vector α n) : Option (ℤ × Vector α n) := do
  let count := t.cast list.length
  let limit : ℤ := min count n
  let array ← copyLoop list array limit.toNat
  return (count, array)

/-- A reader of as many elements as the count says stays in the array and reads the first ones of
the list. -/
structure Counted (count : ℤ) (array : Vector α n) (list : List α) : Prop where
  within : count ≤ n
  elements : array.toList.take count.toNat = list.take count.toNat

theorem fill_toList (t : IntType) (list : List α) (array : Vector α n) :
    ∃ copied, fill t list array = some (t.cast list.length, copied) ∧
      copied.toList = list.take (min (t.cast list.length) (n : ℤ)).toNat ++
        array.toList.drop (min (t.cast list.length) (n : ℤ)).toNat := by
  have hsize := cast_le_size t list.length
  obtain ⟨copied, hcopied, hlist⟩ := copyLoop_eq list array
    (min (t.cast list.length) (n : ℤ)).toNat (by omega) (by omega)
  refine ⟨copied, ?_, hlist⟩
  rw [fill, hcopied]
  rfl

theorem fill_eq (t : IntType) (list : List α) (array : Vector α n) :
    ∃ copied, fill t list array = some (t.cast list.length, copied) ∧
      (Counted (t.cast list.length) copied list ↔ t.Fits list.length n) := by
  have hsize := cast_le_size t list.length
  obtain ⟨copied, hcopied, hlist⟩ := fill_toList t list array
  refine ⟨copied, hcopied, ?_⟩
  rw [← cast_le_iff]
  refine ⟨Counted.within, fun within => ⟨within, ?_⟩⟩
  rw [hlist, Int.min_eq_left within]
  exact List.take_left' (List.length_take_of_le (by omega))

/-! ## A reader that cuts the count to the array -/

/-- The first elements of an array as a list; a negative size is an unsigned one beyond any
array. -/
def setToExternal (array : Vector α n) (size : ℤ) : Option (List α) :=
  if 0 ≤ size ∧ size ≤ n then some (array.toList.take size.toNat) else none

/-- The elements that the count says, but no more than the array has. -/
def clamped (count : ℤ) (array : Vector α n) : Option (List α) :=
  setToExternal array (min count n)

/-- The sizes that an integer field tells apart below a bound: the field is not negative, and it
has the size itself or something from the bound on, as the size then is too. -/
def IntType.Keeps (t : IntType) (size bound : ℕ) : Prop :=
  (t.signed = true → size % 2 ^ t.bits < 2 ^ (t.bits - 1)) ∧
    (size < 2 ^ t.bits ∨ bound ≤ size % 2 ^ t.bits)

instance (t : IntType) (size bound : ℕ) : Decidable (t.Keeps size bound) :=
  inferInstanceAs (Decidable (_ ∧ _))

theorem cast_nonneg_iff (t : IntType) (size : ℕ) :
    0 ≤ t.cast size ↔ (t.signed = true → size % 2 ^ t.bits < 2 ^ (t.bits - 1)) := by
  have hlt : size % 2 ^ t.bits < 2 ^ t.bits := Nat.mod_lt _ (Nat.two_pow_pos _)
  rw [cast_eq]
  split_ifs with hneg
  · exact iff_of_false (by omega) (fun h => absurd (h hneg.1) (by omega))
  · refine iff_of_true (Int.natCast_nonneg _) (fun hs => ?_)
    exact not_le.mp fun hlarge => hneg ⟨hs, hlarge⟩

theorem min_cast_eq_iff (t : IntType) (size bound : ℕ) :
    0 ≤ t.cast size ∧ min (t.cast size) (bound : ℤ) = (min size bound : ℕ) ↔
      t.Keeps size bound := by
  rw [IntType.Keeps, ← cast_nonneg_iff]
  refine and_congr_right fun hnonneg => ?_
  have hcast : t.cast size = (size % 2 ^ t.bits : ℕ) := by
    rw [cast_eq]
    refine if_neg fun hneg => ?_
    exact absurd ((cast_nonneg_iff t size).mp hnonneg hneg.1) (by omega)
  have hle := Nat.mod_le size (2 ^ t.bits)
  have hsmall : size < 2 ^ t.bits ↔ size % 2 ^ t.bits = size :=
    ⟨Nat.mod_eq_of_lt, fun h => h ▸ Nat.mod_lt _ (Nat.two_pow_pos _)⟩
  rw [hcast, hsmall]
  omega

/-- What is read back is the list cut to the array, where the count keeps the size apart. -/
theorem clamped_fill (t : IntType) (list : List α) (array : Vector α n) :
    ∃ copied, fill t list array = some (t.cast list.length, copied) ∧
      (clamped (t.cast list.length) copied = some (list.take n) ↔ t.Keeps list.length n) := by
  obtain ⟨copied, hcopied, hlist⟩ := fill_toList t list array
  refine ⟨copied, hcopied, ?_⟩
  have hsize := cast_le_size t list.length
  rw [← min_cast_eq_iff, clamped, setToExternal]
  split_ifs with hwithin
  · rw [hlist, List.take_left' (List.length_take_of_le (by omega)), Option.some_inj]
    constructor
    · intro htake
      have hlength := congrArg List.length htake
      rw [List.length_take, List.length_take] at hlength
      omega
    · rintro ⟨-, hmin⟩
      rw [hmin, Int.toNat_natCast, Nat.min_comm, ← List.take_eq_take_min]
  · refine iff_of_false (by simp) fun hkept => hwithin ?_
    omega

end CountedArrays
