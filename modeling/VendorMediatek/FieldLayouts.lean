import Mathlib.Algebra.BigOperators.Group.List.Basic
import Mathlib.Algebra.GroupWithZero.Nat
import Mathlib.Data.List.GetD

/-!
# Records in memory

The fields of a record follow each other without gaps. A copy is meant for one field; where all
copies stay inside their fields, a field holds what its own copies put there.
-/

namespace FieldLayouts

universe u v

structure Layout (F : Type u) where
  sizes : List ℕ
  index : F → ℕ
  index_injective : Function.Injective index
  index_lt : ∀ f, index f < sizes.length

/-- Values that are copied to a place in a field. -/
structure Copy (F : Type u) (α : Type v) where
  field : F
  start : ℕ
  data : List α
  deriving DecidableEq, Repr

variable {F : Type u} {α : Type v} (L : Layout F)

def Layout.size (f : F) : ℕ := L.sizes.getD (L.index f) 0

def Layout.offset (f : F) : ℕ := (L.sizes.take (L.index f)).sum

def Copy.InBounds (c : Copy F α) : Prop := c.start + c.data.length ≤ L.size c.field

instance (c : Copy F α) : Decidable (c.InBounds L) := inferInstanceAs (Decidable (_ ≤ _))

def Copy.apply (c : Copy F α) (memory : ℕ → α) : ℕ → α := fun i =>
  let place := L.offset c.field + c.start
  if place ≤ i then c.data.getD (i - place) (memory i) else memory i

/-- The copies are made from the last of the list on. -/
def Layout.run (copies : List (Copy F α)) (memory : ℕ → α) : ℕ → α :=
  copies.foldr (Copy.apply L) memory

/-! ## Fields -/

theorem offset_add_size (f : F) :
    L.offset f + L.size f = (L.sizes.take (L.index f + 1)).sum := by
  have hlt := L.index_lt f
  rw [Layout.offset, Layout.size, List.getD_eq_getElem _ _ hlt, List.sum_take_succ _ _ hlt]

theorem offset_le_of_lt {f g : F} (h : L.index f < L.index g) :
    L.offset f + L.size f ≤ L.offset g := by
  obtain ⟨between, hsizes⟩ := List.take_prefix_take_left (l := L.sizes) h
  rw [offset_add_size, Layout.offset, ← hsizes, List.sum_append]
  exact Nat.le_add_right _ _

theorem offset_apart {f g : F} (h : f ≠ g) :
    L.offset f + L.size f ≤ L.offset g ∨ L.offset g + L.size g ≤ L.offset f := by
  rcases Nat.lt_trichotomy (L.index f) (L.index g) with hlt | heq | hgt
  · exact Or.inl (offset_le_of_lt L hlt)
  · exact absurd (L.index_injective heq) h
  · exact Or.inr (offset_le_of_lt L hgt)

/-! ## Copies -/

section Copies

variable {L} {c : Copy F α}

theorem apply_outside {i : ℕ} (h : i < L.offset c.field + c.start ∨
    L.offset c.field + c.start + c.data.length ≤ i) (memory : ℕ → α) :
    c.apply L memory i = memory i := by
  rcases h with hbefore | hbehind
  · exact if_neg (Nat.not_le.mpr hbefore)
  · have hend : c.data.length ≤ i - (L.offset c.field + c.start) := by omega
    simp only [Copy.apply, List.getD_eq_default _ _ hend, ite_self]

/-- What a copy leaves at a place depends on nothing but what was there. -/
theorem apply_congr {memory memory' : ℕ → α} {i : ℕ} (h : memory i = memory' i) :
    c.apply L memory i = c.apply L memory' i := by
  simp only [Copy.apply, h]

theorem apply_other (hc : c.InBounds L) {f : F} (hf : c.field ≠ f) {i : ℕ} (hi : i < L.size f)
    (memory : ℕ → α) : c.apply L memory (L.offset f + i) = memory (L.offset f + i) := by
  apply apply_outside
  unfold Copy.InBounds at hc
  rcases offset_apart L hf with hbefore | hbehind
  · exact Or.inr (by omega)
  · exact Or.inl (by omega)

theorem run_before {copies : List (Copy F α)} {i : ℕ} (h : ∀ c ∈ copies, i < L.offset c.field)
    (memory : ℕ → α) : L.run copies memory i = memory i := by
  induction copies with
  | nil => rfl
  | cons c copies ih =>
    obtain ⟨hc, hcopies⟩ := List.forall_mem_cons.mp h
    change c.apply L (L.run copies memory) i = _
    rw [apply_outside (Or.inl (by omega)), ih hcopies]

variable [DecidableEq F]

theorem run_field {copies : List (Copy F α)} (h : ∀ c ∈ copies, c.InBounds L) {f : F} {i : ℕ}
    (hi : i < L.size f) (memory : ℕ → α) : L.run copies memory (L.offset f + i) =
      L.run (copies.filter fun c => c.field = f) memory (L.offset f + i) := by
  induction copies with
  | nil => rfl
  | cons c copies ih =>
    obtain ⟨hc, hcopies⟩ := List.forall_mem_cons.mp h
    change c.apply L (L.run copies memory) _ = _
    by_cases hf : c.field = f
    · rw [List.filter_cons_of_pos (by simpa using hf)]
      exact apply_congr (ih hcopies)
    · rw [List.filter_cons_of_neg (by simpa using hf), apply_other hc hf hi]
      exact ih hcopies

end Copies

end FieldLayouts
