import Mathlib.Data.List.Basic

/-!
# Traces of array accesses

A program that may leave early, with the stretches of heap blocks that it touches on the way.
-/

namespace AccessTraces

universe u v

/-- The cells from start on, in a block of a size. -/
structure Access where
  size : ℕ
  start : ℕ
  len : ℕ
  deriving DecidableEq, Repr

def Access.InBounds (a : Access) : Prop := a.start + a.len ≤ a.size

instance (a : Access) : Decidable a.InBounds := inferInstanceAs (Decidable (_ ≤ _))

/-- Without a result the program has left. -/
structure Traced (α : Type u) where
  accesses : List Access
  result : Option α

namespace Traced

variable {α : Type u} {β : Type v}

protected def pure (a : α) : Traced α := ⟨[], some a⟩

/-- The program leaves. -/
def exit : Traced α := ⟨[], none⟩

/-- The program goes on only if the condition holds. -/
def require (p : Prop) [Decidable p] (t : Traced α) : Traced α := if p then t else exit

/-- Touching some cells first. -/
def touch (l : List Access) (t : Traced α) : Traced α := ⟨l ++ t.accesses, t.result⟩

protected def bind (t : Traced α) (f : α → Traced β) : Traced β :=
  match t.result with
  | none => ⟨t.accesses, none⟩
  | some a => ⟨t.accesses ++ (f a).accesses, (f a).result⟩

def InBounds (t : Traced α) : Prop := ∀ a ∈ t.accesses, a.InBounds

@[simp] theorem inBounds_pure (a : α) : (Traced.pure a).InBounds := nofun

@[simp] theorem inBounds_exit : (exit : Traced α).InBounds := nofun

@[simp] theorem inBounds_require (p : Prop) [Decidable p] (t : Traced α) :
    (require p t).InBounds ↔ (p → t.InBounds) := by
  unfold require
  split
  · rename_i hp
    exact ⟨fun h _ => h, fun h => h hp⟩
  · rename_i hp
    exact iff_of_true inBounds_exit fun h => absurd h hp

@[simp] theorem inBounds_touch (l : List Access) (t : Traced α) :
    (touch l t).InBounds ↔ (∀ a ∈ l, a.InBounds) ∧ t.InBounds := List.forall_mem_append

/-- What comes after a part of the program matters only if that part goes on. -/
@[simp] theorem inBounds_bind (t : Traced α) (f : α → Traced β) :
    (t.bind f).InBounds ↔ t.InBounds ∧ ∀ a ∈ t.result, (f a).InBounds := by
  unfold Traced.bind
  cases h : t.result with
  | none => exact ⟨fun ht => ⟨ht, nofun⟩, fun ht => ht.1⟩
  | some a => simp [InBounds, or_imp, forall_and]

theorem result_bind_of_some {t : Traced α} {a : α} (h : t.result = some a) (f : α → Traced β) :
    (t.bind f).result = (f a).result := by
  rw [Traced.bind, h]

theorem inBounds_bind_of_some {t : Traced α} {a : α} (h : t.result = some a)
    (f : α → Traced β) : (t.bind f).InBounds ↔ t.InBounds ∧ (f a).InBounds := by
  rw [inBounds_bind, h]
  simp

@[simp] theorem result_exit : (exit : Traced α).result = none := rfl
@[simp] theorem result_touch (l : List Access) (t : Traced α) : (touch l t).result = t.result := rfl

@[simp] theorem result_require (p : Prop) [Decidable p] (t : Traced α) (a : α) :
    (require p t).result = some a ↔ p ∧ t.result = some a := by
  unfold require
  split <;> simp [*]

@[simp] theorem result_bind (t : Traced α) (f : α → Traced β) (b : β) :
    (t.bind f).result = some b ↔ ∃ a, t.result = some a ∧ (f a).result = some b := by
  unfold Traced.bind
  cases t.result with
  | none => simp
  | some a => simp

end Traced

end AccessTraces
