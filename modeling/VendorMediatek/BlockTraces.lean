import Mathlib.Data.List.Basic
import Mathlib.Data.List.Count

/-!
# Traces of heap blocks

What a program does with the blocks of the heap, in order, and what becomes of one of them.
-/

namespace BlockTraces

universe u v

/-- A use is a read or a write. -/
inductive Act where
  | alloc
  | use
  | free
  deriving DecidableEq, Repr

/-- An act on a block, or something else that the program does. -/
inductive Step (β : Type u) (ε : Type v) where
  | act (a : Act) (b : β)
  | event (e : ε)
  deriving DecidableEq, Repr

variable {β : Type u} {ε : Type v} [DecidableEq β]

def Step.on (b : β) : Step β ε → Option Act
  | .act a c => if c = b then some a else none
  | .event _ => none

/-- What a trace does with one block. -/
def acts (b : β) (t : List (Step β ε)) : List Act := t.filterMap (Step.on b)

/-- A block that is allocated is freed exactly once, and it is not used once it has been freed. -/
def SettledActs (l : List Act) : Prop :=
  (.alloc ∈ l → l.count .free = 1) ∧ l.Pairwise fun x y => x = .free → y ≠ .use

instance (l : List Act) : Decidable (SettledActs l) := inferInstanceAs (Decidable (_ ∧ _))

def Settled (t : List (Step β ε)) (b : β) : Prop := SettledActs (acts b t)

instance (t : List (Step β ε)) (b : β) : Decidable (Settled t b) :=
  inferInstanceAs (Decidable (SettledActs _))

@[simp] theorem acts_append (b : β) (t u : List (Step β ε)) :
    acts b (t ++ u) = acts b t ++ acts b u := List.filterMap_append

@[simp] theorem acts_self (b : β) (a : Act) (t : List (Step β ε)) :
    acts b (.act a b :: t) = a :: acts b t := by simp [acts, Step.on]

@[simp] theorem acts_of_ne {b c : β} (h : c ≠ b) (a : Act) (t : List (Step β ε)) :
    acts b (.act a c :: t) = acts b t := by simp [acts, Step.on, h]

/-! ## Uses of a freed block -/

/-- freed tells whether the block has been freed before. -/
def UnusedOnceFreed : Bool → List Act → Prop
  | _, [] => True
  | freed, .alloc :: l => UnusedOnceFreed freed l
  | freed, .use :: l => freed = false ∧ UnusedOnceFreed freed l
  | _, .free :: l => UnusedOnceFreed true l

theorem unusedOnceFreed_true {l : List Act} : UnusedOnceFreed true l ↔ .use ∉ l := by
  induction l with
  | nil => simp [UnusedOnceFreed]
  | cons a l ih => cases a <;> simp [UnusedOnceFreed, ih]

theorem pairwise_iff_unused {l : List Act} :
    l.Pairwise (fun x y => x = .free → y ≠ .use) ↔ UnusedOnceFreed false l := by
  induction l with
  | nil => simp [UnusedOnceFreed]
  | cons a l ih =>
    rw [List.pairwise_cons, ih]
    cases a with
    | alloc => simp [UnusedOnceFreed]
    | use => simp [UnusedOnceFreed]
    | free =>
      rw [UnusedOnceFreed, unusedOnceFreed_true, ← ih]
      refine ⟨fun h huse => h.1 _ huse rfl rfl, fun h => ?_⟩
      refine ⟨fun y hy _ huse => h (huse ▸ hy), List.pairwise_of_forall_mem_list ?_⟩
      rintro x _ y hy _ rfl
      exact h hy

theorem unusedOnceFreed_append {freed : Bool} {l m : List Act} :
    UnusedOnceFreed freed (l ++ m) ↔
      UnusedOnceFreed freed l ∧ UnusedOnceFreed (freed || decide (.free ∈ l)) m := by
  induction l generalizing freed with
  | nil => simp [UnusedOnceFreed]
  | cons a l ih =>
    cases a with
    | alloc => simp [UnusedOnceFreed, ih]
    | use => simp [UnusedOnceFreed, ih, and_assoc]
    | free => simp [UnusedOnceFreed, ih]

end BlockTraces
