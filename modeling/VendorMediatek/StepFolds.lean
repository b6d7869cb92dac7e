import Mathlib.Data.List.Basic
import Mathlib.Logic.Function.Basic

/-!
# Folds that keep differences

A fold whose steps are injective never loses a difference: two runs that differ in one place, or
that start differently, end differently.
-/

namespace StepFolds

universe u v

variable {σ : Type u} {α : Type v} {step : σ → α → σ}

/-- No step forgets the state that it starts from. -/
def KeepsState (step : σ → α → σ) : Prop := ∀ a, Function.Injective fun s => step s a

/-- No step forgets what it reads. -/
def KeepsInput (step : σ → α → σ) : Prop := ∀ s, Function.Injective (step s)

theorem foldl_injective (h : KeepsState step) (l : List α) :
    Function.Injective fun s => l.foldl step s := by
  induction l with
  | nil => exact Function.injective_id
  | cons a l ih =>
    intro s t hst
    exact h a (ih hst)

theorem foldl_set_ne (hs : KeepsState step) (hi : KeepsInput step) {l : List α} {i : ℕ} {a : α}
    (hlt : i < l.length) (hne : l[i] ≠ a) (s : σ) : (l.set i a).foldl step s ≠ l.foldl step s := by
  induction l generalizing i s with
  | nil => cases hlt
  | cons b l ih =>
    cases i with
    | zero =>
      intro heq
      exact hne (hi s (foldl_injective hs l heq)).symm
    | succ i => exact ih (Nat.lt_of_succ_lt_succ hlt) hne (step s b)

end StepFolds
