import Mathlib.Data.List.Basic
import Mathlib.Algebra.Order.Ring.Int
import Mathlib.Algebra.BigOperators.Group.List.Basic

/-!
# Tilings of an interval

Windows of the integers, in order, that follow each other without a gap or an overlap. An empty
window may stand anywhere.
-/

namespace Tilings

/-- The integers from start on. -/
structure Window where
  start : ℤ
  len : ℤ
  deriving DecidableEq, Repr

def Window.Contains (w : Window) (x : ℤ) : Prop := w.start ≤ x ∧ x < w.start + w.len

instance (w : Window) (x : ℤ) : Decidable (w.Contains x) := inferInstanceAs (Decidable (_ ∧ _))

/-- From a position on every window begins where the one before it ends. -/
def Tiles : ℤ → List Window → Prop
  | _, [] => True
  | pos, w :: ws => (w.len = 0 ∨ w.start = pos) ∧ Tiles (pos + w.len) ws

instance decidableTiles : ∀ pos ws, Decidable (Tiles pos ws)
  | _, [] => inferInstanceAs (Decidable True)
  | pos, w :: ws =>
    have := decidableTiles (pos + w.len) ws
    inferInstanceAs (Decidable (_ ∧ _))

def total (ws : List Window) : ℤ := (ws.map Window.len).sum

@[simp] theorem total_nil : total [] = 0 := rfl

@[simp] theorem total_cons (w : Window) (ws : List Window) : total (w :: ws) = w.len + total ws :=
  List.sum_cons

@[simp] theorem tiles_nil (pos : ℤ) : Tiles pos [] := trivial

@[simp] theorem tiles_cons (pos : ℤ) (w : Window) (ws : List Window) :
    Tiles pos (w :: ws) ↔ (w.len = 0 ∨ w.start = pos) ∧ Tiles (pos + w.len) ws := Iff.rfl

theorem tiles_append (pos : ℤ) (ws ws' : List Window) :
    Tiles pos (ws ++ ws') ↔ Tiles pos ws ∧ Tiles (pos + total ws) ws' := by
  induction ws generalizing pos with
  | nil => simp
  | cons w ws ih => rw [List.cons_append, tiles_cons, tiles_cons, ih, total_cons, and_assoc,
      add_assoc]

theorem total_nonneg {ws : List Window} (h : ∀ w ∈ ws, 0 ≤ w.len) : 0 ≤ total ws := by
  induction ws with
  | nil => exact le_rfl
  | cons w ws ih =>
    rw [total_cons]
    exact add_nonneg (h w List.mem_cons_self) (ih fun w' hw => h w' (List.mem_cons_of_mem _ hw))

/-- Every integer of the tiled interval lies in exactly one window, and no other in any. -/
theorem Tiles.countP_contains {pos : ℤ} {ws : List Window} (h : Tiles pos ws)
    (hlen : ∀ w ∈ ws, 0 ≤ w.len) (x : ℤ) :
    ws.countP (fun w => w.Contains x) = if pos ≤ x ∧ x < pos + total ws then 1 else 0 := by
  induction ws generalizing pos with
  | nil =>
    rw [total_nil, if_neg (by omega)]
    rfl
  | cons w ws ih =>
    have hnonneg := hlen w List.mem_cons_self
    have htail := total_nonneg fun w' hw => hlen w' (List.mem_cons_of_mem _ hw)
    rw [List.countP_cons, ih h.2 fun w' hw => hlen w' (List.mem_cons_of_mem _ hw), total_cons]
    have hcontains : w.Contains x ↔ pos ≤ x ∧ x < pos + w.len := by
      unfold Window.Contains
      rcases h.1 with hempty | hstart
      · omega
      · rw [hstart]
    simp only [hcontains, decide_eq_true_eq]
    split_ifs <;> omega

end Tilings
