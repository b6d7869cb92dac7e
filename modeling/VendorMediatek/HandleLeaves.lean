import Mathlib.Data.List.Perm.Basic
import VendorMediatek.Handles

/-!
# What calls leave open

Calls on handles of any kind, as far as what they leave open at their end, in no order.
-/

namespace Handles

universe u

variable {ι : Type u} [DecidableEq ι]

/-- The calls keep the discipline, and these handles and no others are open in the end. -/
def Leaves (es : List (Event ι)) (left : List ι) : Prop :=
  ∃ fds, Ledger.start.run es = some ⟨false, fds⟩ ∧ fds.Perm left

theorem leaves_nil : Leaves ([] : List (Event ι)) [] := ⟨[], rfl, .refl _⟩

theorem Leaves.perm {es : List (Event ι)} {left left' : List ι} (h : Leaves es left)
    (hperm : left.Perm left') : Leaves es left' := by
  obtain ⟨fds, hrun, hfds⟩ := h
  exact ⟨fds, hrun, hfds.trans hperm⟩

theorem Ledger.run_opened (held : Bool) (fds handles : List ι) :
    (⟨held, fds⟩ : Ledger ι).run (handles.map .opened) = some ⟨held, handles.reverse ++ fds⟩ := by
  induction handles generalizing fds with
  | nil => rfl
  | cons fd handles ih =>
    rw [List.map_cons, run_cons, next_opened, Option.bind_some, ih, List.reverse_cons,
      List.append_assoc]
    rfl

theorem Ledger.run_closed (held : Bool) {fds handles rest : List ι}
    (h : fds.Perm (handles ++ rest)) : ∃ fds', fds'.Perm rest ∧
      (⟨held, fds⟩ : Ledger ι).run (handles.map .closed) = some ⟨held, fds'⟩ := by
  induction handles generalizing fds with
  | nil => exact ⟨fds, h, rfl⟩
  | cons fd handles ih =>
    have hmem : fd ∈ fds := h.mem_iff.mpr List.mem_cons_self
    have herase := h.erase fd
    rw [List.cons_append, List.erase_cons_head] at herase
    obtain ⟨fds', hrest, hrun⟩ := ih herase
    refine ⟨fds', hrest, ?_⟩
    rw [List.map_cons, run_cons, next, if_pos hmem, Option.bind_some, hrun]

theorem Leaves.opened {es : List (Event ι)} {left : List ι} (h : Leaves es left)
    (handles : List ι) : Leaves (es ++ handles.map .opened) (handles ++ left) := by
  obtain ⟨fds, hrun, hfds⟩ := h
  refine ⟨handles.reverse ++ fds, ?_, (List.reverse_perm handles).append hfds⟩
  rw [Ledger.run_append, hrun, Option.bind_some, Ledger.run_opened]

theorem Leaves.closed {es : List (Event ι)} {handles left : List ι}
    (h : Leaves es (handles ++ left)) : Leaves (es ++ handles.map .closed) left := by
  obtain ⟨fds, hrun, hfds⟩ := h
  obtain ⟨fds', hrest, hclosed⟩ := Ledger.run_closed false hfds
  exact ⟨fds', by rw [Ledger.run_append, hrun, Option.bind_some, hclosed], hrest⟩

theorem Leaves.passed {es : List (Event ι)} {left : List ι} (h : Leaves es left) (fd : ι) :
    Leaves (es ++ [.opened fd, .closed fd]) left := by
  have hboth := (Leaves.opened h [fd]).closed
  rw [List.append_assoc] at hboth
  exact hboth

/-- A handle has been opened as often as it is left and has been closed. -/
theorem Leaves.count_opened {es : List (Event ι)} {left : List ι} (h : Leaves es left) (fd : ι) :
    es.count (.opened fd) = left.count fd + es.count (.closed fd) := by
  obtain ⟨fds, hrun, hfds⟩ := h
  have hcount := (Ledger.run_balance hrun).2 fd
  rw [hfds.count_eq] at hcount
  simpa [Ledger.start] using hcount

theorem Leaves.settled_iff_nil {es : List (Event ι)} {left : List ι} (h : Leaves es left) :
    Settled es ↔ left = [] := by
  obtain ⟨fds, hrun, hfds⟩ := h
  unfold Settled
  rw [hrun, Ledger.start, Option.some.injEq, Ledger.mk.injEq]
  constructor
  · rintro ⟨-, rfl⟩
    exact hfds.nil_eq.symm
  · rintro rfl
    exact ⟨rfl, hfds.eq_nil⟩

end Handles
