import Mathlib.Algebra.Group.Nat.Defs
import VendorMediatek.LabelledRuns

/-!
# Ranks along runs

A rank that some steps lower bounds how many of them a run takes, and if one of them is there until
a goal is reached, then they reach it.
-/

namespace LabelledRuns

universe u v

variable {σ : Type u} {ε : Type v} (S : System σ ε)

/-- The counted steps each lower the rank, and the credited ones raise it by k at most. -/
theorem countP_add_rank_le {I : σ → Prop} {Q : σ → ε → Prop} {rank : σ → ℕ}
    {counted credited : ε → Bool} {k : ℕ}
    (step : ∀ s e, I s → S.Enabled s e → Q s e → I (S.next s e))
    (ranked : ∀ s e, I s → S.Enabled s e → Q s e →
      rank (S.next s e) + (if counted e = true then 1 else 0) ≤
        rank s + (if credited e = true then k else 0))
    {s : σ} {es : List ε} (hs : I s) (legal : S.Legal s es) (guarded : S.Along Q s es) :
    es.countP counted + rank (S.run s es) ≤ rank s + k * es.countP credited := by
  induction es generalizing s with
  | nil => simp
  | cons e es ih =>
    have hrest := ih (step s e hs legal.1 guarded.1) legal.2 guarded.2
    have hstep := ranked s e hs legal.1 guarded.1
    have hcredit : k * (if credited e = true then 1 else 0) = if credited e = true then k else 0 := by
      split
      next => exact Nat.mul_one k
      next => exact Nat.mul_zero k
    rw [run_cons, List.countP_cons, List.countP_cons, Nat.mul_add, hcredit]
    omega

theorem countP_add_rank_le_rank {I : σ → Prop} {Q : σ → ε → Prop} {rank : σ → ℕ}
    {counted : ε → Bool}
    (step : ∀ s e, I s → S.Enabled s e → Q s e → I (S.next s e))
    (ranked : ∀ s e, I s → S.Enabled s e → Q s e →
      rank (S.next s e) + (if counted e = true then 1 else 0) ≤ rank s)
    {s : σ} {es : List ε} (hs : I s) (legal : S.Legal s es) (guarded : S.Along Q s es) :
    es.countP counted + rank (S.run s es) ≤ rank s := by
  have hle : es.countP counted + rank (S.run s es) ≤ rank s + 0 * es.countP fun _ => false :=
    countP_add_rank_le S step (fun s e h he hq => ranked s e h he hq) hs legal guarded
  rwa [Nat.zero_mul, Nat.add_zero] at hle

theorem reaches_of_rank {I goal : σ → Prop} {rank : σ → ℕ} {taken : ε → Bool}
    (step : ∀ s e, I s → S.Enabled s e → I (S.next s e))
    (lowers : ∀ s e, I s → S.Enabled s e → taken e = true → rank (S.next s e) < rank s)
    (goesOn : ∀ s, I s → goal s ∨ ∃ e, taken e = true ∧ S.Enabled s e) {s : σ} (hs : I s) :
    ∃ es, S.Legal s es ∧ (∀ e ∈ es, taken e = true) ∧ goal (S.run s es) := by
  induction hn : rank s using Nat.strong_induction_on generalizing s with
  | _ n ih =>
    rcases goesOn s hs with hgoal | ⟨e, ht, he⟩
    · exact ⟨[], trivial, nofun, hgoal⟩
    · have hlt := lowers s e hs he ht
      obtain ⟨es, legal, hes, hend⟩ := ih _ (hn ▸ hlt) (step s e hs he) rfl
      exact ⟨e :: es, ⟨he, legal⟩, List.forall_mem_cons.mpr ⟨ht, hes⟩, hend⟩

end LabelledRuns
