import Mathlib.Data.List.Infix

/-!
# Runs of a labelled transition system

A system is given by its enabling condition and its next-state function. A run is
the list of its events. `Along` says of a property of steps that every step of a run has it;
"every state reached" is stated over the prefixes of the run.
-/

namespace LabelledRuns

universe u v

structure System (σ : Type u) (ε : Type v) where
  Enabled : σ → ε → Prop
  next : σ → ε → σ

variable {σ : Type u} {ε : Type v} (S : System σ ε)

def System.run (s : σ) (es : List ε) : σ := es.foldl S.next s

def System.Along (Q : σ → ε → Prop) : σ → List ε → Prop
  | _, [] => True
  | s, e :: es => Q s e ∧ System.Along Q (S.next s e) es

/-- A legal run takes only enabled steps. -/
def System.Legal : σ → List ε → Prop := S.Along S.Enabled

instance System.decidableAlong {Q : σ → ε → Prop} [∀ s e, Decidable (Q s e)] :
    ∀ s es, Decidable (S.Along Q s es)
  | _, [] => isTrue trivial
  | s, e :: es =>
    have := System.decidableAlong (Q := Q) (S.next s e) es
    inferInstanceAs (Decidable (Q s e ∧ S.Along Q (S.next s e) es))

instance System.decidableLegal [∀ s e, Decidable (S.Enabled s e)] (s : σ) (es : List ε) :
    Decidable (S.Legal s es) :=
  inferInstanceAs (Decidable (S.Along S.Enabled s es))

@[simp] theorem run_nil (s : σ) : S.run s [] = s := rfl
@[simp] theorem run_cons (s : σ) (e : ε) (es : List ε) :
    S.run s (e :: es) = S.run (S.next s e) es := rfl
@[simp] theorem along_nil (Q : σ → ε → Prop) (s : σ) : S.Along Q s [] := trivial
@[simp] theorem along_cons (Q : σ → ε → Prop) (s : σ) (e : ε) (es : List ε) :
    S.Along Q s (e :: es) ↔ Q s e ∧ S.Along Q (S.next s e) es := Iff.rfl

theorem along_append (Q : σ → ε → Prop) (s : σ) (es fs : List ε) :
    S.Along Q s (es ++ fs) ↔ S.Along Q s es ∧ S.Along Q (S.run s es) fs := by
  induction es generalizing s with
  | nil => simp
  | cons e es ih => simp [ih, and_assoc]

/-- An invariant that a guarded step preserves holds at the end of a guarded run. -/
theorem invariant_run {I : σ → Prop} {Q : σ → ε → Prop}
    (step : ∀ s e, I s → S.Enabled s e → Q s e → I (S.next s e)) {s : σ} {es : List ε}
    (hs : I s) (legal : S.Legal s es) (guarded : S.Along Q s es) : I (S.run s es) := by
  induction es generalizing s with
  | nil => exact hs
  | cons e es ih => exact ih (step s e hs legal.1 guarded.1) legal.2 guarded.2

theorem invariant_legal {I : σ → Prop} (step : ∀ s e, I s → S.Enabled s e → I (S.next s e))
    {s : σ} {es : List ε} (hs : I s) (legal : S.Legal s es) : I (S.run s es) :=
  invariant_run S (Q := S.Enabled) (fun s e h he _ => step s e h he) hs legal legal

/-- What a step has under the invariant every step of a guarded run has. -/
theorem along_of_invariant {I : σ → Prop} {Q R : σ → ε → Prop}
    (step : ∀ s e, I s → S.Enabled s e → Q s e → I (S.next s e)) {s : σ} {es : List ε}
    (hs : I s) (legal : S.Legal s es) (guarded : S.Along Q s es)
    (has : ∀ s e, I s → S.Enabled s e → Q s e → R s e) : S.Along R s es := by
  induction es generalizing s with
  | nil => trivial
  | cons e es ih =>
    exact ⟨has s e hs legal.1 guarded.1,
      ih (step s e hs legal.1 guarded.1) legal.2 guarded.2⟩

/-- If a step has a property exactly when it meets a guard, under an invariant that the guard keeps,
then all the steps of a run have it exactly when all meet the guard. -/
theorem along_iff_guarded {I : σ → Prop} {Q G : σ → ε → Prop}
    (step : ∀ s e, I s → S.Enabled s e → G s e → I (S.next s e))
    (exact : ∀ s e, I s → S.Enabled s e → (Q s e ↔ G s e))
    {s : σ} {es : List ε} (hs : I s) (legal : S.Legal s es) : S.Along Q s es ↔ S.Along G s es := by
  induction es generalizing s with
  | nil => exact Iff.rfl
  | cons e es ih =>
    rw [along_cons, along_cons, exact s e hs legal.1]
    exact and_congr_right fun he => ih (step s e hs legal.1 he) legal.2

theorem along_congr {P Q : σ → ε → Prop} (h : ∀ s e, P s e ↔ Q s e) (s : σ) (es : List ε) :
    S.Along P s es ↔ S.Along Q s es := by
  induction es generalizing s with
  | nil => exact Iff.rfl
  | cons e es ih => exact and_congr (h s e) (ih (S.next s e))

theorem along_and (P Q : σ → ε → Prop) (s : σ) (es : List ε) :
    S.Along (fun s e => P s e ∧ Q s e) s es ↔ S.Along P s es ∧ S.Along Q s es := by
  induction es generalizing s with
  | nil => simp
  | cons e es ih =>
    rw [along_cons, along_cons, along_cons, ih]
    exact and_and_and_comm

theorem along_of_le {Q : σ → ε → Prop} {s : σ} {es pre : List ε} (h : S.Along Q s es)
    (hp : pre <+: es) : S.Along Q s pre := by
  obtain ⟨rest, rfl⟩ := hp
  exact ((along_append S Q s pre rest).mp h).1

/-- A property of the events alone holds along a run if all its events have it. -/
theorem along_events (Q : ε → Prop) (s : σ) (es : List ε) :
    S.Along (fun _ e => Q e) s es ↔ ∀ e ∈ es, Q e := by
  induction es generalizing s with
  | nil => simp
  | cons e es ih => rw [along_cons, ih, List.forall_mem_cons]

/-- "P holds in every state reached" is "P holds now and after every step". -/
theorem always_iff_along (P : σ → Prop) (s : σ) (es : List ε) :
    (∀ pre, pre <+: es → P (S.run s pre)) ↔ P s ∧ S.Along (fun s e => P (S.next s e)) s es := by
  induction es generalizing s with
  | nil => simp
  | cons e es ih =>
    rw [along_cons, ← ih (S.next s e)]
    constructor
    · intro h
      exact ⟨h [] List.nil_prefix, fun pre hp => h (e :: pre) (List.cons_prefix_cons.mpr ⟨rfl, hp⟩)⟩
    · rintro ⟨hs, h⟩ pre hp
      cases pre with
      | nil => exact hs
      | cons d pre =>
        obtain ⟨rfl, ht⟩ := List.cons_prefix_cons.mp hp
        exact h pre ht

/-- If, under an invariant, a step keeps a property exactly when it meets a guard, then a
run keeps the property throughout exactly when all its steps meet the guard. -/
theorem always_iff_guarded {I P : σ → Prop} {G : σ → ε → Prop}
    (inv : ∀ s e, I s → S.Enabled s e → I (S.next s e))
    (exact : ∀ s e, I s → P s → S.Enabled s e → (P (S.next s e) ↔ G s e))
    {s : σ} {es : List ε} (hi : I s) (hp : P s) (legal : S.Legal s es) :
    (∀ pre, pre <+: es → P (S.run s pre)) ↔ S.Along G s es := by
  rw [always_iff_along]
  refine ⟨fun h => ?_, fun h => ⟨hp, ?_⟩⟩
  · have hs := h.2
    clear h
    induction es generalizing s with
    | nil => trivial
    | cons e es ih =>
      exact ⟨(exact s e hi hp legal.1).mp hs.1, ih (inv s e hi legal.1) hs.1 legal.2 hs.2⟩
  · induction es generalizing s with
    | nil => trivial
    | cons e es ih =>
      have hn := (exact s e hi hp legal.1).mpr h.1
      exact ⟨hn, ih (inv s e hi legal.1) hn legal.2 h.2⟩

/-- What is observed in a state is what any other run from the same start leads to: nothing of
the run is left in it. -/
def System.ForgetsRun {α : Type*} (observe : σ → α) (start s : σ) : Prop :=
  ∀ earlier, observe (S.run start earlier) = observe s

theorem forgetsRun_of_const {α : Type*} {observe : σ → α} (h : ∀ s t, observe s = observe t)
    (start s : σ) : S.ForgetsRun observe start s :=
  fun _ => h _ _

/-- Two runs that can be told apart leave no state that forgets them. -/
theorem not_forgetsRun {α : Type*} {observe : σ → α} {start : σ} (es fs : List ε)
    (differ : observe (S.run start es) ≠ observe (S.run start fs)) (s : σ) :
    ¬S.ForgetsRun observe start s :=
  fun h => differ ((h es).trans (h fs).symm)

/-- The system with a history that its steps write and never read. -/
def System.observed {γ : Type*} (observe : σ → γ → ε → γ) : System (σ × γ) ε :=
  ⟨fun t e => S.Enabled t.1 e, fun t e => (S.next t.1 e, observe t.1 t.2 e)⟩

theorem run_observed {γ : Type*} (observe : σ → γ → ε → γ) (t : σ × γ) (es : List ε) :
    ((S.observed observe).run t es).1 = S.run t.1 es := by
  induction es generalizing t with
  | nil => rfl
  | cons e es ih => exact ih _

theorem along_observed_iff {γ : Type*} (observe : σ → γ → ε → γ) (Q : σ → ε → Prop) (t : σ × γ)
    (es : List ε) : (S.observed observe).Along (fun t e => Q t.1 e) t es ↔ S.Along Q t.1 es := by
  induction es generalizing t with
  | nil => exact Iff.rfl
  | cons e es ih => exact and_congr_right fun _ => ih _

theorem legal_observed_iff {γ : Type*} (observe : σ → γ → ε → γ) (t : σ × γ) (es : List ε) :
    (S.observed observe).Legal t es ↔ S.Legal t.1 es :=
  along_observed_iff S observe S.Enabled t es

end LabelledRuns
