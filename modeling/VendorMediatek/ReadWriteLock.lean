import Mathlib.Data.List.Count
import Mathlib.Tactic.Cases

/-!
# Read-write locks

Threads hold a lock for reading, one as often as it likes, or one thread holds it for writing. An
operation that has to wait is not available.
-/

namespace ReadWriteLock

universe u

structure Rwlock (τ : Type u) where
  readers : List τ
  writer : Option τ
  exclusive : writer ≠ none → readers = []

inductive Op where
  | keep | rdlock | wrlock | unlock
  deriving DecidableEq, Repr

namespace Rwlock

variable {τ : Type u} (l : Rwlock τ) (t : τ)

def free : Rwlock τ := ⟨[], none, fun h => absurd rfl h⟩

def rdlock : Rwlock τ :=
  if h : l.writer = none then ⟨t :: l.readers, l.writer, fun h' => absurd h h'⟩ else l

def wrlock : Rwlock τ :=
  if h : l.readers = [] then ⟨l.readers, some t, fun _ => h⟩ else l

theorem writer_rdlock : (l.rdlock t).writer = l.writer := by
  unfold rdlock
  split <;> rfl

theorem writer_wrlock (h : l.readers = []) : (l.wrlock t).writer = some t := by
  rw [wrlock, dif_pos h]

variable [DecidableEq τ]

def unlock : Rwlock τ :=
  if l.writer = some t then ⟨l.readers, none, fun h => absurd rfl h⟩
  else ⟨l.readers.erase t, l.writer, fun h => by rw [l.exclusive h, List.erase_nil]⟩

def Available : Op → Prop
  | .keep => True
  | .rdlock => l.writer = none
  | .wrlock => l.writer = none ∧ l.readers = []
  | .unlock => l.writer = some t ∨ t ∈ l.readers

instance (op : Op) : Decidable (l.Available t op) := by
  cases op <;> simp only [Available] <;> infer_instance

def apply : Op → Rwlock τ
  | .keep => l
  | .rdlock => l.rdlock t
  | .wrlock => l.wrlock t
  | .unlock => l.unlock t

/-- How often a thread holds the lock for reading. -/
def holds : ℕ := l.readers.count t

variable {l t}

theorem holds_pos : 0 < l.holds t ↔ t ∈ l.readers := List.count_pos_iff

theorem holds_of_writer {t' : τ} (h : l.writer = some t') : l.holds t = 0 := by
  have hnone : l.readers = [] := by
    apply l.exclusive
    rw [h]
    exact Option.some_ne_none t'
  rw [holds, hnone, List.count_nil]

theorem holds_rdlock (h : l.Available t .rdlock) (t' : τ) :
    (l.rdlock t).holds t' = l.holds t' + if t = t' then 1 else 0 := by
  have hnone : l.writer = none := h
  simp only [rdlock, hnone, dif_pos, holds, List.count_cons, beq_iff_eq]

theorem holds_wrlock (t' : τ) : (l.wrlock t).holds t' = l.holds t' := by
  unfold wrlock
  split <;> rfl

theorem holds_unlock_writer (h : l.writer = some t) (t' : τ) :
    (l.unlock t).holds t' = l.holds t' := by
  rw [unlock, if_pos h, holds, holds]

theorem writer_unlock_writer (h : l.writer = some t) : (l.unlock t).writer = none := by
  rw [unlock, if_pos h]

theorem holds_unlock (h : l.writer ≠ some t) (ht : t ∈ l.readers) (t' : τ) :
    (l.unlock t).holds t' + (if t = t' then 1 else 0) = l.holds t' := by
  rw [unlock, if_neg h]
  change (l.readers.erase t).count t' + _ = l.readers.count t'
  by_cases heq : t = t'
  · subst heq
    have hpos := List.count_pos_iff.mpr ht
    rw [List.count_erase_self, if_pos rfl]
    omega
  · rw [List.count_erase_of_ne (Ne.symm heq), if_neg heq, Nat.add_zero]

theorem writer_unlock (h : l.writer ≠ some t) : (l.unlock t).writer = l.writer := by
  rw [unlock, if_neg h]

theorem apply_other {t' : τ} {op : Op} (h : l.Available t op) (hne : t ≠ t') :
    (l.apply t op).holds t' = l.holds t' ∧
      ((l.apply t op).writer = some t' ↔ l.writer = some t') := by
  cases op with
  | keep => exact ⟨rfl, Iff.rfl⟩
  | rdlock =>
    refine ⟨?_, iff_of_eq (congrArg (· = some t') (l.writer_rdlock t))⟩
    rw [apply, holds_rdlock h, if_neg hne, Nat.add_zero]
  | wrlock =>
    refine ⟨holds_wrlock t', ?_⟩
    rw [apply, l.writer_wrlock t h.2, h.1]
    constructor
    · intro heq
      exact absurd (Option.some.inj heq) hne
    · rintro ⟨⟩
  | unlock =>
    by_cases hw : l.writer = some t
    · refine ⟨holds_unlock_writer hw t', ?_⟩
      rw [apply, writer_unlock_writer hw, hw]
      constructor
      · rintro ⟨⟩
      · intro heq
        exact absurd (Option.some.inj heq) hne
    · have ht : t ∈ l.readers := h.resolve_left hw
      have hcount := holds_unlock hw ht t'
      rw [if_neg hne, Nat.add_zero] at hcount
      exact ⟨hcount, iff_of_eq (congrArg (· = some t') (writer_unlock hw))⟩

end Rwlock

end ReadWriteLock
