import Mathlib.Data.List.Count

/-!
# A mutex and descriptors

The calls that a program makes on one mutex and on descriptors of any kind. It holds the mutex or
not and has some descriptors open; a call that does not fit this state breaks the discipline.
-/

namespace Handles

universe u

variable {ι : Type u}

inductive Event (ι : Type u) where
  | lock
  | unlock
  | opened (fd : ι)
  | closed (fd : ι)
  deriving DecidableEq, Repr

structure Ledger (ι : Type u) where
  held : Bool
  fds : List ι
  deriving DecidableEq, Repr

variable [DecidableEq ι]

namespace Ledger

def start : Ledger ι := ⟨false, []⟩

/-- A mutex is not locked twice, and only what is held or open is given back. -/
def next (l : Ledger ι) : Event ι → Option (Ledger ι)
  | .lock => if l.held then none else some { l with held := true }
  | .unlock => if l.held then some { l with held := false } else none
  | .opened fd => some { l with fds := fd :: l.fds }
  | .closed fd => if fd ∈ l.fds then some { l with fds := l.fds.erase fd } else none

def run (l : Ledger ι) : List (Event ι) → Option (Ledger ι)
  | [] => some l
  | e :: es => (l.next e).bind fun l' => run l' es

@[simp] theorem run_nil (l : Ledger ι) : l.run [] = some l := rfl

@[simp] theorem run_cons (l : Ledger ι) (e : Event ι) (es : List (Event ι)) :
    l.run (e :: es) = (l.next e).bind fun l' => l'.run es := rfl

@[simp] theorem run_append (l : Ledger ι) (es es' : List (Event ι)) :
    l.run (es ++ es') = (l.run es).bind fun l' => l'.run es' := by
  induction es generalizing l with
  | nil => rfl
  | cons e es ih =>
    rw [List.cons_append, run_cons, run_cons, Option.bind_assoc]
    exact congrArg _ (funext fun l' => ih l')

@[simp] theorem next_lock (fds : List ι) :
    (⟨false, fds⟩ : Ledger ι).next .lock = some ⟨true, fds⟩ := rfl

@[simp] theorem next_unlock (fds : List ι) :
    (⟨true, fds⟩ : Ledger ι).next .unlock = some ⟨false, fds⟩ := rfl

@[simp] theorem next_opened (held : Bool) (fds : List ι) (fd : ι) :
    (⟨held, fds⟩ : Ledger ι).next (.opened fd) = some ⟨held, fd :: fds⟩ := rfl

@[simp] theorem next_closed (held : Bool) (fds : List ι) (fd : ι) :
    (⟨held, fd :: fds⟩ : Ledger ι).next (.closed fd) = some ⟨held, fds⟩ := by
  simp [next]

end Ledger

/-- No call breaks the discipline, and nothing is held or open at the end. -/
def Settled (es : List (Event ι)) : Prop := Ledger.start.run es = some Ledger.start

instance (es : List (Event ι)) : Decidable (Settled es) := inferInstanceAs (Decidable (_ = _))

theorem Settled.append {es es' : List (Event ι)} (h : Settled es) (h' : Settled es') :
    Settled (es ++ es') := by
  unfold Settled at *
  rw [Ledger.run_append, h, Option.bind_some, h']

theorem Ledger.next_counts {l l' : Ledger ι} {e : Event ι} (h : l.next e = some l') :
    l.held.toNat + [e].count .lock = l'.held.toNat + [e].count .unlock ∧
      ∀ fd, l.fds.count fd + [e].count (.opened fd) = l'.fds.count fd + [e].count (.closed fd) := by
  cases e with
  | lock =>
    simp only [next] at h
    split at h
    · cases h
    · rename_i hfree
      cases h
      simp [hfree]
  | unlock =>
    simp only [next] at h
    split at h
    · rename_i hheld
      cases h
      simp [hheld]
    · cases h
  | opened fd =>
    cases h
    refine ⟨by simp, fun fd' => ?_⟩
    by_cases hfd : fd = fd'
    · simp [hfd]
    · simp [hfd]
  | closed fd =>
    simp only [next] at h
    split at h
    · rename_i hopen
      cases h
      refine ⟨by simp, fun fd' => ?_⟩
      by_cases hfd : fd = fd'
      · subst hfd
        have hcount := List.count_pos_iff.mpr hopen
        simp
        omega
      · simp [hfd, List.count_erase_of_ne (Ne.symm hfd)]
    · cases h

/-- What the ledger holds after some calls is what they took and did not give back. -/
theorem Ledger.run_balance {l l' : Ledger ι} {es : List (Event ι)} (h : l.run es = some l') :
    l.held.toNat + es.count .lock = l'.held.toNat + es.count .unlock ∧
      ∀ fd, l.fds.count fd + es.count (.opened fd) = l'.fds.count fd + es.count (.closed fd) := by
  induction es generalizing l with
  | nil =>
    cases h
    exact ⟨rfl, fun _ => rfl⟩
  | cons e es ih =>
    obtain ⟨m, hm, hrest⟩ := Option.bind_eq_some_iff.mp h
    obtain ⟨hlocks, hfds⟩ := ih hrest
    obtain ⟨hlock, hfd⟩ := next_counts hm
    have hcons : ∀ x, ([e] ++ es).count x = [e].count x + es.count x := fun _ =>
      List.count_append
    rw [← List.singleton_append]
    constructor
    · rw [hcons, hcons]
      omega
    · intro fd
      rw [hcons, hcons]
      have := hfds fd
      have := hfd fd
      omega

/-- In settled calls every descriptor is closed as often as it is opened, and the mutex is
unlocked as often as it is locked. -/
theorem Settled.counts {es : List (Event ι)} (h : Settled es) :
    es.count .lock = es.count .unlock ∧ ∀ fd, es.count (.opened fd) = es.count (.closed fd) := by
  have := Ledger.run_balance h
  simpa [Ledger.start] using this

end Handles
