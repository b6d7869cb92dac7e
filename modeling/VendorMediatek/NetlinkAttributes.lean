import Mathlib.Algebra.Group.Nat.Defs
import Mathlib.Data.Int.Notation
import Mathlib.Data.List.Basic

/-!
# Netlink attributes

Attributes lie in memory one behind the other, aligned to 4 bytes, each with its length, which
counts the header, and its type in front of the data. The iterator of libnl goes on as long as the
next attribute is inside what remains.
-/

namespace NetlinkAttributes

abbrev Memory := ℕ → UInt8

def readU16 (m : Memory) (p : ℕ) : ℕ := (m p).toNat + 2 ^ 8 * (m (p + 1)).toNat

def readU32 (m : Memory) (p : ℕ) : ℕ := readU16 m p + 2 ^ 16 * readU16 m (p + 2)

def NLA_HDRLEN : ℕ := 4

def NLA_ALIGN (n : ℕ) : ℕ := (n + 3) / 4 * 4

/-- An attribute: where its data is, the length of the data, and the type. -/
structure Attr where
  data : ℕ
  len : ℕ
  type : ℕ
  deriving DecidableEq, Repr

/-- Reads 4 bytes, whatever the length. -/
def nla_get_u32 (m : Memory) (a : Attr) : ℕ := readU32 m a.data

structure Iterator where
  pos : ℕ
  rem : ℤ
  deriving DecidableEq, Repr

namespace Iterator

def nla_len (m : Memory) (it : Iterator) : ℕ := readU16 m it.pos

/-- nla_ok -/
def HasNext (m : Memory) (it : Iterator) : Prop :=
  NLA_HDRLEN ≤ it.rem ∧ NLA_HDRLEN ≤ it.nla_len m ∧ it.nla_len m ≤ it.rem

instance (m : Memory) (it : Iterator) : Decidable (it.HasNext m) :=
  inferInstanceAs (Decidable (_ ∧ _))

/-- nla_next -/
def next (m : Memory) (it : Iterator) : Iterator :=
  ⟨it.pos + NLA_ALIGN (it.nla_len m), it.rem - NLA_ALIGN (it.nla_len m)⟩

def get (m : Memory) (it : Iterator) : Attr :=
  ⟨it.pos + NLA_HDRLEN, it.nla_len m - NLA_HDRLEN, readU16 m (it.pos + 2)⟩

/-- The first turns of a loop over the attributes. -/
def visit (m : Memory) : ℕ → Iterator → List Attr
  | 0, _ => []
  | turns + 1, it => if it.HasNext m then it.get m :: visit m turns (it.next m) else []

/-- The attributes that a loop goes over. -/
def attributes (m : Memory) (it : Iterator) : List Attr := visit m it.rem.toNat it

theorem le_NLA_ALIGN (n : ℕ) : n ≤ NLA_ALIGN n := by
  unfold NLA_ALIGN
  omega

theorem next_rem_lt {m : Memory} {it : Iterator} (h : it.HasNext m) :
    (it.next m).rem.toNat < it.rem.toNat := by
  obtain ⟨header, length, -⟩ := h
  have align := le_NLA_ALIGN (it.nla_len m)
  have hrem : (it.next m).rem = it.rem - NLA_ALIGN (it.nla_len m) := rfl
  simp only [NLA_HDRLEN] at header length
  omega

theorem visit_eq {m : Memory} {turns : ℕ} {it : Iterator} (h : it.rem.toNat ≤ turns) :
    visit m turns it = it.attributes m := by
  have stable : ∀ k l it, it.rem.toNat ≤ k → it.rem.toNat ≤ l → visit m k it = visit m l it := by
    intro k
    induction k with
    | zero =>
      intro l it hk _
      have stop : ¬it.HasNext m := fun hnext => by
        have hlt := next_rem_lt hnext
        omega
      cases l with
      | zero => rfl
      | succ l => exact (if_neg stop).symm
    | succ k ih =>
      intro l it hk hl
      by_cases hnext : it.HasNext m
      · have hlt := next_rem_lt hnext
        cases l with
        | zero => omega
        | succ l =>
          simp only [visit, if_pos hnext]
          exact congrArg (it.get m :: ·) (ih l (it.next m) (by omega) (by omega))
      · cases l with
        | zero => exact if_neg hnext
        | succ l => simp only [visit, if_neg hnext]
  exact stable turns _ it h (Nat.le_refl _)

theorem attributes_of_hasNext {m : Memory} {it : Iterator} (h : it.HasNext m) :
    it.attributes m = it.get m :: (it.next m).attributes m := by
  have hlt := next_rem_lt h
  obtain ⟨turns, hturns⟩ := Nat.exists_eq_succ_of_ne_zero (Nat.ne_of_gt (Nat.zero_lt_of_lt hlt))
  have hvisit : visit m turns (it.next m) = (it.next m).attributes m := visit_eq (by omega)
  simp only [attributes, hturns, visit, if_pos h]
  exact congrArg (it.get m :: ·) hvisit

theorem attributes_of_not_hasNext {m : Memory} {it : Iterator} (h : ¬it.HasNext m) :
    it.attributes m = [] := by
  unfold attributes
  cases it.rem.toNat with
  | zero => rfl
  | succ turns => exact if_neg h

theorem attributes_inside {m : Memory} {it : Iterator} {a : Attr} (h : a ∈ it.attributes m) :
    it.pos ≤ a.data ∧ (a.data + a.len : ℤ) ≤ it.pos + it.rem := by
  induction hn : it.rem.toNat using Nat.strongRecOn generalizing it with
  | ind n ih =>
    by_cases hnext : it.HasNext m
    · rw [attributes_of_hasNext hnext] at h
      have header := hnext.1
      have length := hnext.2
      rcases List.mem_cons.mp h with rfl | h
      · simp only [get, NLA_HDRLEN] at *
        omega
      · have later := ih _ (hn ▸ next_rem_lt hnext) h rfl
        simp only [next] at later
        omega
    · rw [attributes_of_not_hasNext hnext] at h
      exact absurd h List.not_mem_nil

end Iterator

end NetlinkAttributes
