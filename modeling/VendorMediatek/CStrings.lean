import Mathlib.Algebra.Group.Int.Defs
import Mathlib.Algebra.Group.Nat.Defs
import Mathlib.Data.Int.Notation
import Mathlib.Data.List.Basic

/-!
# Numbers in C strings

A C string is the list of its bytes before the terminator. strtol and atoi as bionic has them: white
space, a sign, digits of the base as far as they go; what a long cannot hold becomes its last value.
-/

namespace CStrings

abbrev CString := List UInt8

def literal (s : String) : CString := s.toList.map fun c => c.toNat.toUInt8

theorem forall_byte {P : UInt8 → Prop} (h : ∀ n : Fin 256, P (UInt8.ofNat n)) : ∀ c, P c := by
  intro c
  have hc := h ⟨c.toNat, c.toNat_lt⟩
  rwa [UInt8.ofNat_toNat] at hc

/-- strncmp(s, t, n) == 0 -/
def strncmpEq (s t : CString) (n : ℕ) : Bool := s.take n = t.take n

def isSpace (c : UInt8) : Bool := c = 32 ∨ (9 ≤ c ∧ c ≤ 13)

/-- The value of a digit or letter, either case; 36 for any other byte. -/
def digitValue (c : UInt8) : ℕ :=
  if 48 ≤ c ∧ c ≤ 57 then c.toNat - 48
  else if 97 ≤ c ∧ c ≤ 122 then c.toNat - 87
  else if 65 ≤ c ∧ c ≤ 90 then c.toNat - 55
  else 36

def digits (base : ℕ) (n : ℕ) : CString → ℕ
  | [] => n
  | c :: s => if digitValue c < base then digits base (base * n + digitValue c) s else n

/-- The 0x in front of a hexadecimal number. -/
def skipHex (base : ℕ) : CString → CString
  | 48 :: x :: s => if base = 16 ∧ (x = 120 ∨ x = 88) then s else 48 :: x :: s
  | s => s

def strtol (longBits base : ℕ) (s : CString) : ℤ :=
  let magnitude := fun s : CString => (digits base 0 (skipHex base s) : ℤ)
  match s.dropWhile isSpace with
  | 45 :: s => max (-magnitude s) (-2 ^ (longBits - 1))
  | 43 :: s => min (magnitude s) (2 ^ (longBits - 1) - 1)
  | s => min (magnitude s) (2 ^ (longBits - 1) - 1)

/-- What an int keeps of a value. -/
def toInt (x : ℤ) : ℤ := x.bmod (2 ^ 32)

theorem toInt_natCast_le (n : ℕ) : toInt n ≤ n := by
  have hpow : (2 : ℕ) ^ 32 = 4294967296 := rfl
  rw [toInt, Int.bmod_def, hpow]
  split_ifs <;> omega

theorem toInt_natCast_eq_iff (n : ℕ) : toInt n = n ↔ n < 2 ^ 31 := by
  have hpow : (2 : ℕ) ^ 32 = 4294967296 := rfl
  rw [toInt, Int.bmod_def, hpow]
  split_ifs <;> omega

def atoi (longBits : ℕ) (s : CString) : ℤ := toInt (strtol longBits 10 s)

end CStrings
