import Mathlib.Data.Nat.Digits.Lemmas
import VendorMediatek.HexStrings

/-!
# Decimal strings

What printf writes for an int, and what atoi reads from it.
-/

namespace DecimalStrings

open CStrings HexStrings

def decimal (n : ℕ) : CString :=
  if n = 0 then [48] else ((Nat.digits 10 n).map (digitChar false)).reverse

/-- The conversion %d. -/
def printInt (x : ℤ) : CString :=
  if x < 0 then 45 :: decimal x.natAbs else decimal x.natAbs

def IsDecimal (s : CString) : Prop := s ≠ [] ∧ ∀ c ∈ s, digitValue c < 10

theorem decimal_isDecimal (n : ℕ) : IsDecimal (decimal n) := by
  unfold decimal
  split_ifs with h
  · exact ⟨List.cons_ne_nil _ _, List.forall_mem_singleton.mpr (by decide)⟩
  constructor
  · intro hnil
    rw [List.reverse_eq_nil_iff, List.map_eq_nil_iff, Nat.digits_eq_nil_iff_eq_zero] at hnil
    exact h hnil
  · intro c hc
    rw [List.mem_reverse, List.mem_map] at hc
    rcases hc with ⟨d, hd, rfl⟩
    have hlt := Nat.digits_lt_base (b := 10) (by decide) hd
    rwa [digitValue_digitChar false (by omega)]

/-! ## The value -/

theorem digits_append {s : CString} (hs : ∀ c ∈ s, digitValue c < 10) (n : ℕ) (t : CString) :
    digits 10 n (s ++ t) = digits 10 (digits 10 n s) t := by
  induction s generalizing n with
  | nil => rfl
  | cons c s ih =>
    rcases List.forall_mem_cons.mp hs with ⟨hc, hs⟩
    rw [List.cons_append, digits, if_pos hc, digits, if_pos hc, ih hs]

theorem digits_reverse {l : List ℕ} (hl : ∀ d ∈ l, d < 10) :
    digits 10 0 (l.map (digitChar false)).reverse = Nat.ofDigits 10 l := by
  induction l with
  | nil => rfl
  | cons d l ih =>
    rcases List.forall_mem_cons.mp hl with ⟨hd, hl⟩
    have hchars : ∀ c ∈ (l.map (digitChar false)).reverse, digitValue c < 10 := by
      intro c hc
      rw [List.mem_reverse, List.mem_map] at hc
      rcases hc with ⟨e, he, rfl⟩
      have hlt := hl e he
      rwa [digitValue_digitChar false (by omega)]
    have hvalue : digitValue (digitChar false d) = d := digitValue_digitChar false (by omega)
    rw [List.map_cons, List.reverse_cons, digits_append hchars, ih hl, digits, hvalue, if_pos hd,
      Nat.ofDigits_cons, Nat.add_comm]
    rfl

theorem digits_decimal (n : ℕ) : digits 10 0 (decimal n) = n := by
  unfold decimal
  split_ifs with h
  · rw [h]
    rfl
  · rw [digits_reverse fun d hd => Nat.digits_lt_base (by decide) hd, Nat.ofDigits_digits]

/-- A digit is not white space, no sign and no separator or terminator. -/
theorem ne_of_digit : ∀ c, digitValue c < 10 →
    isSpace c = false ∧ c ≠ 45 ∧ c ≠ 43 ∧ c ≠ 0 ∧ c ≠ 10 ∧ c ≠ 32 :=
  forall_byte (by decide +kernel)

theorem skipHex_decimal (s : CString) : skipHex 10 s = s := by
  unfold skipHex
  split
  · rw [if_neg fun h => absurd h.1 (by decide)]
  · rfl

theorem strtol_printInt {longBits : ℕ} {x : ℤ} (hlow : -2 ^ (longBits - 1) ≤ x)
    (hhigh : x ≤ 2 ^ (longBits - 1) - 1) : strtol longBits 10 (printInt x) = x := by
  rcases decimal_isDecimal x.natAbs with ⟨hne, hdigits⟩
  have hvalue : digits 10 0 (skipHex 10 (decimal x.natAbs)) = x.natAbs := by
    rw [skipHex_decimal, digits_decimal]
  unfold printInt
  split_ifs with hneg
  · have hspace : (45 :: decimal x.natAbs).dropWhile isSpace = 45 :: decimal x.natAbs :=
      List.dropWhile_cons_of_neg (by decide)
    rw [strtol, hspace]
    show max (-((digits 10 0 (skipHex 10 (decimal x.natAbs)) : ℕ) : ℤ)) _ = x
    rw [hvalue, max_eq_left]
    · omega
    · omega
  · obtain ⟨c, s, hs⟩ := List.exists_cons_of_ne_nil hne
    rw [hs] at hdigits hvalue ⊢
    rcases ne_of_digit c (hdigits c List.mem_cons_self) with ⟨hspace, hminus, hplus, -⟩
    rw [strtol, List.dropWhile_cons_of_neg (by rw [hspace]; decide)]
    split
    · next heq => exact absurd (List.cons.inj heq).1 hminus
    · next heq => exact absurd (List.cons.inj heq).1 hplus
    · dsimp only
      rw [hvalue, min_eq_left]
      · omega
      · omega

theorem atoi_printInt {longBits : ℕ} (hlong : 32 ≤ longBits) (x : Int32) :
    Int32.ofInt (atoi longBits (printInt x.toInt)) = x := by
  have hpow : (2 : ℤ) ^ 31 ≤ 2 ^ (longBits - 1) :=
    pow_le_pow_right₀ (by decide) (by omega)
  have hlow := x.le_toInt
  have hhigh := x.toInt_lt
  have hfits : toInt x.toInt = x.toInt := Int.bmod_eq_of_le (by omega) (by omega)
  rw [atoi, strtol_printInt (by omega) (by omega), hfits, Int32.ofInt_toInt]

/-! ## The characters -/

theorem mem_printInt {x : ℤ} {c : UInt8} (h : c ∈ printInt x) : c ≠ 0 ∧ c ≠ 10 ∧ c ≠ 32 := by
  have hdigit : ∀ c ∈ decimal x.natAbs, c ≠ 0 ∧ c ≠ 10 ∧ c ≠ 32 := fun c hc =>
    (ne_of_digit c ((decimal_isDecimal _).2 c hc)).2.2.2
  unfold printInt at h
  split_ifs at h
  · rcases List.mem_cons.mp h with rfl | h
    · decide
    · exact hdigit c h
  · exact hdigit c h

theorem decimal_length_le {n : ℕ} (h : n < 10 ^ 10) : (decimal n).length ≤ 10 := by
  unfold decimal
  split_ifs
  · decide
  · rw [List.length_reverse, List.length_map]
    exact (Nat.digits_length_le_iff (by decide) n).mpr h

theorem printInt_length_le (x : Int32) : (printInt x.toInt).length ≤ 11 := by
  have hlow := x.le_toInt
  have hhigh := x.toInt_lt
  have hlen := decimal_length_le (n := x.toInt.natAbs) (by omega)
  unfold printInt
  split_ifs
  · exact Nat.succ_le_succ hlen
  · exact Nat.le_succ_of_le hlen

end DecimalStrings
