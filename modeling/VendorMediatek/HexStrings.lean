import VendorMediatek.CStrings

/-!
# Hexadecimal strings

Two digits, of either case, make one byte, the higher digit first.
-/

namespace HexStrings

open CStrings

def IsHexDigit (c : UInt8) : Prop := digitValue c < 16

instance (c : UInt8) : Decidable (IsHexDigit c) := inferInstanceAs (Decidable (_ < _))

/-- The bytes of a string; none where it is of odd length or has another character. -/
def hexBytes : CString → Option (List UInt8)
  | [] => some []
  | [_] => none
  | high :: low :: s =>
    if IsHexDigit high ∧ IsHexDigit low then
      (hexBytes s).map (UInt8.ofNat (16 * digitValue high + digitValue low) :: ·)
    else none

/-- The character of a digit below 16. -/
def digitChar (upper : Bool) (d : ℕ) : UInt8 :=
  UInt8.ofNat (if d < 10 then 48 + d else if upper then 55 + d else 87 + d)

def hexString (upper : Bool) : List UInt8 → CString
  | [] => []
  | b :: bytes =>
    digitChar upper (b.toNat / 16) :: digitChar upper (b.toNat % 16) :: hexString upper bytes

theorem digitValue_digitChar (upper : Bool) {d : ℕ} (h : d < 16) :
    digitValue (digitChar upper d) = d := by
  have hall : ∀ (upper : Bool) (d : Fin 16), digitValue (digitChar upper d) = d := by decide
  exact hall upper ⟨d, h⟩

theorem hexBytes_hexString (upper : Bool) (bytes : List UInt8) :
    hexBytes (hexString upper bytes) = some bytes := by
  induction bytes with
  | nil => rfl
  | cons b bytes ih =>
    have hhigh := digitValue_digitChar upper (d := b.toNat / 16) (by have := b.toNat_lt; omega)
    have hlow := digitValue_digitChar upper (d := b.toNat % 16) (Nat.mod_lt _ (by decide))
    have hdigits : IsHexDigit (digitChar upper (b.toNat / 16)) ∧
        IsHexDigit (digitChar upper (b.toNat % 16)) := by
      rw [IsHexDigit, IsHexDigit, hhigh, hlow]
      have := b.toNat_lt
      omega
    rw [hexString, hexBytes, if_pos hdigits, ih, Option.map_some, hhigh, hlow, Nat.div_add_mod,
      UInt8.ofNat_toNat]

theorem hexBytes_ne_none_iff (s : CString) :
    hexBytes s ≠ none ↔ s.length % 2 = 0 ∧ ∀ c ∈ s, IsHexDigit c := by
  fun_induction hexBytes s with
  | case1 => simp
  | case2 c => simp
  | case3 high low s hdigits ih =>
    rw [ne_eq, Option.map_eq_none_iff, ← ne_eq, ih]
    simp only [List.length_cons, List.forall_mem_cons, hdigits.1, hdigits.2, true_and]
    refine and_congr_left fun _ => ?_
    omega
  | case4 high low s hdigits =>
    refine iff_of_false (fun h => h rfl) fun h => hdigits ?_
    exact ⟨h.2 high (by simp), h.2 low (by simp)⟩

theorem hexBytes_length {s : CString} {bytes : List UInt8} (h : hexBytes s = some bytes) :
    s.length = 2 * bytes.length := by
  fun_induction hexBytes s generalizing bytes with
  | case1 =>
    cases h
    rfl
  | case2 c => cases h
  | case3 high low s hdigits ih =>
    obtain ⟨rest, hrest, rfl⟩ := Option.map_eq_some_iff.mp h
    rw [List.length_cons, List.length_cons, List.length_cons, ih hrest]
    omega
  | case4 high low s hdigits => cases h

end HexStrings
