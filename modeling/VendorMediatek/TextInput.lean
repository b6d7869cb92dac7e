import VendorMediatek.DecimalStrings

/-!
# Text read from streams

The operator >> for unsigned integers, and getline, on a stream that a text is read from. Once the
stream is not good, by its end or by a failure, >> leaves its argument as it is; a failure that the
text itself causes stores 0, or the last value of the type.
-/

namespace TextInput

open CStrings DecimalStrings

structure IStream where
  rest : CString
  good : Bool
  deriving DecidableEq, Repr

/-- A stream that has just been opened on a text. -/
def IStream.ofText (text : CString) : IStream := ⟨text, true⟩

def isDigit (c : UInt8) : Bool := digitValue c < 10

/-- The sign in front of a number, and what comes after it. -/
def sign : CString → Bool × CString
  | 45 :: s => (true, s)
  | 43 :: s => (false, s)
  | s => (false, s)

/-- The characters of the number are taken off the stream also when it does not fit. -/
def numGet {w : ℕ} (s : CString) : IStream × BitVec w :=
  let (negative, s) := sign s
  let text := s.takeWhile isDigit
  let rest := s.dropWhile isDigit
  if text = [] then (⟨rest, false⟩, 0)
  else if 2 ^ w ≤ digits 10 0 text then (⟨rest, false⟩, BitVec.allOnes w)
  else
    let value := BitVec.ofNat w (digits 10 0 text)
    (⟨rest, rest ≠ []⟩, if negative then -value else value)

/-- stream >> x -/
def IStream.extract {w : ℕ} (stream : IStream) (x : BitVec w) : IStream × BitVec w :=
  if stream.good then
    match stream.rest.dropWhile isSpace with
    | [] => (⟨[], false⟩, x)
    | c :: s => numGet (c :: s)
  else (stream, x)

/-- The lines that getline gives one after the other: a newline at the end starts none. -/
def lines : CString → List CString
  | [] => []
  | c :: s =>
    if c = 10 then [] :: lines s
    else
      match lines s with
      | [] => [[c]]
      | line :: rest => (c :: line) :: rest

/-! ## Decimal numbers -/

/-- A text that a number cannot go on with. -/
def EndsNumber (s : CString) : Prop := ∀ c ∈ s.head?, isDigit c = false

theorem takeWhile_decimal (n : ℕ) {s : CString} (hs : EndsNumber s) :
    (decimal n ++ s).takeWhile isDigit = decimal n ∧ (decimal n ++ s).dropWhile isDigit = s := by
  have hdigits : ∀ c ∈ decimal n, isDigit c = true := fun c hc =>
    decide_eq_true ((decimal_isDecimal n).2 c hc)
  have hstop : s.takeWhile isDigit = [] ∧ s.dropWhile isDigit = s := by
    cases s with
    | nil => exact ⟨rfl, rfl⟩
    | cons c s =>
      have hc : isDigit c = false := hs c rfl
      exact ⟨List.takeWhile_cons_of_neg (by simp [hc]), List.dropWhile_cons_of_neg (by simp [hc])⟩
  constructor
  · rw [List.takeWhile_append_of_pos hdigits, hstop.1, List.append_nil]
  · rw [List.dropWhile_append_of_pos hdigits, hstop.2]

theorem sign_decimal (n : ℕ) (s : CString) : sign (decimal n ++ s) = (false, decimal n ++ s) := by
  rcases decimal_isDecimal n with ⟨hne, hdigits⟩
  obtain ⟨c, t, ht⟩ := List.exists_cons_of_ne_nil hne
  rw [ht] at hdigits ⊢
  rcases ne_of_digit c (hdigits c List.mem_cons_self) with ⟨-, hminus, hplus, -⟩
  unfold sign
  split
  · next h => exact absurd (List.cons.inj h).1 hminus
  · next h => exact absurd (List.cons.inj h).1 hplus
  · rfl

/-- What >> makes of a decimal number: the number, or the last value if it does not fit. -/
theorem extract_decimal {w : ℕ} (n : ℕ) {s : CString} (hs : EndsNumber s) (x : BitVec w) :
    ((IStream.ofText (decimal n ++ s)).extract x).2.toNat = min n (2 ^ w - 1) := by
  rcases decimal_isDecimal n with ⟨hne, hdigits⟩
  obtain ⟨c, t, ht⟩ := List.exists_cons_of_ne_nil hne
  have hspace : (decimal n ++ s).dropWhile isSpace = c :: (t ++ s) := by
    rw [ht] at hdigits ⊢
    have hc := (ne_of_digit c (hdigits c List.mem_cons_self)).1
    exact List.dropWhile_cons_of_neg (by simp [hc])
  have hnum : ((IStream.ofText (decimal n ++ s)).extract x).2 = (numGet (decimal n ++ s)).2 := by
    simp only [IStream.extract, IStream.ofText, if_true, hspace]
    rw [ht]
    rfl
  rcases takeWhile_decimal n hs with ⟨htake, hdrop⟩
  rw [hnum, numGet, sign_decimal]
  simp only [htake, hdrop, if_neg hne, digits_decimal, Bool.false_eq_true, if_false]
  split_ifs with hlarge
  · rw [min_eq_right (by omega)]
    exact BitVec.toNat_allOnes
  · have hfits : n % 2 ^ w = n := Nat.mod_eq_of_lt (by omega)
    rw [min_eq_left (by omega)]
    exact (BitVec.toNat_ofNat n w).trans hfits

end TextInput
