import VendorMediatek.CStrings
import VendorMediatek.Faults
import VendorMediatek.RilDispatch

/-!
# The data of an answer or an indication

What the vendor library passes to the functions of ril_service.cpp: a pointer and a length in bytes.
Most functions take it as an array of strings, some as an array of ints.
-/

namespace RilPayloads

open CStrings Faults
open RilDispatch (Abi HidlString)

/-- The strings and the ints that lie within responseLen bytes at response, unless response is NULL.
A string pointer may be NULL. -/
structure Payload (abi : Abi) where
  isNull : Bool
  responseLen : ℕ
  strings : List (Option CString)
  ints : List ℤ
  strings_length : strings.length = responseLen / abi.pointer
  ints_length : ints.length = responseLen / 4

variable {abi : Abi} (p : Payload abi)

/-- int numStrings = responseLen / sizeof(char *) -/
def Payload.numStrings : ℤ := toInt (p.responseLen / abi.pointer : ℕ)

/-- int numInts = responseLen / sizeof(int) -/
def Payload.numInts : ℤ := toInt (p.responseLen / 4 : ℕ)

/-- The pointer resp[i]. -/
def Payload.string (i : ℕ) : Checked (Option CString) :=
  if p.isNull then .error .null else read p.strings i

/-- The characters behind resp[i]. -/
def Payload.chars (i : ℕ) : Checked CString := do
  let s ← p.string i
  deref s

def Payload.int (i : ℕ) : Checked ℤ :=
  if p.isNull then .error .null else read p.ints i

/-! ## What a read needs -/

@[simp] theorem ok_string {i : ℕ} :
    Ok (p.string i) ↔ p.isNull = false ∧ i < p.strings.length := by
  unfold Payload.string
  cases h : p.isNull with
  | true => simp
  | false => simp

@[simp] theorem ok_int {i : ℕ} : Ok (p.int i) ↔ p.isNull = false ∧ i < p.ints.length := by
  unfold Payload.int
  cases h : p.isNull with
  | true => simp
  | false => simp

theorem string_eq_ok {i : ℕ} {s : Option CString} :
    p.string i = .ok s ↔ p.isNull = false ∧ p.strings[i]? = some s := by
  unfold Payload.string
  cases h : p.isNull with
  | true => simp
  | false => simp [read_eq_ok]

/-- The string is there and not NULL. -/
def Payload.Has (i : ℕ) : Prop := ∃ s, p.strings[i]? = some (some s)

@[simp] theorem ok_chars {i : ℕ} : Ok (p.chars i) ↔ p.isNull = false ∧ p.Has i := by
  unfold Payload.chars Payload.Has
  rw [ok_bind]
  simp only [string_eq_ok, ok_deref, Option.ne_none_iff_exists']
  constructor
  · rintro ⟨_, ⟨hnull, hs⟩, s, rfl⟩
    exact ⟨hnull, s, hs⟩
  · rintro ⟨hnull, s, hs⟩
    exact ⟨some s, ⟨hnull, hs⟩, s, rfl⟩

theorem string_within {i : ℕ} (h : (i : ℤ) < p.numStrings) : i < p.strings.length := by
  have hle := toInt_natCast_le (p.responseLen / abi.pointer)
  rw [← p.strings_length] at hle
  rw [Payload.numStrings, ← p.strings_length] at h
  omega

theorem int_within {i : ℕ} (h : (i : ℤ) < p.numInts) : i < p.ints.length := by
  have hle := toInt_natCast_le (p.responseLen / 4)
  rw [← p.ints_length] at hle
  rw [Payload.numInts, ← p.ints_length] at h
  omega

end RilPayloads
