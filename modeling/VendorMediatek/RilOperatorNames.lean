import Mathlib.Data.Nat.Digits.Lemmas
import VendorMediatek.HexStrings
import VendorMediatek.RilStringAnswers

/-!
# The names of an operator

What getOperatorResponse should report for a numeric PLMN, with the names of spn.h, and what it does
report. The table is searched by value.
-/

namespace RilOperatorNames

open CStrings Faults RilPayloads RilStringAnswers
open RilDispatch (Abi)

/-- Five or six decimal digits. -/
def IsPlmn (s : CString) : Prop := (s.length = 5 ∨ s.length = 6) ∧ ∀ c ∈ s, digitValue c < 10

instance (s : CString) : Decidable (IsPlmn s) := @instDecidableAnd _ _ _ (List.decidableBAll _ s)

theorem IsPlmn.exists_cons {s : CString} (h : IsPlmn s) : ∃ c rest, s = c :: rest := by
  rcases s with _ | ⟨c, rest⟩
  · exact absurd h (by decide)
  · exact ⟨c, rest, rfl⟩

theorem IsPlmn.ne_nil {s : CString} (h : IsPlmn s) : s ≠ [] := by
  obtain ⟨c, rest, rfl⟩ := h.exists_cons
  exact List.cons_ne_nil c rest

/-- A PLMN of the table as it is written there. -/
def numeral (row : Spn) : CString :=
  ((Nat.digits 10 row.plmn.toNat).map (HexStrings.digitChar false)).reverse

/-- The name of the first row that is written as plmn is. -/
def tableName (spn : List Spn) (plmn : CString) : Option CString :=
  (spn.find? fun row => numeral row = plmn).map Spn.name

/-- What the three strings are for. -/
structure Reports (spn : List Spn) (plmn : CString) (names : OperatorNames) : Prop where
  numeric : names.numeric = plmn
  longName : names.longName = (tableName spn plmn).getD plmn
  shortName : names.shortName = if names.longName.length ≤ 24 then names.longName else plmn

/-! ## The value of a PLMN -/

/-- The digits of a string, lowest first. -/
def places (s : CString) : List ℕ := (s.map digitValue).reverse

theorem digits_eq_ofDigits {s : CString} (hs : ∀ c ∈ s, digitValue c < 10) (n : ℕ) :
    digits 10 n s = Nat.ofDigits 10 (places s) + 10 ^ s.length * n := by
  induction s generalizing n with
  | nil => simp [digits, places]
  | cons c s ih =>
    obtain ⟨hc, hs⟩ := List.forall_mem_cons.mp hs
    have hplaces : Nat.ofDigits 10 (places (c :: s)) =
        Nat.ofDigits 10 (places s) + 10 ^ s.length * digitValue c := by
      rw [places, List.map_cons, Nat.ofDigits_reverse_cons, List.length_map, places]
    rw [digits, if_pos hc, ih hs, hplaces, List.length_cons, pow_succ]
    ring

theorem places_lt {s : CString} (hs : ∀ c ∈ s, digitValue c < 10) : ∀ d ∈ places s, d < 10 := by
  intro d hd
  obtain ⟨c, hc, rfl⟩ := List.mem_map.mp (List.mem_reverse.mp hd)
  exact hs c hc

theorem plmn_value {plmn : CString} (h : IsPlmn plmn) :
    digits 10 0 plmn = Nat.ofDigits 10 (places plmn) := by
  rw [digits_eq_ofDigits h.2, Nat.mul_zero, Nat.add_zero]

theorem plmn_value_lt {plmn : CString} (h : IsPlmn plmn) : digits 10 0 plmn < 10 ^ 6 := by
  have hlt := Nat.ofDigits_lt_base_pow_length (b := 10) (by decide) (places_lt h.2)
  have hlen : (places plmn).length = plmn.length := by
    rw [places, List.length_reverse, List.length_map]
  rw [plmn_value h]
  refine hlt.trans_le (Nat.pow_le_pow_right (by decide) ?_)
  rw [hlen]
  rcases h.1 with hfive | hsix
  · omega
  · omega

theorem skipHex_ten (s : CString) : skipHex 10 s = s := by
  unfold skipHex
  split
  · rw [if_neg fun h => absurd h.1 (by decide)]
  · rfl

theorem not_space_of_digit : ∀ c, digitValue c < 10 → isSpace c = false ∧ c ≠ 45 ∧ c ≠ 43 :=
  forall_byte (by decide +kernel)

theorem atoi_plmn (abi : Abi) {plmn : CString} (h : IsPlmn plmn) :
    atoi (8 * abi.pointer) plmn = digits 10 0 plmn := by
  have hvalue := plmn_value_lt h
  obtain ⟨c, s, rfl⟩ := h.exists_cons
  obtain ⟨hspace, hminus, hplus⟩ := not_space_of_digit c (h.2 c List.mem_cons_self)
  have hlong : (10 : ℤ) ^ 6 ≤ 2 ^ (8 * abi.pointer - 1) - 1 := by cases abi <;> decide
  have hstrtol : strtol (8 * abi.pointer) 10 (c :: s) = digits 10 0 (c :: s) := by
    rw [strtol, List.dropWhile_cons_of_neg (by rw [hspace]; decide)]
    split
    · next heq => exact absurd (List.cons.inj heq).1 hminus
    · next heq => exact absurd (List.cons.inj heq).1 hplus
    · dsimp only
      rw [skipHex_ten]
      refine min_eq_left (le_trans ?_ hlong)
      exact_mod_cast hvalue.le
  rw [atoi, hstrtol]
  exact (toInt_natCast_eq_iff _).mpr (hvalue.trans (by decide))

/-! ## The search -/

theorem digitChar_digitValue :
    ∀ c, digitValue c < 10 → HexStrings.digitChar false (digitValue c) = c :=
  forall_byte (by decide +kernel)

theorem digitValue_eq_zero_iff : ∀ c, digitValue c = 0 ↔ c = 48 :=
  forall_byte (by decide +kernel)

theorem map_places {s : CString} (hs : ∀ c ∈ s, digitValue c < 10) :
    ((places s).map (HexStrings.digitChar false)).reverse = s := by
  rw [places, List.map_reverse, List.reverse_reverse, List.map_map]
  refine (List.map_congr_left fun c hc => ?_).trans (List.map_id s)
  exact digitChar_digitValue c (hs c hc)

theorem places_numeral (row : Spn) : places (numeral row) = Nat.digits 10 row.plmn.toNat := by
  rw [places, numeral, List.map_reverse, List.reverse_reverse, List.map_map]
  refine (List.map_congr_left fun d hd => ?_).trans (List.map_id _)
  have hlt := Nat.digits_lt_base (b := 10) (by decide) hd
  exact HexStrings.digitValue_digitChar false (by omega)

/-- A row is written as a PLMN is exactly when the values agree and the PLMN does not start with a
zero. -/
theorem numeral_eq_iff {plmn : CString} (h : IsPlmn plmn) (row : Spn) :
    numeral row = plmn ↔ row.plmn = digits 10 0 plmn ∧ plmn.head? ≠ some 48 := by
  obtain ⟨c, s, rfl⟩ := h.exists_cons
  have hplaces : places (c :: s) = places s ++ [digitValue c] := by
    rw [places, List.map_cons, List.reverse_cons, places]
  have hhead : (c :: s).head? ≠ some 48 ↔ digitValue c ≠ 0 := by
    rw [List.head?_cons, ne_eq, Option.some_inj, ne_eq, digitValue_eq_zero_iff]
  rw [plmn_value h, hhead]
  constructor
  · intro heq
    have hdigits : Nat.digits 10 row.plmn.toNat = places s ++ [digitValue c] := by
      rw [← places_numeral, heq, hplaces]
    have hne : row.plmn.toNat ≠ 0 := by
      rw [← Nat.digits_ne_nil_iff_ne_zero (b := 10), hdigits]
      exact List.append_ne_nil_of_right_ne_nil _ (List.cons_ne_nil _ _)
    have hlast := Nat.getLast_digit_ne_zero 10 hne
    simp only [hdigits, List.getLast_append_singleton] at hlast
    refine ⟨?_, hlast⟩
    rw [hplaces, ← hdigits, Nat.ofDigits_digits]
    omega
  · rintro ⟨hvalue, hlast⟩
    have hdigits : Nat.digits 10 (Nat.ofDigits 10 (places (c :: s))) = places (c :: s) := by
      refine Nat.digits_ofDigits 10 (by decide) _ (places_lt h.2) fun _ => ?_
      simpa only [hplaces, List.getLast_append_singleton] using hlast
    rw [numeral, hvalue, Int.toNat_natCast, hdigits, map_places h.2]

/-- Without a zero in front, the search by value is the search for the PLMN. -/
theorem getname_eq_tableName (abi : Abi) (spn : List Spn) {plmn : CString} (h : IsPlmn plmn)
    (hhead : plmn.head? ≠ some 48) :
    getname spn (atoi (8 * abi.pointer) plmn) = tableName spn plmn := by
  rw [getname, tableName, atoi_plmn abi h]
  simp only [numeral_eq_iff h, hhead, not_false_eq_true, ne_eq, and_true]

theorem tableName_of_zero (spn : List Spn) {plmn : CString} (h : IsPlmn plmn)
    (hhead : plmn.head? = some 48) : tableName spn plmn = none := by
  rw [tableName, Option.map_eq_none_iff, List.find?_eq_none]
  intro row _
  rw [decide_eq_true_iff, numeral_eq_iff h]
  exact fun heq => heq.2 hhead

/-! ## The answer -/

/-- What goes to the client: the name found by value, and nothing else. -/
theorem getOperatorResponse_eq {abi : Abi} (spn : List Spn) {p : Payload abi} {plmn : CString}
    (hnull : p.isNull = false) (hcount : p.numStrings ≠ 0)
    (hfirst : p.strings[0]? = some (some plmn)) :
    getOperatorResponse spn true p =
      .ok (some ⟨false, ⟨(getname spn (atoi (8 * abi.pointer) plmn)).getD [], [], []⟩⟩) := by
  have hchars : p.chars 0 = .ok plmn := by
    rw [Payload.chars, bind_of_ok ((string_eq_ok p).mpr ⟨hnull, hfirst⟩)]
    rfl
  rw [getOperatorResponse, if_neg Bool.noConfusion, if_neg ?_, bind_of_ok hchars]
  · rcases getname spn (atoi (8 * abi.pointer) plmn) with _ | name
    · rfl
    · rfl
  · rw [hnull]
    exact fun h => h.elim Bool.noConfusion hcount

theorem longName_correct_iff {abi : Abi} (spn : List Spn) {p : Payload abi} {plmn : CString}
    (hnull : p.isNull = false) (hcount : p.numStrings ≠ 0)
    (hfirst : p.strings[0]? = some (some plmn)) (h : IsPlmn plmn) (hhead : plmn.head? ≠ some 48) :
    ∃ names, getOperatorResponse spn true p = .ok (some ⟨false, names⟩) ∧
      (names.longName = (tableName spn plmn).getD plmn ↔ tableName spn plmn ≠ none) := by
  refine ⟨_, getOperatorResponse_eq spn hnull hcount hfirst, ?_⟩
  rw [getname_eq_tableName abi spn h hhead]
  rcases tableName spn plmn with _ | name
  · refine iff_of_false (fun hempty => ?_) (fun hne => hne rfl)
    rw [Option.getD_none, Option.getD_none] at hempty
    exact h.ne_nil hempty.symm
  · exact iff_of_true rfl (Option.some_ne_none name)

theorem empty_names {abi : Abi} {spn : List Spn} {client : Bool} {p : Payload abi}
    {answer : Answer OperatorNames}
    (h : getOperatorResponse spn client p = .ok (some answer)) :
    answer.value.shortName = [] ∧ answer.value.numeric = [] := by
  rw [getOperatorResponse] at h
  split_ifs at h with hclient hnone
  · cases h
  · cases h
    exact ⟨rfl, rfl⟩
  · obtain ⟨s, -, hanswer⟩ := bind_eq_ok.mp h
    split at hanswer
    · cases hanswer
      exact ⟨rfl, rfl⟩
    · cases hanswer
      exact ⟨rfl, rfl⟩

/-- No answer reports a PLMN as it should, be it the first string of the data or another one. -/
theorem getOperatorResponse_misreports {abi : Abi} (spn : List Spn) (client : Bool)
    (p : Payload abi) (plmn : CString) (hplmn : IsPlmn plmn) :
    ¬ ∃ answer, getOperatorResponse spn client p = .ok (some answer) ∧
      Reports spn plmn answer.value := by
  rintro ⟨answer, hanswer, hreports⟩
  have hnumeric := hreports.numeric
  rw [(empty_names hanswer).2] at hnumeric
  exact hplmn.ne_nil hnumeric.symm

/-- The first row of spn.h. -/
def cosmoteRow : Spn := ⟨20201, literal "GR COSMOTE"⟩

def cosmoteResponse (plmn : String) : Payload .lp64 :=
  ⟨false, 8, [some (literal plmn)], [0, 0], rfl, rfl⟩

theorem getOperatorResponse_misreports_cosmote :
    ¬ ∃ answer,
      getOperatorResponse [cosmoteRow] true (cosmoteResponse "20201") = .ok (some answer) ∧
        Reports [cosmoteRow] (literal "20201") answer.value :=
  getOperatorResponse_misreports [cosmoteRow] true (cosmoteResponse "20201") (literal "20201")
    (by decide)

/-- The long name is found, for 020201 too, and the two other strings are empty. -/
theorem cosmote_without_numeric :
    IsPlmn (literal "20201") ∧ IsPlmn (literal "020201") ∧
      (∀ plmn ∈ ["20201", "020201"],
        getOperatorResponse [cosmoteRow] true (cosmoteResponse plmn) =
          .ok (some ⟨false, ⟨literal "GR COSMOTE", [], []⟩⟩)) ∧
      ¬ Reports [cosmoteRow] (literal "20201") ⟨literal "GR COSMOTE", [], []⟩ := by
  refine ⟨by decide, by decide, by decide, fun h => ?_⟩
  exact absurd h.numeric (by decide)

end RilOperatorNames
