import VendorMediatek.Faults
import VendorMediatek.HexStrings
import VendorMediatek.RilDispatch

/-!
# SMS that arrive as hexadecimal strings

convertHexStringToBytes, newSmsInd and newSmsStatusReportInd of ril_service.cpp, as MTK_HARDWARE
builds them. The decoder writes each byte twice, into the two halves of its buffer.
-/

namespace RilSmsPdus

open CStrings Faults HexStrings
open RilDispatch (Abi)

def invalidHexChar : UInt8 := 16

def hexCharToInt (c : UInt8) : UInt8 :=
  if 48 ≤ c ∧ c ≤ 57 then c - 48
  else if 65 ≤ c ∧ c ≤ 70 then c - 65 + 10
  else if 97 ≤ c ∧ c ≤ 102 then c - 97 + 10
  else invalidHexChar

/-- hexString[i]; behind the characters comes the terminator. -/
def charAt (hexString : CString) (i : ℕ) : Checked UInt8 := read (hexString ++ [0]) i

/-- The turns of the loop that are left, from index i on; none when NULL is returned. -/
def convertLoop (hexString : CString) (responseLen : ℕ) :
    ℕ → ℕ → List UInt8 → Checked (Option (List UInt8))
  | 0, _, bytes => return some bytes
  | turns + 1, i, bytes => do
    let hexChar1 := hexCharToInt (← charAt hexString i)
    let hexChar2 := hexCharToInt (← charAt hexString (i + 1))
    if hexChar1 = invalidHexChar ∨ hexChar2 = invalidHexChar then return none
    else do
      let bytes ← put bytes (i / 2) (hexChar1 <<< 4 ||| hexChar2)
      let bytes ← put bytes ((responseLen + i) / 2) (hexChar1 <<< 4 ||| hexChar2)
      convertLoop hexString responseLen turns (i + 2) bytes

/-- calloc tells for a size whether there is memory. -/
def convertHexStringToBytes (calloc : ℕ → Bool) (hexString : CString) (responseLen : ℕ) :
    Checked (Option (List UInt8)) :=
  if responseLen % 2 ≠ 0 then return none
  else if calloc responseLen = false then return none
  else convertLoop hexString responseLen (responseLen / 2) 0 (List.replicate responseLen 0)

/-- The first elements of a buffer; a negative size is a size_t beyond it. -/
def setToExternal (bytes : List UInt8) (size : ℤ) : Checked (List UInt8) :=
  if 0 ≤ size ∧ size ≤ bytes.length then return bytes.take size.toNat else .error .outside

/-- The pdu that goes to the client, for a response that is NULL or a string. -/
def deliverPdu (abi : Abi) (calloc : ℕ → Bool) (client : Bool) (response : Option CString)
    (responseLen : ℕ) : Checked (Option (List UInt8)) :=
  if client = false then return none
  else match response with
    | none => return none
    | some st =>
      if responseLen = 0 then return none
      else do
        let pduLen := toInt st.length
        let size := (pduLen % 2 ^ (8 * abi.pointer)).toNat
        match ← convertHexStringToBytes calloc st size with
        | none => return none
        | some bytes => return some (← setToExternal bytes (pduLen.tdiv 2))

def newSmsInd (abi : Abi) (calloc : ℕ → Bool) (client : Bool) (response : Option CString)
    (responseLen : ℕ) : Checked (Option (List UInt8)) :=
  deliverPdu abi calloc client response responseLen

def newSmsStatusReportInd (abi : Abi) (calloc : ℕ → Bool) (client : Bool)
    (response : Option CString) (responseLen : ℕ) : Checked (Option (List UInt8)) :=
  deliverPdu abi calloc client response responseLen

/-! ## Digits -/

/-- The value of a digit, and otherwise the mark, which no digit has. -/
theorem hexCharToInt_eq : ∀ c,
    hexCharToInt c = if IsHexDigit c then UInt8.ofNat (digitValue c) else invalidHexChar :=
  forall_byte (by decide +kernel)

theorem hexCharToInt_eq_invalid_iff : ∀ c, hexCharToInt c = invalidHexChar ↔ ¬ IsHexDigit c :=
  forall_byte (by decide +kernel)

theorem combine_digits {high low : UInt8} (hhigh : IsHexDigit high) (hlow : IsHexDigit low) :
    hexCharToInt high <<< 4 ||| hexCharToInt low =
      UInt8.ofNat (16 * digitValue high + digitValue low) := by
  have hall : ∀ x y : Fin 16, UInt8.ofNat x <<< 4 ||| UInt8.ofNat y = UInt8.ofNat (16 * x + y) := by
    decide +kernel
  rw [hexCharToInt_eq, hexCharToInt_eq, if_pos hhigh, if_pos hlow]
  exact hall ⟨_, hhigh⟩ ⟨_, hlow⟩

/-! ## The loop -/

theorem charAt_append {pre s : CString} {c : UInt8} {i : ℕ} (hi : pre.length = i) :
    charAt (pre ++ c :: s) i = .ok c := by
  rw [charAt, read_eq_ok, List.append_assoc, List.getElem?_append_right (by omega), hi,
    Nat.sub_self]
  rfl

/-- The buffer when some bytes are decoded: they stand at the start of either half. -/
def halves (done : List UInt8) (n : ℕ) : List UInt8 :=
  (done ++ List.replicate n 0) ++ (done ++ List.replicate n 0)

theorem set_half (done : List UInt8) (n : ℕ) (b : UInt8) :
    (done ++ List.replicate (n + 1) 0).set done.length b =
      (done ++ [b]) ++ List.replicate n 0 := by
  rw [List.set_append_right _ _ (Nat.le_refl _), Nat.sub_self, List.replicate_succ,
    List.set_cons_zero, List.append_assoc]
  rfl

theorem put_halves (done : List UInt8) (n : ℕ) (b : UInt8) :
    ∃ bytes, put (halves done (n + 1)) done.length b = .ok bytes ∧
      put bytes (done.length + (n + 1) + done.length) b = .ok (halves (done ++ [b]) n) := by
  have hlen : (done ++ List.replicate (n + 1) (0 : UInt8)).length = done.length + (n + 1) := by
    rw [List.length_append, List.length_replicate]
  refine ⟨(done ++ [b] ++ List.replicate n 0) ++ (done ++ List.replicate (n + 1) 0), ?_, ?_⟩
  · rw [put, if_pos (by rw [halves, List.length_append, hlen]; omega), halves,
      List.set_append_left _ _ (by rw [hlen]; omega), set_half]
  · have hfirst : (done ++ [b] ++ List.replicate n (0 : UInt8)).length = done.length + (n + 1) := by
      rw [List.length_append, List.length_append, List.length_replicate, List.length_singleton]
      omega
    rw [put, if_pos (by rw [List.length_append, hfirst, hlen]; omega),
      List.set_append_right _ _ (by rw [hfirst]; omega), hfirst, Nat.add_sub_cancel_left, set_half,
      halves]

/-- One turn: two digits go into either half, anything else ends the loop. -/
theorem convertLoop_turn {hexString : CString} {responseLen turns i : ℕ} {bytes : List UInt8}
    {high low : UInt8} (hhigh : charAt hexString i = .ok high)
    (hlow : charAt hexString (i + 1) = .ok low) :
    convertLoop hexString responseLen (turns + 1) i bytes =
      if IsHexDigit high ∧ IsHexDigit low then do
        let b := UInt8.ofNat (16 * digitValue high + digitValue low)
        let bytes ← put bytes (i / 2) b
        let bytes ← put bytes ((responseLen + i) / 2) b
        convertLoop hexString responseLen turns (i + 2) bytes
      else .ok none := by
  have hmark := (hexCharToInt_eq_invalid_iff high).or (hexCharToInt_eq_invalid_iff low)
  rw [← not_and_or] at hmark
  rw [convertLoop, bind_of_ok hhigh, bind_of_ok hlow]
  by_cases hdigits : IsHexDigit high ∧ IsHexDigit low
  · dsimp only
    rw [if_neg fun hinvalid => hmark.mp hinvalid hdigits, if_pos hdigits,
      combine_digits hdigits.1 hdigits.2]
  · dsimp only
    rw [if_pos (hmark.mpr hdigits), if_neg hdigits]
    rfl

theorem charAt_pair (high low : UInt8) (s : CString) {pre : CString} {i : ℕ}
    (hi : pre.length = i) :
    charAt (pre ++ high :: low :: s) i = .ok high ∧
      charAt (pre ++ high :: low :: s) (i + 1) = .ok low := by
  refine ⟨charAt_append hi, ?_⟩
  rw [List.append_cons]
  exact charAt_append (by rw [List.length_append, hi]; rfl)

/-- A pair of digits brings the loop from one state of the halves to the next. -/
theorem convertLoop_pair {pre s : CString} {done : List UInt8} {n turns : ℕ} {high low : UInt8}
    (hpre : pre.length = 2 * done.length) (hdigits : IsHexDigit high ∧ IsHexDigit low) :
    let more := done ++ [UInt8.ofNat (16 * digitValue high + digitValue low)]
    convertLoop (pre ++ high :: low :: s) (2 * (done.length + (n + 1))) (turns + 1)
        (2 * done.length) (halves done (n + 1)) =
      convertLoop (pre ++ [high, low] ++ s) (2 * (more.length + n)) turns (2 * more.length)
        (halves more n) := by
  intro more
  obtain ⟨hhigh, hlow⟩ := charAt_pair high low s hpre
  have hlen : more.length = done.length + 1 := List.length_append
  have hfirst : 2 * done.length / 2 = done.length := by omega
  have hsecond : (2 * (done.length + (n + 1)) + 2 * done.length) / 2 =
      done.length + (n + 1) + done.length := by omega
  obtain ⟨bytes, hput, hagain⟩ :=
    put_halves done n (UInt8.ofNat (16 * digitValue high + digitValue low))
  have hpair : pre ++ high :: low :: s = pre ++ [high, low] ++ s := by
    rw [List.append_assoc]
    rfl
  have htotal : 2 * (done.length + (n + 1)) = 2 * (more.length + n) := by omega
  have hnext : 2 * done.length + 2 = 2 * more.length := by omega
  rw [convertLoop_turn hhigh hlow, if_pos hdigits]
  dsimp only
  rw [hfirst, hsecond, bind_of_ok hput, bind_of_ok hagain, hpair, htotal, hnext]

/-- The loop decodes what is left of the string, where there are as many turns as pairs. -/
theorem convertLoop_eq {pre rest : CString} {done : List UInt8} {n : ℕ}
    (hpre : pre.length = 2 * done.length) (hrest : rest.length = 2 * n) :
    convertLoop (pre ++ rest) (2 * (done.length + n)) n (2 * done.length) (halves done n) =
      .ok ((hexBytes rest).map fun bytes => halves (done ++ bytes) 0) := by
  induction n generalizing pre rest done with
  | zero =>
    obtain rfl : rest = [] := List.length_eq_zero_iff.mp hrest
    rw [convertLoop, hexBytes, Option.map_some, List.append_nil]
    rfl
  | succ n ih =>
    obtain ⟨high, low, s, rfl⟩ : ∃ high low s, rest = high :: low :: s := by
      rcases rest with _ | ⟨high, _ | ⟨low, s⟩⟩
      · simp at hrest
      · simp only [List.length_cons, List.length_nil] at hrest
        omega
      · exact ⟨high, low, s, rfl⟩
    rw [List.length_cons, List.length_cons] at hrest
    by_cases hdigits : IsHexDigit high ∧ IsHexDigit low
    · rw [convertLoop_pair hpre hdigits, ih ?_ (by omega), hexBytes, if_pos hdigits,
        Option.map_map]
      · simp only [List.append_assoc]
        rfl
      · rw [List.length_append, List.length_append, hpre, Nat.mul_add]
        rfl
    · obtain ⟨hhigh, hlow⟩ := charAt_pair high low s hpre
      rw [convertLoop_turn hhigh hlow, hexBytes, if_neg hdigits, if_neg hdigits]
      rfl

/-! ## The indications -/

theorem hexBytes_of_odd {st : CString} (h : st.length % 2 ≠ 0) : hexBytes st = none := by
  by_contra hne
  exact h ((hexBytes_ne_none_iff st).mp hne).1

theorem convertHexStringToBytes_eq (calloc : ℕ → Bool) (st : CString) :
    convertHexStringToBytes calloc st st.length =
      .ok (if calloc st.length = true then (hexBytes st).map fun bytes => bytes ++ bytes
        else none) := by
  rw [convertHexStringToBytes]
  by_cases hodd : st.length % 2 = 0
  · rw [if_neg (not_not.mpr hodd)]
    cases calloc st.length with
    | false => rfl
    | true =>
      have hpairs : st.length = 2 * (st.length / 2) := by omega
      have hstart : ([] : CString).length = 2 * ([] : List UInt8).length := rfl
      have hloop := convertLoop_eq hstart hpairs
      have hbuffer : halves [] (st.length / 2) = List.replicate st.length 0 := by
        rw [halves, List.nil_append, List.replicate_append_replicate]
        congr 1
        omega
      rw [List.length_nil, Nat.mul_zero, Nat.zero_add, ← hpairs, hbuffer] at hloop
      refine hloop.trans ?_
      simp only [halves, List.nil_append, List.replicate_zero, List.append_nil, if_true]
  · rw [if_pos hodd, hexBytes_of_odd hodd, Option.map_none, ite_self]
    rfl

theorem size_of_length (abi : Abi) {n : ℕ} (hlen : n < 2 ^ 31) :
    ((n : ℤ) % 2 ^ (8 * abi.pointer)).toNat = n := by
  have hbound : 2 ^ 31 < 2 ^ (8 * abi.pointer) := by cases abi <;> decide
  have hlt : (n : ℤ) < 2 ^ (8 * abi.pointer) := by exact_mod_cast hlen.trans hbound
  rw [Int.emod_eq_of_lt (Int.natCast_nonneg n) hlt, Int.toNat_natCast]

theorem setToExternal_half (bytes : List UInt8) :
    setToExternal (bytes ++ bytes) (((2 * bytes.length : ℕ) : ℤ).tdiv 2) = .ok bytes := by
  have hdiv : ((2 * bytes.length : ℕ) : ℤ).tdiv 2 = bytes.length := by
    rw [Int.natCast_mul]
    exact Int.mul_tdiv_cancel_left _ (by decide)
  have hbuffer : (bytes ++ bytes).length = bytes.length + bytes.length := List.length_append
  rw [setToExternal, hdiv, if_pos (by omega), Int.toNat_natCast, List.take_left']
  · rfl
  · rfl

/-- For a string whose length an int holds, the client gets the decoded bytes if there are any, and
no access leaves a buffer. -/
theorem deliverPdu_eq (abi : Abi) (calloc : ℕ → Bool) (st : CString) (responseLen : ℕ)
    (hlen : st.length < 2 ^ 31) :
    deliverPdu abi calloc true (some st) responseLen =
      .ok (if responseLen ≠ 0 ∧ calloc st.length = true then hexBytes st else none) := by
  have hint : toInt st.length = st.length := (toInt_natCast_eq_iff _).mpr hlen
  simp only [deliverPdu, Bool.true_eq_false, if_false, hint, size_of_length abi hlen]
  by_cases hresponse : responseLen = 0
  · rw [if_pos hresponse, if_neg fun h => h.1 hresponse]
    rfl
  · rw [if_neg hresponse, bind_of_ok (convertHexStringToBytes_eq calloc st)]
    rcases hcalloc : calloc st.length with _ | _
    · rw [if_neg Bool.false_ne_true, if_neg fun h => Bool.false_ne_true h.2]
      rfl
    · rw [if_pos rfl, if_pos ⟨hresponse, rfl⟩]
      rcases hbytes : hexBytes st with _ | bytes
      · rfl
      · have hhalf := setToExternal_half bytes
        rw [← hexBytes_length hbytes] at hhalf
        rw [Option.map_some]
        dsimp only
        rw [bind_of_ok hhalf]
        rfl

/-- Both indications bring the bytes of the string exactly where it has bytes, whatever is encoded
in either case comes back, and no access leaves a buffer. -/
theorem newSms_delivers (abi : Abi) (calloc : ℕ → Bool) (client : Bool) (st : CString)
    (responseLen : ℕ) (hlen : st.length < 2 ^ 31) :
    newSmsInd abi calloc client (some st) responseLen =
        .ok (if client = true ∧ responseLen ≠ 0 ∧ calloc st.length = true then hexBytes st
          else none) ∧
      newSmsStatusReportInd abi calloc client (some st) responseLen =
        .ok (if client = true ∧ responseLen ≠ 0 ∧ calloc st.length = true then hexBytes st
          else none) ∧
      (hexBytes st ≠ none ↔ st.length % 2 = 0 ∧ ∀ c ∈ st, IsHexDigit c) ∧
      ∀ upper bytes, st = hexString upper bytes → hexBytes st = some bytes := by
  have hpdu : deliverPdu abi calloc client (some st) responseLen =
      .ok (if client = true ∧ responseLen ≠ 0 ∧ calloc st.length = true then hexBytes st
        else none) := by
    cases client with
    | false =>
      rw [if_neg fun h => Bool.false_ne_true h.1]
      rfl
    | true =>
      rw [deliverPdu_eq abi calloc st responseLen hlen]
      simp only [true_and]
  refine ⟨hpdu, hpdu, hexBytes_ne_none_iff st, ?_⟩
  rintro upper bytes rfl
  exact hexBytes_hexString upper bytes

/-- "5a0F" on a 64-bit phone. -/
theorem newSms_delivers_letters :
    newSmsInd .lp64 (fun _ => true) true (some [53, 97, 48, 70]) 4 = .ok (some [90, 15]) := by
  have h := (newSms_delivers .lp64 (fun _ => true) true [53, 97, 48, 70] 4 (by decide)).1
  rw [if_pos ⟨rfl, by decide, rfl⟩] at h
  exact h

/-- "00" is lost when there is no memory for it, and 2^31 zeros are lost although there would be:
their number is negative as an int, and as a size_t more than any memory. -/
theorem zeros_lost :
    hexBytes [48, 48] ≠ none ∧
      newSmsInd .lp64 (fun _ => false) true (some [48, 48]) 2 = .ok none ∧
      hexBytes (List.replicate (2 ^ 31) 48) ≠ none ∧
      newSmsInd .lp64 (fun size => decide (size < 2 ^ 62)) true
        (some (List.replicate (2 ^ 31) 48)) 2 = .ok none := by
  refine ⟨by decide, by decide, ?_, ?_⟩
  · rw [hexBytes_ne_none_iff, List.length_replicate]
    refine ⟨by decide, fun c hc => ?_⟩
    obtain ⟨-, rfl⟩ := List.mem_replicate.mp hc
    decide
  · generalize hst : List.replicate (2 ^ 31) (48 : UInt8) = st
    have hlen : st.length = 2 ^ 31 := by rw [← hst, List.length_replicate]
    have hsize : (toInt ((2 ^ 31 : ℕ) : ℤ) % 2 ^ (8 * Abi.lp64.pointer)).toNat =
        2 ^ 64 - 2 ^ 31 := by decide +kernel
    simp only [newSmsInd, deliverPdu, Bool.true_eq_false, if_false, hlen, hsize,
      convertHexStringToBytes]
    rfl

end RilSmsPdus
