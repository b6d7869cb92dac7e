import VendorMediatek.DataFile
import VendorMediatek.StepFolds

/-!
# Check numbers computed with calls that fail

`NVM_ComputeCheckNo`, `NVM_SetCheckNo` and `NVM_CheckFile` with the outcome of every call that
they make. A failed computation is reported by the flag 0xFF, which the callers compare as an int.
-/

namespace CheckNo

open ByteFile Nvram

/-- A plain char as an operand of ==. -/
def promote (signed : Bool) (c : UInt8) : ℤ := if signed then c.toBitVec.toInt else c.toNat

/-- Which calls of NVM_ComputeCheckNo succeed. A read is named by its turn of the loop. -/
structure ComputeCalls where
  stats : Bool
  opens : Bool
  reads : ℕ → Bool

def ComputeCalls.ok : ComputeCalls := ⟨true, true, fun _ => true⟩

/-- The unsigned int that counts the turns: the size_t difference wraps, then is cut to 32 bits. -/
def ilooptimes (isOldFile : Bool) (size : ℕ) : ℕ :=
  if isOldFile then (size + 4294967294) % 4294967296 else size % 4294967296

/-- The loop from turn i on, none when a read fails or the file has ended. -/
def readLoop (reads : ℕ → Bool) (times : ℕ) : ℕ → List UInt8 → UInt8 × Bool → Option UInt8
  | i, [], acc => if i < times then none else some acc.1
  | i, buf :: file, acc =>
    if i < times then
      if reads i then readLoop reads times (i + 1) file (checkStep acc buf) else none
    else some acc.1

/-- The check number and what *pCheckNo_flag holds afterwards, both 0 before the call. -/
def nvmComputeCheckNo (isOldFile : Bool) (calls : ComputeCalls) :
    Option (List UInt8) → UInt8 × UInt8
  | none => (0, 0xFF)
  | some file =>
    if !calls.stats then (0, 0xFF)
    else if !calls.opens then (0, 0xFF)
    else
      match readLoop calls.reads (ilooptimes isOldFile file.length) 0 file (0, false) with
      | none => (0, 0xFF)
      | some cCheckNo => (cCheckNo, 0)

/-- Which calls of NVM_SetCheckNo succeed. -/
structure SetCalls where
  compute : ComputeCalls
  opens : Bool
  seeks : Bool
  writesFlag : Bool
  writesNo : Bool

def SetCalls.ok : SetCalls := ⟨.ok, true, true, true, true⟩

/-- The result and the file afterwards. -/
def nvmSetCheckNo (signed isOldFile : Bool) (calls : SetCalls) (file : Option (List UInt8)) :
    Bool × Option (List UInt8) :=
  let (cCheckNo, cCheckFlag) := nvmComputeCheckNo isOldFile calls.compute file
  if promote signed cCheckFlag = 0xFF then (false, file)
  else
    match file with
    | none => (false, none)
    | some bytes =>
      if !calls.opens then (false, some bytes)
      else if !calls.seeks || (isOldFile && bytes.length < 2) then (false, some bytes)
      else
        let offset := if isOldFile then bytes.length - 2 else bytes.length
        if !calls.writesFlag then (false, some bytes)
        else
          let flagged := writeAt bytes offset [cFlagValue]
          if calls.writesNo then (true, some (writeAt flagged (offset + 1) [cCheckNo]))
          else (false, some flagged)

/-- Which calls of NVM_CheckFile succeed. -/
structure CheckCalls where
  compute : ComputeCalls
  opens : Bool
  seeks : Bool
  reads : Bool

def CheckCalls.ok : CheckCalls := ⟨.ok, true, true, true⟩

def nvmCheckFile (signed : Bool) (calls : CheckCalls) (file : Option (List UInt8)) : Bool :=
  let (cCheckNo, cCheckFlag) := nvmComputeCheckNo true calls.compute file
  if promote signed cCheckFlag = 0xFF then false
  else
    match file with
    | none => false
    | some bytes =>
      if !calls.opens then false
      else if !calls.seeks || bytes.length < 2 then false
      else if !calls.reads then false
      else
        match readAt bytes (bytes.length - 2) 2 with
        | [flag, no] =>
          promote signed flag = promote signed cFlagValue ∧
            promote signed no = promote signed cCheckNo
        | _ => false

/-! ## The sum that the loop computes -/

/-- The check number of a payload. -/
def ck (payload : List UInt8) : UInt8 := (payload.foldl checkStep (0, false)).1

theorem checkStep_keepsState : StepFolds.KeepsState checkStep := by
  rintro buf ⟨a, flag⟩ ⟨b, flag'⟩ h
  cases flag <;> cases flag' <;> simp_all [checkStep]

theorem checkStep_keepsInput : StepFolds.KeepsInput checkStep := by
  rintro ⟨a, flag⟩ buf buf' h
  cases flag <;> simp_all [checkStep]

theorem foldl_checkStep_flag (l : List UInt8) (acc : UInt8 × Bool) :
    (l.foldl checkStep acc).2 = (acc.2 ^^ decide (l.length % 2 = 1)) := by
  induction l generalizing acc with
  | nil => simp
  | cons buf l ih =>
    rw [List.foldl_cons, ih, List.length_cons]
    rcases acc with ⟨a, _ | _⟩ <;> rcases Nat.mod_two_eq_zero_or_one l.length with hm | hm <;>
      simp [checkStep, hm, Nat.add_mod]

theorem ck_set_ne {payload : List UInt8} {i : ℕ} {b : UInt8} (hlt : i < payload.length)
    (hne : payload[i] ≠ b) : ck (payload.set i b) ≠ ck payload := by
  intro heq
  apply StepFolds.foldl_set_ne checkStep_keepsState checkStep_keepsInput hlt hne (0, false)
  refine Prod.ext heq ?_
  rw [foldl_checkStep_flag, foldl_checkStep_flag, List.length_set]

theorem readLoop_ok {reads : ℕ → Bool} {times : ℕ} (hreads : ∀ i < times, reads i = true) (i : ℕ)
    (file : List UInt8) (acc : UInt8 × Bool) :
    readLoop reads times i file acc =
      if times - i ≤ file.length then some ((file.take (times - i)).foldl checkStep acc).1
      else none := by
  induction file generalizing i acc with
  | nil =>
    rw [readLoop, List.take_nil, List.foldl_nil, List.length_nil]
    by_cases hi : i < times
    · rw [if_pos hi, if_neg (by omega)]
    · rw [if_neg hi, if_pos (by omega)]
  | cons buf file ih =>
    rw [readLoop]
    by_cases hi : i < times
    · have hturn : times - i = times - (i + 1) + 1 := by omega
      rw [if_pos hi, if_pos (hreads i hi), ih, hturn, List.take_succ_cons, List.foldl_cons,
        List.length_cons]
      simp only [Nat.add_le_add_iff_right]
    · rw [if_neg hi, Nat.sub_eq_zero_of_le (by omega), List.take_zero, List.foldl_nil,
        if_pos (Nat.zero_le _)]

/-! ## What the three functions do -/

theorem promote_inj {signed : Bool} {a b : UInt8} : promote signed a = promote signed b ↔ a = b := by
  cases signed with
  | false => simp only [promote, Bool.false_eq_true, if_false, Int.natCast_inj, UInt8.toNat_inj]
  | true => simp only [promote, if_true, BitVec.toInt_inj, UInt8.toBitVec_inj]

@[simp] theorem promote_zero (signed : Bool) : promote signed 0 = 0 := by
  cases signed <;> rfl

theorem promote_failed {signed : Bool} : promote signed 0xFF = 0xFF ↔ signed = false := by
  cases signed <;> decide

theorem ilooptimes_old {size : ℕ} (h : 2 ≤ size) :
    ilooptimes true size = (size - 2) % 4294967296 := by
  rw [ilooptimes, if_pos rfl]
  omega

theorem nvmComputeCheckNo_ok (isOldFile : Bool) (file : List UInt8) :
    nvmComputeCheckNo isOldFile .ok (some file) =
      if ilooptimes isOldFile file.length ≤ file.length then
        (ck (file.take (ilooptimes isOldFile file.length)), 0)
      else (0, 0xFF) := by
  have hreads : ∀ i < ilooptimes isOldFile file.length, ComputeCalls.ok.reads i = true :=
    fun _ _ => rfl
  have hloop := readLoop_ok hreads 0 file (0, false)
  rw [Nat.sub_zero] at hloop
  simp only [nvmComputeCheckNo, hloop]
  by_cases hle : ilooptimes isOldFile file.length ≤ file.length
  · simp only [if_pos hle]
    rfl
  · simp only [if_neg hle]
    rfl

theorem nvmCheckFile_iff {signed : Bool} {calls : CheckCalls} {file : List UInt8} :
    nvmCheckFile signed calls (some file) = true ↔
      promote signed (nvmComputeCheckNo true calls.compute (some file)).2 ≠ 0xFF ∧
        calls.opens = true ∧ calls.seeks = true ∧ calls.reads = true ∧ 2 ≤ file.length ∧
          readAt file (file.length - 2) 2 =
            [cFlagValue, (nvmComputeCheckNo true calls.compute (some file)).1] := by
  obtain ⟨compute, opens, seeks, reads⟩ := calls
  simp only [nvmCheckFile]
  by_cases hflag : promote signed (nvmComputeCheckNo true compute (some file)).2 = 0xFF
  · simp [hflag]
  · by_cases hlen : 2 ≤ file.length
    · have hread : (readAt file (file.length - 2) 2).length = 2 := by
        rw [length_readAt]
        omega
      obtain ⟨flag, no, hread⟩ := List.length_eq_two.mp hread
      have hnot : ¬ file.length < 2 := Nat.not_lt.mpr hlen
      simp only [ne_eq, hread, hflag, hlen, hnot, promote_inj]
      cases opens <;> cases seeks <;> cases reads <;> simp
    · have hshort : file.length < 2 := Nat.lt_of_not_le hlen
      simp only [ne_eq, hflag, hlen, hshort]
      cases opens <;> simp

/-! ## Seals -/

/-- What NVM_SetCheckNo writes behind a payload: its loop reads as many bytes as an unsigned int
counts. -/
def trailer (payload : List UInt8) : List UInt8 :=
  [cFlagValue, ck (payload.take (payload.length % 4294967296))]

theorem trailer_of_lt {payload : List UInt8} (h : payload.length < 4294967296) :
    trailer payload = [0xAA, ck payload] := by
  rw [trailer, Nat.mod_eq_of_lt h, List.take_length]
  rfl

/-- Below 4 GiB the trailer is the one that the sizes of the table allow. -/
theorem append_trailer {payload : List UInt8} (h : payload.length < 4294967296) :
    payload ++ trailer payload = sealPayload payload := by
  rw [trailer_of_lt h]
  rfl

theorem nvmComputeCheckNo_new (payload : List UInt8) :
    nvmComputeCheckNo false .ok (some payload) =
      (ck (payload.take (payload.length % 4294967296)), 0) := by
  have htimes : ilooptimes false payload.length = payload.length % 4294967296 := rfl
  rw [nvmComputeCheckNo_ok, htimes, if_pos (Nat.mod_le ..)]

theorem nvmComputeCheckNo_old {payload rest : List UInt8} (h : rest.length = 2) :
    nvmComputeCheckNo true .ok (some (payload ++ rest)) =
      (ck (payload.take (payload.length % 4294967296)), 0) := by
  have hlen : (payload ++ rest).length = payload.length + 2 := by rw [List.length_append, h]
  have hmod : payload.length % 4294967296 ≤ payload.length := Nat.mod_le ..
  rw [nvmComputeCheckNo_ok, hlen, ilooptimes_old (by omega), Nat.add_sub_cancel,
    if_pos (by omega), List.take_append_of_le_length hmod]

theorem nvmSetCheckNo_new (signed : Bool) (payload : List UInt8) :
    nvmSetCheckNo signed false .ok (some payload) = (true, some (payload ++ trailer payload)) := by
  simp only [nvmSetCheckNo, SetCalls.ok, nvmComputeCheckNo_new, promote_zero]
  rw [if_neg (by decide)]
  simp only [Bool.not_true, Bool.false_eq_true, if_false, if_true, Bool.false_and, Bool.or_self]
  rw [show payload.length + 1 = payload.length + [cFlagValue].length from rfl,
    writeAt_behind le_rfl, writeAt_length]
  rfl

theorem nvmSetCheckNo_old (signed : Bool) {payload rest : List UInt8} (h : rest.length = 2) :
    nvmSetCheckNo signed true .ok (some (payload ++ rest)) =
      (true, some (payload ++ trailer payload)) := by
  have hoff : (payload ++ rest).length - 2 = payload.length := by
    rw [List.length_append, h, Nat.add_sub_cancel]
  have hlong : ¬ (payload ++ rest).length < 2 := by
    rw [List.length_append, h]
    omega
  simp only [nvmSetCheckNo, SetCalls.ok, nvmComputeCheckNo_old h, promote_zero]
  rw [if_neg (by decide)]
  simp only [hoff, hlong, Bool.not_true, Bool.false_eq_true, if_false, if_true, decide_false,
    Bool.and_false, Bool.or_self]
  rw [show payload.length + 1 = payload.length + [cFlagValue].length from rfl,
    writeAt_behind (by simp), writeAt_of_le (by simp)]
  simp [trailer, h]

theorem exists_cut {file : List UInt8} (h : 2 ≤ file.length) :
    ∃ payload rest, file = payload ++ rest ∧ rest.length = 2 := by
  refine ⟨file.take (file.length - 2), file.drop (file.length - 2), ?_, ?_⟩
  · rw [List.take_append_drop]
  · rw [List.length_drop]
    omega

theorem length_cut {payload rest : List UInt8} (h : rest.length = 2) :
    (payload ++ rest).length - 2 = payload.length := by
  rw [List.length_append, h, Nat.add_sub_cancel]

/-- A file passes the check just when its last two bytes are the trailer of the rest. -/
theorem nvmCheckFile_ok_iff {signed : Bool} {file : List UInt8} :
    nvmCheckFile signed .ok (some file) = true ↔ ∃ payload, file = payload ++ trailer payload := by
  rw [nvmCheckFile_iff]
  constructor
  · rintro ⟨-, -, -, -, hlen, hread⟩
    obtain ⟨payload, rest, rfl, hrest⟩ := exists_cut hlen
    refine ⟨payload, ?_⟩
    change _ = [cFlagValue, (nvmComputeCheckNo true .ok (some (payload ++ rest))).1] at hread
    rw [nvmComputeCheckNo_old hrest, length_cut hrest, readAt, List.drop_left' rfl,
      List.take_of_length_le hrest.le] at hread
    rw [hread, trailer]
  · rintro ⟨payload, rfl⟩
    have hrest : (trailer payload).length = 2 := rfl
    change promote signed (nvmComputeCheckNo true .ok _).2 ≠ _ ∧ _
    refine ⟨?_, rfl, rfl, rfl, ?_, ?_⟩
    · rw [nvmComputeCheckNo_old hrest, promote_zero]
      decide
    · rw [List.length_append, hrest]
      omega
    · change _ = [cFlagValue, (nvmComputeCheckNo true .ok _).1]
      rw [nvmComputeCheckNo_old hrest, length_cut hrest, readAt, List.drop_left' rfl]
      rfl

theorem nvmCheckFile_append {signed : Bool} {payload rest : List UInt8} (h : rest.length = 2) :
    nvmCheckFile signed .ok (some (payload ++ rest)) = true ↔ rest = trailer payload := by
  rw [nvmCheckFile_ok_iff]
  constructor
  · rintro ⟨payload', heq⟩
    obtain ⟨rfl, hrest⟩ := List.append_inj' heq h
    exact hrest
  · rintro rfl
    exact ⟨payload, rfl⟩

/-- A file that NVM_SetCheckNo has sealed is a payload with its trailer. -/
theorem nvmSetCheckNo_sealed {signed isOldFile : Bool} {before file : List UInt8}
    (h : nvmSetCheckNo signed isOldFile .ok (some before) = (true, some file)) :
    ∃ payload, file = payload ++ trailer payload := by
  cases isOldFile with
  | false =>
    rw [nvmSetCheckNo_new] at h
    cases h
    exact ⟨before, rfl⟩
  | true =>
    by_cases hlen : 2 ≤ before.length
    · obtain ⟨payload, rest, rfl, hrest⟩ := exists_cut hlen
      rw [nvmSetCheckNo_old signed hrest] at h
      cases h
      exact ⟨payload, rfl⟩
    · have hshort : before.length < 2 := by omega
      simp [nvmSetCheckNo, SetCalls.ok, hshort] at h

/-- The check reads the two last bytes and, for the sum, as many bytes as its loop counts. -/
theorem nvmCheckFile_bytes (signed : Bool) (file : List UInt8) :
    nvmCheckFile signed .ok (some file) = true ↔
      2 ≤ file.length ∧ file[file.length - 2]? = some 0xAA ∧
        file[file.length - 1]? = some (ck (file.take ((file.length - 2) % 4294967296))) := by
  by_cases hlen : 2 ≤ file.length
  · obtain ⟨payload, rest, rfl, hrest⟩ := exists_cut hlen
    have hmod : payload.length % 4294967296 ≤ payload.length := Nat.mod_le ..
    have hflag : (payload ++ rest)[payload.length]? = rest[0]? := by
      rw [List.getElem?_append_right le_rfl, Nat.sub_self]
    have hno : (payload ++ rest)[payload.length + 1]? = rest[1]? := by
      rw [List.getElem?_append_right (by omega), Nat.add_sub_cancel_left]
    have hlast : (payload ++ rest).length - 1 = payload.length + 1 := by
      rw [List.length_append, hrest]
      rfl
    rw [nvmCheckFile_append hrest, hlast, length_cut hrest, hflag, hno,
      List.take_append_of_le_length hmod]
    obtain ⟨flag, no, rfl⟩ := List.length_eq_two.mp hrest
    simp [trailer, cFlagValue]
  · rw [nvmCheckFile_iff]
    exact ⟨fun h => absurd h.2.2.2.2.1 hlen, fun h => absurd h.1 hlen⟩

/-- What one function seals the other accepts, and it accepts nothing else. -/
theorem seal_roundTrip (signed : Bool) :
    (∀ c : List UInt8, c.length < 4294967294 →
      nvmSetCheckNo signed false .ok (some c) = (true, some (c ++ [0xAA, ck c])) ∧
        nvmCheckFile signed .ok (some (c ++ [0xAA, ck c])) = true) ∧
    (∀ file : List UInt8, 2 ≤ file.length →
      ∃ rest : List UInt8, rest.length = 2 ∧
        nvmSetCheckNo signed true .ok (some file) =
          (true, some (file.take (file.length - 2) ++ rest)) ∧
        nvmCheckFile signed .ok (some (file.take (file.length - 2) ++ rest)) = true) ∧
    (∀ file : List UInt8, file.length < 4294967298 →
      (nvmCheckFile signed .ok (some file) = true ↔
        2 ≤ file.length ∧ file[file.length - 2]? = some 0xAA ∧
          file[file.length - 1]? = some (ck (file.take (file.length - 2))))) ∧
    ∀ file : List UInt8, nvmCheckFile signed .ok (some file) = true ↔
      2 ≤ file.length ∧ file[file.length - 2]? = some 0xAA ∧
        file[file.length - 1]? = some (ck (file.take ((file.length - 2) % 4294967296))) := by
  refine ⟨?_, ?_, ?_, nvmCheckFile_bytes signed⟩
  · intro c hlen
    rw [← trailer_of_lt (by omega)]
    exact ⟨nvmSetCheckNo_new signed c, nvmCheckFile_ok_iff.mpr ⟨c, rfl⟩⟩
  · intro file hlen
    obtain ⟨payload, rest, rfl, hrest⟩ := exists_cut hlen
    have htake : (payload ++ rest).take ((payload ++ rest).length - 2) = payload := by
      rw [length_cut hrest, List.take_left' rfl]
    rw [htake]
    exact ⟨_, rfl, nvmSetCheckNo_old signed hrest, nvmCheckFile_ok_iff.mpr ⟨payload, rfl⟩⟩
  · intro file hlen
    have hmod : (file.length - 2) % 4294967296 = file.length - 2 := Nat.mod_eq_of_lt (by omega)
    rw [nvmCheckFile_bytes, hmod]

/-! ## A changed byte -/

theorem trailer_set {payload : List UInt8} {i : ℕ} {b : UInt8} (hlt : i < payload.length)
    (hne : payload[i] ≠ b) :
    trailer payload = trailer (payload.set i b) ↔ payload.length % 4294967296 ≤ i := by
  have hmod : payload.length % 4294967296 ≤ payload.length := Nat.mod_le ..
  rw [trailer, trailer, List.length_set, List.take_set]
  constructor
  · intro heq
    by_contra hi
    have hread : i < (payload.take (payload.length % 4294967296)).length := by
      rw [List.length_take]
      omega
    have hbyte : (payload.take (payload.length % 4294967296))[i] ≠ b := by
      rwa [List.getElem_take]
    injection heq with _ hno
    injection hno with hno
    exact ck_set_ne hread hbyte hno.symm
  · intro hi
    rw [List.set_eq_of_length_le (by rw [List.length_take]; omega)]

/-- A sealed file with another byte fails the check just where the check reads that byte. -/
theorem nvmCheckFile_set {signed : Bool} {payload file : List UInt8} {i : ℕ} {b : UInt8}
    (hfile : file = payload ++ trailer payload) (hlt : i < file.length) (hne : file[i] ≠ b) :
    nvmCheckFile signed .ok (some (file.set i b)) = false ↔
      i < payload.length % 4294967296 ∨ payload.length ≤ i := by
  have hmod : payload.length % 4294967296 ≤ payload.length := Nat.mod_le ..
  subst hfile
  rw [← Bool.not_eq_true, List.set_append]
  by_cases hi : i < payload.length
  · rw [List.getElem_append_left hi] at hne
    rw [if_pos hi, nvmCheckFile_append rfl, trailer_set hi hne]
    omega
  · rw [List.getElem_append_right (by omega)] at hne
    rw [if_neg hi, nvmCheckFile_append (by rw [List.length_set]; rfl)]
    refine iff_of_true ?_ (Or.inr (by omega))
    intro heq
    apply hne
    rw [List.length_append] at hlt
    have hget := List.getElem_set_self (l := trailer payload) (i := i - payload.length) (a := b)
      (by rw [List.length_set]; omega)
    simp only [heq] at hget
    exact hget

/-- Exactly the bytes that the loop of the check counts and those of the trailer are guarded. -/
theorem changed_byte_detected {signed isOldFile : Bool} {before file : List UInt8} {i : ℕ}
    {b : UInt8} (hset : nvmSetCheckNo signed isOldFile .ok (some before) = (true, some file))
    (hlt : i < file.length) (hne : file[i] ≠ b) :
    nvmCheckFile signed .ok (some (file.set i b)) = false ↔
      i < (file.length - 2) % 4294967296 ∨ file.length - 2 ≤ i := by
  obtain ⟨payload, hfile⟩ := nvmSetCheckNo_sealed hset
  have hlen : file.length - 2 = payload.length := by
    rw [hfile]
    exact length_cut rfl
  rw [nvmCheckFile_set hfile hlt hne, hlen]

theorem changed_byte_detected_third :
    nvmCheckFile true .ok (some (([0x31, 0x41, 0x59, 0xAA, 0xC9] : List UInt8).set 2 0)) = false :=
  (changed_byte_detected
    (by decide : nvmSetCheckNo true false .ok (some [0x31, 0x41, 0x59]) = (true, some _))
    (by decide) (by decide)).mpr (by decide)

/-- The first byte of a payload of 4 GiB is not in the sum. -/
theorem changed_byte_missed :
    ¬ ∀ (signed isOldFile : Bool) (before file : List UInt8) (i : ℕ) (b : UInt8),
      nvmSetCheckNo signed isOldFile .ok (some before) = (true, some file) →
        ∀ hlt : i < file.length, file[i] ≠ b →
          nvmCheckFile signed .ok (some (file.set i b)) = false := by
  intro h
  obtain ⟨payload, hpayload⟩ : ∃ payload : List UInt8,
      payload = List.replicate 4294967296 0 := ⟨_, rfl⟩
  have hlen : payload.length = 4294967296 := by rw [hpayload, List.length_replicate]
  have hall : ∀ x ∈ payload, x = 0 := by
    rw [hpayload]
    exact fun x hx => List.eq_of_mem_replicate hx
  have hlt : 0 < (payload ++ trailer payload).length := by
    rw [List.length_append, hlen]
    omega
  have hzero : (payload ++ trailer payload)[0] = 0 := by
    rw [List.getElem_append_left (by omega)]
    exact hall _ (List.getElem_mem _)
  have hne : (payload ++ trailer payload)[0] ≠ 1 := by
    rw [hzero]
    decide
  have hfalse := h false false payload _ 0 1 (nvmSetCheckNo_new false payload) hlt hne
  rw [nvmCheckFile_set rfl hlt hne, hlen] at hfalse
  omega

/-! ## Failed computations -/

/-- stat, open or the read of some turn fails. A read behind the end is short. -/
def ComputeFails (isOldFile : Bool) (calls : ComputeCalls) : Option (List UInt8) → Prop
  | none => True
  | some file => calls.stats = false ∨ calls.opens = false ∨
      ∃ i < ilooptimes isOldFile file.length, calls.reads i = false ∨ file.length ≤ i

theorem readLoop_eq_none {reads : ℕ → Bool} {times i : ℕ} {file : List UInt8}
    {acc : UInt8 × Bool} : readLoop reads times i file acc = none ↔
      ∃ j < times, i ≤ j ∧ (reads j = false ∨ i + file.length ≤ j) := by
  induction file generalizing i acc with
  | nil =>
    rw [readLoop]
    by_cases hi : i < times
    · rw [if_pos hi]
      exact iff_of_true rfl ⟨i, hi, le_rfl, Or.inr le_rfl⟩
    · rw [if_neg hi]
      refine iff_of_false (Option.some_ne_none _) ?_
      rintro ⟨j, hj, hij, -⟩
      omega
  | cons buf file ih =>
    rw [readLoop, List.length_cons]
    by_cases hi : i < times
    · rw [if_pos hi]
      by_cases hread : reads i = true
      · rw [if_pos hread, ih]
        constructor
        · rintro ⟨j, hj, hij, hfail⟩
          exact ⟨j, hj, by omega, hfail.imp id fun _ => by omega⟩
        · rintro ⟨j, hj, hij, hfail⟩
          have hne : i ≠ j := by
            rintro rfl
            rcases hfail with hfail | hfail
            · rw [hread] at hfail
              cases hfail
            · omega
          exact ⟨j, hj, by omega, hfail.imp id fun _ => by omega⟩
      · rw [if_neg hread]
        exact iff_of_true rfl ⟨i, hi, le_rfl, Or.inl (eq_false_of_ne_true hread)⟩
    · rw [if_neg hi]
      refine iff_of_false (Option.some_ne_none _) ?_
      rintro ⟨j, hj, hij, -⟩
      omega

theorem nvmComputeCheckNo_fails {isOldFile : Bool} {calls : ComputeCalls}
    {file : Option (List UInt8)} (h : ComputeFails isOldFile calls file) :
    nvmComputeCheckNo isOldFile calls file = (0, 0xFF) := by
  cases file with
  | none => rfl
  | some file =>
    rw [nvmComputeCheckNo]
    by_cases hstat : calls.stats = true
    · by_cases hopen : calls.opens = true
      · have hread : readLoop calls.reads (ilooptimes isOldFile file.length) 0 file (0, false) =
            none := by
          rw [readLoop_eq_none]
          rcases h with h | h | ⟨j, hj, hfail⟩
          · rw [hstat] at h
            cases h
          · rw [hopen] at h
            cases h
          · exact ⟨j, hj, Nat.zero_le j, by rwa [Nat.zero_add]⟩
        simp [hstat, hopen, hread]
      · simp [hstat, hopen]
    · simp [hstat]

/-- A failed computation makes both callers return false, and the file stays as it is. -/
def FailuresReported (signed isOldFile : Bool) (set : SetCalls) (check : CheckCalls)
    (file : Option (List UInt8)) : Prop :=
  (ComputeFails isOldFile set.compute file →
    nvmSetCheckNo signed isOldFile set file = (false, file)) ∧
  (ComputeFails true check.compute file → nvmCheckFile signed check file = false)

/-- A call of NVM_SetCheckNo behind the computation stops it before it has changed the file. -/
def SetStops (isOldFile : Bool) (calls : SetCalls) : Option (List UInt8) → Prop
  | none => True
  | some file => calls.opens = false ∨ calls.seeks = false ∨ isOldFile = true ∧ file.length < 2 ∨
      calls.writesFlag = false ∨
      isOldFile = true ∧ calls.writesNo = false ∧ file[file.length - 2]? = some cFlagValue

/-- A call of NVM_CheckFile behind the computation stops it, or the file does not end with the
trailer of the check number 0. -/
def CheckStops (calls : CheckCalls) : Option (List UInt8) → Prop
  | none => True
  | some file => calls.opens = false ∨ calls.seeks = false ∨ calls.reads = false ∨
      file.length < 2 ∨ readAt file (file.length - 2) 2 ≠ [cFlagValue, 0]

theorem writeAt_one_eq_self {file : List UInt8} {off : ℕ} (h : off < file.length) (b : UInt8) :
    writeAt file off [b] = file ↔ file[off]? = some b := by
  have hset : writeAt file off [b] = file.set off b := by
    rw [writeAt_of_le h.le, List.set_eq_take_append_cons_drop, if_pos h]
    simp
  rw [hset]
  constructor
  · intro heq
    rw [← heq, List.getElem?_set_self h]
  · intro hget
    obtain ⟨_, rfl⟩ := List.getElem?_eq_some_iff.mp hget
    exact List.set_getElem_self _

theorem nvmSetCheckNo_failed {signed isOldFile : Bool} {calls : SetCalls}
    {file : Option (List UInt8)} (h : ComputeFails isOldFile calls.compute file) :
    nvmSetCheckNo signed isOldFile calls file = (false, file) ↔
      signed = false ∨ SetStops isOldFile calls file := by
  obtain ⟨compute, opens, seeks, writesFlag, writesNo⟩ := calls
  rw [nvmSetCheckNo, nvmComputeCheckNo_fails h]
  cases signed with
  | false => exact iff_of_true rfl (Or.inl rfl)
  | true =>
    have hflag : ¬ promote true 0xFF = 0xFF := by decide
    cases file with
    | none => exact iff_of_true rfl (Or.inr trivial)
    | some file =>
      simp only [hflag, if_false, SetStops, Bool.true_eq_false, false_or]
      cases opens with
      | false => simp
      | true =>
        cases seeks with
        | false => simp
        | true =>
          by_cases hshort : isOldFile = true ∧ file.length < 2
          · simp [hshort]
          · cases writesFlag with
            | false => simp
            | true =>
              cases writesNo with
              | true => simp_all
              | false =>
                cases isOldFile with
                | false => simp
                | true =>
                  have hlen : ¬ file.length < 2 := by simpa using hshort
                  simp [hlen, writeAt_one_eq_self (show file.length - 2 < file.length by omega)]

theorem nvmCheckFile_failed {signed : Bool} {calls : CheckCalls} {file : Option (List UInt8)}
    (h : ComputeFails true calls.compute file) :
    nvmCheckFile signed calls file = false ↔ signed = false ∨ CheckStops calls file := by
  cases file with
  | none =>
    refine iff_of_true ?_ (Or.inr trivial)
    rw [nvmCheckFile, nvmComputeCheckNo_fails h]
    cases signed <;> rfl
  | some file =>
    have hflag : promote signed 0xFF ≠ 0xFF ↔ signed = true := by
      rw [ne_eq, promote_failed, Bool.not_eq_false]
    rw [← Bool.not_eq_true, nvmCheckFile_iff, nvmComputeCheckNo_fails h, hflag]
    cases signed with
    | false => simp
    | true =>
      simp only [CheckStops, true_and, ← Bool.not_eq_true, ne_eq, ← Nat.not_le]
      tauto

/-- With an unsigned char every failed computation is reported. With a signed one only what
stops the caller by itself is. -/
theorem failures_reported_iff (signed isOldFile : Bool) (set : SetCalls) (check : CheckCalls)
    (file : Option (List UInt8)) :
    FailuresReported signed isOldFile set check file ↔
      (ComputeFails isOldFile set.compute file → signed = false ∨ SetStops isOldFile set file) ∧
      (ComputeFails true check.compute file → signed = false ∨ CheckStops check file) := by
  rw [FailuresReported]
  constructor
  · rintro ⟨hset, hcheck⟩
    exact ⟨fun h => (nvmSetCheckNo_failed h).mp (hset h),
      fun h => (nvmCheckFile_failed h).mp (hcheck h)⟩
  · rintro ⟨hset, hcheck⟩
    exact ⟨fun h => (nvmSetCheckNo_failed h).mpr (hset h),
      fun h => (nvmCheckFile_failed h).mpr (hcheck h)⟩

/-- The read of the first byte fails, and the file is sealed with the check number 0. -/
theorem failures_not_reported :
    nvmSetCheckNo true false ⟨⟨true, true, fun _ => false⟩, true, true, true, true⟩ (some [0x31]) =
        (true, some [0x31, 0xAA, 0]) ∧
      ¬ ∀ (signed isOldFile : Bool) (set : SetCalls) (check : CheckCalls)
        (file : Option (List UInt8)), FailuresReported signed isOldFile set check file := by
  have hset : nvmSetCheckNo true false ⟨⟨true, true, fun _ => false⟩, true, true, true, true⟩
      (some [0x31]) = (true, some [0x31, 0xAA, 0]) := by decide
  refine ⟨hset, fun h => ?_⟩
  have hfails : ComputeFails false ⟨true, true, fun _ => false⟩ (some [0x31]) :=
    Or.inr (Or.inr ⟨0, by decide, Or.inl rfl⟩)
  have hreported := (h true false ⟨⟨true, true, fun _ => false⟩, true, true, true, true⟩ .ok
    (some [0x31])).1 hfails
  rw [hset] at hreported
  cases hreported

/-! ## Files of the sizes of the table

Where every call succeeds the functions are those of the data files. -/

theorem nvmSetCheckNo_eq_new (signed : Bool) {payload : List UInt8}
    (h : payload.length < 4294967296) :
    nvmSetCheckNo signed false .ok (some payload) =
      (true, some (Nvram.nvmSetCheckNo false payload)) := by
  rw [nvmSetCheckNo_new, Nvram.nvmSetCheckNo_new, append_trailer h]

theorem nvmSetCheckNo_eq_old (signed : Bool) {payload rest : List UInt8}
    (h : payload.length < 4294967296) (hrest : rest.length = 2) :
    nvmSetCheckNo signed true .ok (some (payload ++ rest)) =
      (true, some (Nvram.nvmSetCheckNo true (payload ++ rest))) := by
  rw [nvmSetCheckNo_old signed hrest, Nvram.nvmSetCheckNo_old payload hrest, append_trailer h]

theorem nvmCheckFile_eq (signed : Bool) {file : List UInt8} (h : file.length < 4294967298) :
    nvmCheckFile signed .ok (some file) = Nvram.nvmCheckFile file := by
  rw [Bool.eq_iff_iff, nvmCheckFile_ok_iff, Nvram.nvmCheckFile_iff]
  constructor
  · rintro ⟨payload, rfl⟩
    have hlen : (payload ++ trailer payload).length = payload.length + 2 := List.length_append
    exact ⟨payload, append_trailer (by omega)⟩
  · rintro ⟨payload, rfl⟩
    rw [length_sealPayload] at h
    exact ⟨payload, (append_trailer (by omega)).symm⟩

end CheckNo
