import VendorMediatek.RilStringAnswers

/-!
# The list of the current calls

getCurrentCallsResponse of ril_service.cpp. A call may carry user-to-user data.
-/

namespace RilCurrentCalls

open CStrings Faults
open RilDispatch (Abi HidlString)
open RilStringAnswers (Answer convertCharPtrToHidlString)

structure RilUusInfo where
  uusType : ℤ
  uusDcs : ℤ
  uusLength : ℤ
  uusData : Option (List UInt8)
  deriving DecidableEq, Repr

structure RilCall where
  state : ℤ
  index : ℤ
  toa : ℤ
  isMpty : UInt8
  isMT : UInt8
  als : UInt8
  isVoice : UInt8
  isVoicePrivacy : UInt8
  number : Option CString
  numberPresentation : ℤ
  name : Option CString
  namePresentation : ℤ
  uusInfo : Option RilUusInfo
  deriving DecidableEq, Repr

structure UusInfo where
  uusType : ℤ
  uusDcs : ℤ
  uusData : HidlString
  deriving DecidableEq, Repr

structure Call where
  state : ℤ
  index : ℤ
  toa : ℤ
  isMpty : Bool
  isMT : Bool
  als : UInt8
  isVoice : Bool
  isVoicePrivacy : Bool
  number : HidlString
  numberPresentation : ℤ
  name : HidlString
  namePresentation : ℤ
  uusInfo : List UusInfo
  deriving DecidableEq, Repr

/-- What calls.resize leaves in a new element. -/
def Call.new : Call := ⟨0, 0, 0, false, false, 0, false, false, [], 0, [], 0, []⟩

/-- The first n bytes, up to a NUL; n is taken as a size_t. -/
def strndup (abi : Abi) (s : List UInt8) (n : ℤ) : CString :=
  (s.take (n % 2 ^ (8 * abi.pointer)).toNat).takeWhile (· ≠ 0)

/-- The user-to-user data of a call, when neither pointer to it is NULL. -/
def RilCall.uus (abi : Abi) (pCur : RilCall) : Option UusInfo := do
  let uusInfo ← pCur.uusInfo
  let uusData ← uusInfo.uusData
  return ⟨uusInfo.uusType, uusInfo.uusDcs, strndup abi uusData uusInfo.uusLength⟩

def RilCall.fields (pCur : RilCall) : Call where
  state := pCur.state
  index := pCur.index
  toa := pCur.toa
  isMpty := pCur.isMpty != 0
  isMT := pCur.isMT != 0
  als := pCur.als
  isVoice := pCur.isVoice != 0
  isVoicePrivacy := pCur.isVoicePrivacy != 0
  number := convertCharPtrToHidlString pCur.number
  numberPresentation := pCur.numberPresentation
  name := convertCharPtrToHidlString pCur.name
  namePresentation := pCur.namePresentation
  uusInfo := []

/-- One turn of the loop: the element is new, and nothing sets its uusInfo to a size. -/
def fillCall (abi : Abi) (pCur : RilCall) : Checked Call :=
  match pCur.uus abi with
  | none => return pCur.fields
  | some uus => do return { pCur.fields with uusInfo := ← put Call.new.uusInfo 0 uus }

def getCurrentCallsResponse (abi : Abi) (client : Bool) (response : Option (List RilCall))
    (responseLen : ℕ) : Checked (Option (Answer (List Call))) :=
  if client = false then return none
  else match response with
    | none => return some ⟨true, []⟩
    | some entries =>
      if responseLen % abi.pointer ≠ 0 then return some ⟨true, []⟩
      else do
        let num := toInt (responseLen / abi.pointer : ℕ)
        return some ⟨false, ← fillVector num Call.new entries (fillCall abi)⟩

/-- The call as it should reach the client: with one element of user-to-user data if it has any. -/
def Call.ofRil (abi : Abi) (pCur : RilCall) : Call :=
  { pCur.fields with uusInfo := (pCur.uus abi).toList }

theorem fillCall_eq_ofRil_iff (abi : Abi) (pCur : RilCall) :
    fillCall abi pCur = .ok (Call.ofRil abi pCur) ↔ pCur.uus abi = none := by
  rw [fillCall, Call.ofRil]
  cases pCur.uus abi with
  | none => exact iff_of_true rfl rfl
  | some uus => exact iff_of_false nofun nofun

theorem pointer_pos (abi : Abi) : 0 < abi.pointer := by cases abi <;> decide

theorem getCurrentCallsResponse_some (abi : Abi) (calls : List RilCall) :
    getCurrentCallsResponse abi true (some calls) (calls.length * abi.pointer) =
      (do return some ⟨false, ← fillVector (toInt calls.length) Call.new calls (fillCall abi)⟩) := by
  have hmod : calls.length * abi.pointer % abi.pointer = 0 := Nat.mul_mod_left ..
  have hdiv : calls.length * abi.pointer / abi.pointer = calls.length :=
    Nat.mul_div_cancel _ (pointer_pos abi)
  simp only [getCurrentCallsResponse, hmod, hdiv]
  rfl

/-- The calls reach the client as they should exactly when none of them carries user-to-user data
and their number fits an int. -/
theorem getCurrentCallsResponse_iff (abi : Abi) (calls : List RilCall) :
    getCurrentCallsResponse abi true (some calls) (calls.length * abi.pointer) =
        .ok (some ⟨false, calls.map (Call.ofRil abi)⟩) ↔
      calls.length < 2 ^ 31 ∧ ∀ pCur ∈ calls, pCur.uus abi = none := by
  have hfill : fillVector (toInt calls.length) Call.new calls (fillCall abi) =
      .ok (calls.map (Call.ofRil abi)) ↔
        toInt calls.length = calls.length ∧
          ∀ pCur ∈ calls, fillCall abi pCur = .ok (Call.ofRil abi pCur) :=
    fillVector_eq_map_iff (toInt_natCast_le calls.length)
  simp only [toInt_natCast_eq_iff, fillCall_eq_ofRil_iff] at hfill
  rw [getCurrentCallsResponse_some, ← hfill]
  exact return_eq_ok_iff (g := fun filled => some (Answer.mk false filled)) fun _ _ h => by
    cases h
    rfl

def callWithUus : RilCall where
  state := 4
  index := 1
  toa := 129
  isMpty := 0
  isMT := 1
  als := 0
  isVoice := 1
  isVoicePrivacy := 0
  number := some [49, 48]
  numberPresentation := 0
  name := none
  namePresentation := 0
  uusInfo := some ⟨0, 0, 2, some [72, 105]⟩

theorem callWithUus_writes_outside :
    getCurrentCallsResponse .lp64 true (some [callWithUus]) 8 = .error .outside ∧
      ¬ ∀ calls : List RilCall,
        getCurrentCallsResponse .lp64 true (some calls) (calls.length * Abi.lp64.pointer) =
          .ok (some ⟨false, calls.map (Call.ofRil .lp64)⟩) := by
  have hfault : getCurrentCallsResponse .lp64 true (some [callWithUus]) 8 = .error .outside := by
    decide
  exact ⟨hfault, fun h => nomatch hfault.symm.trans (h [callWithUus])⟩

end RilCurrentCalls
