import VendorMediatek.RilPayloads

/-!
# Answers and indications that are arrays

The functions of ril_service.cpp that take their data as an array of strings or ints and test its
length in their own way. A fault is a read outside the array, a string function on a null pointer or
a vector of negative size. client is false where the callback object is missing.
-/

namespace RilStringAnswers

open CStrings Faults RilPayloads
open RilDispatch (Abi HidlString)

variable {abi : Abi}

/-- What goes to the client; invalid when INVALID_RESPONSE takes the place of RIL_E_SUCCESS. -/
structure Answer (α : Type) where
  invalid : Bool
  value : α
  deriving DecidableEq, Repr

def atoiNullHandledDef (abi : Abi) (x : Option CString) (defaultVal : ℤ) : ℤ :=
  match x with
  | some s => atoi (8 * abi.pointer) s
  | none => defaultVal

def atoiNullHandled (abi : Abi) (x : Option CString) : ℤ := atoiNullHandledDef abi x (-1)

def convertCharPtrToHidlString (ptr : Option CString) : HidlString := ptr.getD []

/-! ## Registration states -/

inductive CellInfoType where
  | none | gsm | cdma | lte | wcdma | tdScdma
  deriving DecidableEq, Repr

def getCellInfoTypeRadioTechnology (abi : Abi) : Option CString → CellInfoType
  | none => .none
  | some rat =>
    let radioTech := atoi (8 * abi.pointer) rat
    if radioTech ∈ [1, 2, 16] then .gsm
    else if radioTech ∈ [3, 9, 10, 11, 15] then .wcdma
    else if radioTech ∈ [4, 5, 6, 7, 8, 12, 13] then .cdma
    else if radioTech ∈ [14, 19] then .lte
    else if radioTech = 17 then .tdScdma
    else .none

/-- The fields of a cell identity that the strings fill; the others stay -1. -/
inductive CellIdentity where
  | none
  | gsm (lac cid : ℤ)
  | cdma (basestationId longitude latitude systemId networkId : ℤ)
  | lte (tac pci ci : ℤ)
  | wcdma (lac cid psc : ℤ)
  | tdScdma (lac cid : ℤ)
  deriving DecidableEq, Repr

def convertResponseStringEntryToInt (p : Payload abi) (index : ℕ) : Checked ℤ :=
  if p.isNull = false ∧ (index : ℤ) < p.numStrings then do
    match ← p.string index with
    | some s => return toInt (strtol (8 * abi.pointer) 16 s)
    | none => return -1
  else return -1

def fillCellIdentityFromVoiceRegStateResponseString (p : Payload abi) : Checked CellIdentity := do
  let entry := convertResponseStringEntryToInt p
  match getCellInfoTypeRadioTechnology abi (← p.string 3) with
  | .gsm => return .gsm (← entry 1) (← entry 2)
  | .wcdma => return .wcdma (← entry 1) (← entry 2) (← entry 14)
  | .tdScdma => return .tdScdma (← entry 1) (← entry 2)
  | .cdma => return .cdma (← entry 4) (← entry 5) (← entry 6) (← entry 8) (← entry 9)
  | .lte => return .lte (← entry 1) (-1) (← entry 2)
  | .none => return .none

def fillCellIdentityFromDataRegStateResponseString (p : Payload abi) : Checked CellIdentity := do
  let entry := convertResponseStringEntryToInt p
  match getCellInfoTypeRadioTechnology abi (← p.string 3) with
  | .gsm => return .gsm (← entry 1) (← entry 2)
  | .wcdma => return .wcdma (← entry 1) (← entry 2) (-1)
  | .tdScdma => return .tdScdma (← entry 1) (← entry 2)
  | .lte => return .lte (← entry 6) (← entry 7) (← entry 8)
  | .cdma => return .none
  | .none => return .none

structure VoiceRegStateResult where
  regState : ℤ
  rat : ℤ
  cssSupported : Bool
  roamingIndicator : ℤ
  systemIsInPrl : ℤ
  defaultRoamingIndicator : ℤ
  reasonForDenial : ℤ
  cellIdentity : CellIdentity
  deriving DecidableEq, Repr

structure DataRegStateResult where
  regState : ℤ
  rat : ℤ
  reasonDataDenied : ℤ
  maxDataCalls : ℤ
  cellIdentity : CellIdentity
  deriving DecidableEq, Repr

/-- From version 15 on the vendor passes a structure of ints, which is handed on field by field. -/
inductive RegState (α : Type) where
  | invalid
  | strings (result : α)
  | structure (ints : List ℤ)
  deriving DecidableEq, Repr

/-- Every int of the structure. -/
def readStructure (p : Payload abi) (size : ℕ) : Checked (List ℤ) :=
  (List.range (size / 4)).mapM p.int

/-- sizeof(RIL_VoiceRegistrationStateResponse): seven ints, and a cell identity of a type and six
ints. -/
def sizeofVoiceRegistrationStateResponse : ℕ := 56

def sizeofDataRegistrationStateResponse : ℕ := 44

/-- An entry that is read only when there are more than four strings. -/
def optionalEntry (p : Payload abi) (i : ℕ) (defaultVal other : ℤ) : Checked ℤ :=
  if 4 < p.numStrings then do
    return atoiNullHandledDef abi (← p.string i) defaultVal
  else return other

def getVoiceRegistrationStateResponse (client : Bool) (version : ℤ) (p : Payload abi) :
    Checked (Option (RegState VoiceRegStateResult)) :=
  if client = false then return none
  else if p.isNull then return some .invalid
  else if version ≤ 14 then
    if p.numStrings < 4 then return some .invalid
    else do
      let resp0 ← p.string 0
      let resp3 ← p.string 3
      let cssSupported ← optionalEntry p 7 0 0
      let roamingIndicator ← optionalEntry p 10 (-1) (-1)
      let systemIsInPrl ← optionalEntry p 11 0 0
      let defaultRoamingIndicator ← optionalEntry p 12 0 0
      let reasonForDenial ← optionalEntry p 13 0 0
      let cellIdentity ← fillCellIdentityFromVoiceRegStateResponseString p
      return some (.strings ⟨atoiNullHandledDef abi resp0 4, atoiNullHandled abi resp3,
        cssSupported != 0, roamingIndicator, systemIsInPrl, defaultRoamingIndicator,
        reasonForDenial, cellIdentity⟩)
  else if p.responseLen ≠ sizeofVoiceRegistrationStateResponse then return some .invalid
  else do
    return some (.structure (← readStructure p sizeofVoiceRegistrationStateResponse))

def getDataRegistrationStateResponse (client : Bool) (version : ℤ) (p : Payload abi) :
    Checked (Option (RegState DataRegStateResult)) :=
  if client = false then return none
  else if p.isNull then return some .invalid
  else if version ≤ 14 then
    if p.numStrings ≠ 4 ∧ p.numStrings ≠ 6 ∧ p.numStrings ≠ 11 then return some .invalid
    else do
      let resp0 ← p.string 0
      let resp3 ← p.string 3
      let rat := atoiNullHandledDef abi resp3 0
      let reasonDataDenied ← optionalEntry p 4 (-1) (-1)
      let maxDataCalls ← optionalEntry p 5 1 1
      let cellIdentity ← fillCellIdentityFromDataRegStateResponseString p
      return some (.strings ⟨atoiNullHandledDef abi resp0 4, if 128 ≤ rat then 15 else rat,
        reasonDataDenied, maxDataCalls, cellIdentity⟩)
  else if p.responseLen ≠ sizeofDataRegistrationStateResponse then return some .invalid
  else do
    return some (.structure (← readStructure p sizeofDataRegistrationStateResponse))

/-! ## Operators -/

structure Spn where
  plmn : ℤ
  name : CString
  deriving DecidableEq, Repr

def getname (spn : List Spn) (plmn : ℤ) : Option CString :=
  (spn.find? fun row => row.plmn = plmn).map Spn.name

structure OperatorNames where
  longName : HidlString
  shortName : HidlString
  numeric : HidlString
  deriving DecidableEq, Repr

/-- Three of the statements that look like assignments of a name are comparisons. -/
def getOperatorResponse (spn : List Spn) (client : Bool) (p : Payload abi) :
    Checked (Option (Answer OperatorNames)) :=
  if client = false then return none
  else if p.isNull ∨ p.numStrings = 0 then return some ⟨true, ⟨[], [], []⟩⟩
  else do
    let numeric : HidlString := []
    match getname spn (atoi (8 * abi.pointer) (← p.chars 0)) with
    | none => return some ⟨false, ⟨[], numeric, numeric⟩⟩
    | some name => return some ⟨false, ⟨convertCharPtrToHidlString (some name), [], numeric⟩⟩

structure OperatorInfo where
  alphaLong : HidlString
  alphaShort : HidlString
  operatorNumeric : HidlString
  status : ℤ
  deriving DecidableEq, Repr

def convertOperatorStatusToInt (str : CString) : ℤ :=
  if strncmpEq (literal "unknown") str 9 then 0
  else if strncmpEq (literal "available") str 9 then 1
  else if strncmpEq (literal "current") str 9 then 2
  else if strncmpEq (literal "forbidden") str 9 then 3
  else -1

/-- One turn of the loop, for i = 4 * j. -/
def addNetwork (p : Payload abi) (j : ℕ) (s : Bool × List OperatorInfo) :
    Checked (Bool × List OperatorInfo) := do
  let alphaLong := convertCharPtrToHidlString (← p.string (4 * j))
  let alphaShort := convertCharPtrToHidlString (← p.string (4 * j + 1))
  let operatorNumeric := convertCharPtrToHidlString (← p.string (4 * j + 2))
  let status := convertOperatorStatusToInt (← p.chars (4 * j + 3))
  let networks ← put s.2 j
    ⟨alphaLong, alphaShort, operatorNumeric, if status = -1 then 0 else status⟩
  return (s.1 || status == -1, networks)

/-- The strings come in fours, so that the loop makes numStrings / 4 turns. -/
def getAvailableNetworksResponse (client : Bool) (p : Payload abi) :
    Checked (Option (Answer (List OperatorInfo))) :=
  if client = false then return none
  else if p.isNull ∨ p.responseLen % (4 * abi.pointer) ≠ 0 then return some ⟨true, []⟩
  else do
    let networks ← resize (p.numStrings.tdiv 4) ⟨[], [], [], 0⟩
    let (invalid, networks) ← loop (addNetwork p) (p.numStrings / 4).toNat (false, networks)
    return some ⟨invalid, networks⟩

/-! ## Logical channels -/

structure LogicalChannel where
  channelId : ℤ
  selectResponse : List ℤ
  deriving DecidableEq, Repr

def int8 (x : ℤ) : ℤ := x.bmod (2 ^ 8)

def iccOpenLogicalChannelResponse (client : Bool) (p : Payload abi) :
    Checked (Option (Answer LogicalChannel)) :=
  if client = false then return none
  else if p.isNull ∨ p.responseLen % 4 ≠ 0 then return some ⟨true, ⟨-1, []⟩⟩
  else do
    let channelId ← p.int 0
    let selectResponse ← resize (p.numInts - 1) 0
    let selectResponse ← loop
      (fun i s => do put s i (int8 (← p.int (i + 1)))) (p.numInts - 1).toNat selectResponse
    return some ⟨false, ⟨channelId, selectResponse⟩⟩

/-! ## Indications of the vendor -/

/-- The int of RIL_REQUEST_RESUME_REGISTRATION. -/
def registrationSuspendInd (client : Bool) (p : Payload abi) : Checked (Option (List ℤ)) :=
  if client = false then return none
  else do
    return some [← p.int 0]

/-- The ints of RIL_REQUEST_SET_CALL_INDICATION; callStateChanged goes to the client after it. -/
def incomingCallInd (client : Bool) (p : Payload abi) : Checked (Option (List ℤ)) :=
  if client = false then return none
  else do
    let p0 := atoi (8 * abi.pointer) (← p.chars 3)
    let p1 := atoi (8 * abi.pointer) (← p.chars 0)
    let p2 := atoi (8 * abi.pointer) (← p.chars 4)
    return some [p0, p1, p2]

/-- Whether callStateChanged goes to the client. -/
def callInfoInd (client : Bool) (p : Payload abi) : Checked Bool :=
  if client = false then return false
  else if 2 ≤ p.responseLen then do
    return (← p.chars 1) == literal "129"
  else return false

/-- Whether networkStateChanged goes to the client. -/
def psNetworkStateChangedInd (client : Bool) (p : Payload abi) : Checked Bool :=
  if client = false then return false
  else do
    return (← p.int 0) == 4

end RilStringAnswers
