import Mathlib.Data.List.ReduceOption
import VendorMediatek.HeapLedgers
import VendorMediatek.RilQueuedPayload

/-!
# RIL request buffers

The heap blocks of one request: what a dispatch function of ril_service.cpp callocs for its
payload, what `my_enqueue` and `my_dequeue` (ril.cpp) add for a request that has to wait, and the
frees of `clearPendingBuffer`, of `my_dequeue` and of the function itself. The request's own
RequestInfo belongs to the list of pending requests and is left out.
-/

namespace RilRequestBuffers

open CMemory RilChannelQueue RilDispatch HeapLedgers

/-! ## The other dispatch functions -/

/-- ril_cdma_sms.h is not part of the repository. -/
structure RilCdmaSmsStructs extends RilCdmaSms where
  cdmaSmsAck : UInt32 → UInt32 → List UInt8
  cdmaSmsWriteArgs : UInt32 → CdmaSmsMessage → List UInt8

def dispatchVoid : Call where
  frame := .ofBlocks []
  data := none
  buflen := 0
  bf := .void
  type := .done

/-- The bytes belong to the caller. -/
def dispatchRaw (rawBytes : List UInt8) : Call where
  frame := .ofBlocks [⟨.stack, bytes rawBytes⟩]
  data := some ⟨0, 0⟩
  buflen := rawBytes.length
  bf := .ignore
  type := .bytes rawBytes.length

structure UusInfo where
  uusType : UInt32
  uusDcs : UInt32
  uusData : HidlString

structure Dial where
  address : HidlString
  clir : UInt32
  uusInfo : List UusInfo

def uusInfoMembers (abi : Abi) : List UusInfo → List Member
  | [] => [intMember 0, intMember 0, intMember 0, pointerMember abi none .cstr]
  | info :: _ => [intMember info.uusType, intMember info.uusDcs,
      intMember (UInt32.ofNat info.uusData.length), stringMember abi 3 info.uusData]

def uusData : List UusInfo → HidlString
  | [] => []
  | info :: _ => info.uusData

def dial (abi : Abi) (dialInfo : Dial) : Call :=
  structCall .ignore
    [stringMember abi 1 dialInfo.address, intMember dialInfo.clir,
      pointerMember abi (if dialInfo.uusInfo.length = 0 then none else some ⟨2, 0⟩)
        (structType 0 (uusInfoMembers abi dialInfo.uusInfo))]
    [hidlBlock dialInfo.address, ⟨.stack, structCells (uusInfoMembers abi dialInfo.uusInfo)⟩,
      hidlBlock (uusData dialInfo.uusInfo)]

/-- A struct on the stack without a pointer in it. -/
def rawCall (l : List UInt8) : Call := structCall .raw [⟨1, bytes l, .bytes l.length⟩] []

def sendCdmaSms (header : RilCdmaSmsStructs) (sms : CdmaSmsMessage) : Call :=
  rawCall (header.constructCdmaSms sms)

def acknowledgeLastIncomingCdmaSms (header : RilCdmaSmsStructs) (errorClass smsCauseCode : UInt32) :
    Call :=
  rawCall (header.cdmaSmsAck errorClass smsCauseCode)

def writeSmsToRuim (header : RilCdmaSmsStructs) (status : UInt32) (message : CdmaSmsMessage) :
    Call :=
  rawCall (header.cdmaSmsWriteArgs status message)

structure SelectUiccSub where
  slot : UInt32
  appIndex : UInt32
  subType : UInt32
  actStatus : UInt32

def setUiccSubscription (uiccSub : SelectUiccSub) : Call :=
  structCall .raw
    [intMember uiccSub.slot, intMember uiccSub.appIndex, intMember uiccSub.subType,
      intMember uiccSub.actStatus] []

def maxUuidLength : ℕ := 64

structure RadioCapability where
  session : UInt32
  phase : UInt32
  raf : UInt32
  logicalModemUuid : HidlString
  status : UInt32

def setRadioCapability (rc : RadioCapability) : Call :=
  structCall .raw
    [intMember 0, intMember rc.session, intMember rc.phase, intMember rc.raf,
      ⟨1, bytes (strncpy rc.logicalModemUuid maxUuidLength), .bytes maxUuidLength⟩,
      intMember rc.status] []

def nvReadItem (itemId : UInt32) : Call := structCall .ignore [intMember itemId] []

def nvWriteItem (abi : Abi) (itemId : UInt32) (value : HidlString) : Call :=
  structCall .ignore [intMember itemId, stringMember abi 1 value] [hidlBlock value]

def requestIccSimAuthentication (abi : Abi) (authContext : UInt32) (authData aid : HidlString) :
    Call :=
  structCall .simauth
    [intMember authContext, stringMember abi 1 authData, stringMember abi 2 aid]
    [hidlBlock authData, hidlBlock aid]

/-! ### Data profiles -/

structure DataProfile extends DataProfileInfo where
  profileId : UInt32
  type : UInt32
  maxConnsTime : UInt32
  maxConns : UInt32
  waitTime : UInt32
  enabled : Bool

def protocolOf (isRoaming : Bool) (profile : DataProfile) : HidlString :=
  if isRoaming then profile.roamingProtocol else profile.protocol

/-- RIL_DataProfileInfo, whose strings are the blocks from first on. -/
def dataProfileMembers (abi : Abi) (isRoaming : Bool) (first : ℕ) (profile : DataProfile) :
    List Member :=
  [intMember profile.profileId, stringMember abi first profile.apn,
    stringMember abi (first + 1) (protocolOf isRoaming profile), intMember profile.authType,
    stringMember abi (first + 2) profile.user, stringMember abi (first + 3) profile.password,
    intMember profile.type, intMember profile.maxConnsTime, intMember profile.maxConns,
    intMember profile.waitTime, intMember (boolToInt profile.enabled)]

def dataProfileStrings (isRoaming : Bool) (profile : DataProfile) : List HidlString :=
  [profile.apn, protocolOf isRoaming profile, profile.user, profile.password]

/-- The sixth of the blocks is the literal mvnoType points to. -/
def dataProfileMembersV15 (abi : Abi) (first : ℕ) (profile : DataProfile) : List Member :=
  [intMember profile.profileId, stringMember abi first profile.apn,
    stringMember abi (first + 1) profile.protocol,
    stringMember abi (first + 2) profile.roamingProtocol, intMember profile.authType,
    stringMember abi (first + 3) profile.user, stringMember abi (first + 4) profile.password,
    intMember profile.type, intMember profile.maxConnsTime, intMember profile.maxConns,
    intMember profile.waitTime, intMember (boolToInt profile.enabled),
    intMember profile.supportedApnTypesBitmap, intMember profile.bearerBitmap,
    intMember profile.mtu, pointerMember abi (some ⟨first + 5, 0⟩) .cstr,
    stringMember abi (first + 6) profile.mvnoMatchData]

def dataProfileBlocksV15 (mvnoType : List UInt8) (profile : DataProfile) : List Block :=
  [hidlBlock profile.apn, hidlBlock profile.protocol, hidlBlock profile.roamingProtocol,
    hidlBlock profile.user, hidlBlock profile.password, ⟨.static, bytes (mvnoType ++ [0])⟩,
    hidlBlock profile.mvnoMatchData]

/-- The size of the array's elements. -/
def sizeofDataProfile (profiles : List (List Member)) : ℕ :=
  (structCells (profiles.headD [])).length

/-- dataProfilePtrs, whose elements point into dataProfiles, and the blocks behind those. -/
def dataProfileCall (abi : Abi) (bf : BufFmts) (profiles : List (List Member))
    (blocks : List Block) : Call :=
  let dataProfilePtrs := packed (profiles.mapIdx fun i c =>
    pointerMember abi (some ⟨1, i * sizeofDataProfile profiles⟩) (structType 0 c))
  { frame := .ofBlocks (⟨.heap, structFields 0 dataProfilePtrs⟩ ::
      ⟨.heap, profiles.flatMap structCells⟩ :: blocks)
    data := some ⟨0, 0⟩
    buflen := profiles.length * abi.pointer
    bf := bf
    type := structType 0 dataProfilePtrs }

/-- version is that of the vendor's RIL functions. -/
def setDataProfile (abi : Abi) (version : ℕ) (profiles : List DataProfile) (isRoaming : Bool) :
    Option Call :=
  if version ≤ 14 then
    some (dataProfileCall abi .dataprof
      (profiles.mapIdx fun i profile => dataProfileMembers abi isRoaming (2 + 4 * i) profile)
      (profiles.flatMap fun profile => (dataProfileStrings isRoaming profile).map hidlBlock))
  else
    (profiles.mapM fun profile =>
      (convertMvnoTypeToString profile.mvnoType).map fun mvnoType =>
        dataProfileBlocksV15 mvnoType profile).map fun blocks =>
      dataProfileCall abi .ignore
        (profiles.mapIdx fun i profile => dataProfileMembersV15 abi (2 + 7 * i) profile)
        blocks.flatten

/-! ### Carriers and the empty attach APN -/

structure Carrier where
  mcc : HidlString
  mnc : HidlString
  matchType : UInt32
  matchData : HidlString
  deriving DecidableEq, Repr

structure CarrierRestrictions where
  allowedCarriers : List Carrier
  excludedCarriers : List Carrier
  deriving DecidableEq, Repr

def Carrier.strings (carrier : Carrier) : List HidlString :=
  [carrier.mcc, carrier.mnc, carrier.matchData]

/-- RIL_Carrier points to the strings of the request itself. -/
def carrierMembers (abi : Abi) (first : ℕ) (carrier : Carrier) : List Member :=
  [pointerMember abi (some ⟨first, 0⟩) .cstr, pointerMember abi (some ⟨first + 1, 0⟩) .cstr,
    intMember carrier.matchType, pointerMember abi (some ⟨first + 2, 0⟩) .cstr]

def carrierBlocks (carrier : Carrier) : List Block :=
  carrier.strings.map fun s => ⟨.stack, bytes (s ++ [0])⟩

def carrierCells (abi : Abi) (first : ℕ) (carriers : List Carrier) : Contents :=
  (carriers.mapIdx fun i c => structCells (carrierMembers abi (first + 3 * i) c)).flatten

def setAllowedCarriers (abi : Abi) (carriers : CarrierRestrictions) : Call :=
  let allowed := carriers.allowedCarriers
  let excluded := carriers.excludedCarriers
  structCall .ignore
    [intMember (UInt32.ofNat allowed.length), intMember (UInt32.ofNat excluded.length),
      pointerMember abi (some ⟨1, 0⟩) .done, pointerMember abi (some ⟨2, 0⟩) .done]
    (⟨.heap, carrierCells abi 3 allowed⟩ ::
      ⟨.heap, carrierCells abi (3 + 3 * allowed.length) excluded⟩ ::
      (allowed ++ excluded).flatMap carrierBlocks)

/-- An attach APN of empty strings. -/
def setAttachApnInd (abi : Abi) : Call :=
  let iaa := structCall .ignore
    (initialAttachApnFields abi 0 ++ [pointerMember abi none (.ptr .cstr)])
    (List.replicate 5 ⟨.heap, bytes [0]⟩)
  { iaa with buflen := iaa.buflen - abi.pointer }

inductive BufferRequest where
  | ofRequest (request : Request)
  | dispatchVoid
  | dispatchRaw (rawBytes : List UInt8)
  | dial (dialInfo : Dial)
  | sendCdmaSms (sms : CdmaSmsMessage)
  | acknowledgeLastIncomingCdmaSms (errorClass smsCauseCode : UInt32)
  | writeSmsToRuim (status : UInt32) (message : CdmaSmsMessage)
  | setUiccSubscription (uiccSub : SelectUiccSub)
  | setRadioCapability (rc : RadioCapability)
  | nvReadItem (itemId : UInt32)
  | nvWriteItem (itemId : UInt32) (value : HidlString)
  | requestIccSimAuthentication (authContext : UInt32) (authData aid : HidlString)
  | setDataProfile (version : ℕ) (profiles : List DataProfile) (isRoaming : Bool)
  | setAllowedCarriers (carriers : CarrierRestrictions)
  | setAttachApnInd

/-- The call of my_enqueue a request makes, if it makes one. -/
def BufferRequest.call (abi : Abi) (header : RilCdmaSmsStructs) (pRI : RequestInfo) :
    BufferRequest → Option Call
  | .ofRequest request => request.call abi header.toRilCdmaSms pRI
  | .dispatchVoid => some RilRequestBuffers.dispatchVoid
  | .dispatchRaw rawBytes => some (RilRequestBuffers.dispatchRaw rawBytes)
  | .dial dialInfo => some (RilRequestBuffers.dial abi dialInfo)
  | .sendCdmaSms sms => some (RilRequestBuffers.sendCdmaSms header sms)
  | .acknowledgeLastIncomingCdmaSms errorClass smsCauseCode =>
    some (RilRequestBuffers.acknowledgeLastIncomingCdmaSms header errorClass smsCauseCode)
  | .writeSmsToRuim status message =>
    some (RilRequestBuffers.writeSmsToRuim header status message)
  | .setUiccSubscription uiccSub => some (RilRequestBuffers.setUiccSubscription uiccSub)
  | .setRadioCapability rc => some (RilRequestBuffers.setRadioCapability rc)
  | .nvReadItem itemId => some (RilRequestBuffers.nvReadItem itemId)
  | .nvWriteItem itemId value => some (RilRequestBuffers.nvWriteItem abi itemId value)
  | .requestIccSimAuthentication authContext authData aid =>
    some (RilRequestBuffers.requestIccSimAuthentication abi authContext authData aid)
  | .setDataProfile version profiles isRoaming =>
    RilRequestBuffers.setDataProfile abi version profiles isRoaming
  | .setAllowedCarriers carriers => some (RilRequestBuffers.setAllowedCarriers abi carriers)
  | .setAttachApnInd => some (RilRequestBuffers.setAttachApnInd abi)

/-! ## Blocks and pointers -/

/-- The blocks of the frame, and the two my_enqueue callocs for a request that has to wait. -/
inductive HeapBlock where
  | payload (b : ℕ)
  | node
  | copy
  deriving DecidableEq, Repr

abbrev Place := HeapBlock × ℕ

def toPlace (p : Pointer) : Place := (.payload p.block, p.offset)

def places (ptrs : List (Option Pointer)) : List (Option Place) := ptrs.map (Option.map toPlace)

/-- ril.cpp writes zeros over each string first; ril_service.cpp is built without MEMSET_FREED. -/
def memsetAndFreeStrings (memsetFreed : Bool) (ptrs : List (Option Place)) : List (Op HeapBlock) :=
  release memsetFreed ptrs.reduceOption

/-- The blocks behind the pointers copyHidlStringToRil has set. -/
def calloced (ptrs : List (Option Pointer)) : List ℕ := ptrs.reduceOption.map Pointer.block

/-- The pointers to strings whose blocks are those from first on. -/
def stringPtrs (first : ℕ) (data : List HidlString) : List (Option Pointer) :=
  data.mapIdx fun i s => copyHidlStringToRil (first + i) s

/-! ## What the dispatch functions calloc and free -/

def initialAttachApnPtrs (info : DataProfileInfo) : List (Option Pointer) :=
  [copyHidlStringToRil 1 info.apn, copyHidlStringToRil 2 info.protocol,
    copyHidlStringToRil 3 info.roamingProtocol, copyHidlStringToRil 4 info.user,
    copyHidlStringToRil 5 info.password, copyHidlStringToRil 7 info.mvnoMatchData]

/-- One string member of every profile. -/
def profilePtrs (k : ℕ) (member : DataProfile → HidlString) (profiles : List DataProfile) :
    List (Option Pointer) :=
  profiles.mapIdx fun i profile => copyHidlStringToRil (2 + 7 * i + k) (member profile)

/-- The members in the order freeSetDataProfileData takes them in. -/
def dataProfilePtrsV15 (profiles : List DataProfile) : List (Option Pointer) :=
  profilePtrs 0 (fun p => p.apn) profiles ++ profilePtrs 1 (fun p => p.protocol) profiles ++
    profilePtrs 2 (fun p => p.roamingProtocol) profiles ++
    profilePtrs 3 (fun p => p.user) profiles ++ profilePtrs 4 (fun p => p.password) profiles ++
    profilePtrs 6 (fun p => p.mvnoMatchData) profiles

/-- The blocks of the frame the function callocs. -/
def requestCallocs : Request → List ℕ
  | .dispatchString str => calloced [copyHidlStringToRil 0 (cString str)]
  | .dispatchStrings strs => 0 :: calloced (stringPtrs 1 (strs.map cString))
  | .dispatchStringsVec data => 0 :: calloced (stringPtrs 1 data)
  | .dispatchInts _ => [0]
  | .dispatchCallForwardStatus callInfo => calloced [copyHidlStringToRil 1 callInfo.number]
  | .dispatchIccApdu message => calloced [copyHidlStringToRil 1 message.data]
  | .iccIOForApp iccIo => calloced (stringPtrs 1 [iccIo.path, iccIo.data, iccIo.pin2, iccIo.aid])
  | .writeSmsToSim args => calloced (stringPtrs 1 [args.pdu, args.smsc])
  | .setInitialAttachApn version _ info _ _ =>
    if version ≤ 14 then [1, 2, 3, 4, 5] else calloced (initialAttachApnPtrs info)
  | .setGsmBroadcastConfig _ => []
  | .setCdmaBroadcastConfig _ => []
  | .dispatchImsGsmSms message =>
    match message.gsmMessage with
    | [sms] => 1 :: calloced (stringPtrs 2 [sms.smscPdu, sms.pdu])
    | _ => []
  | .dispatchImsCdmaSms _ => []

def BufferRequest.callocs : BufferRequest → List ℕ
  | .ofRequest request => requestCallocs request
  | .dial dialInfo =>
    calloced [copyHidlStringToRil 1 dialInfo.address,
      copyHidlStringToRil 3 (uusData dialInfo.uusInfo)]
  | .nvWriteItem _ value => calloced [copyHidlStringToRil 1 value]
  | .requestIccSimAuthentication _ authData aid => calloced (stringPtrs 1 [authData, aid])
  | .setDataProfile version profiles isRoaming =>
    if version ≤ 14 then
      1 :: 0 :: calloced (stringPtrs 2 (profiles.flatMap (dataProfileStrings isRoaming)))
    else 1 :: 0 :: calloced (dataProfilePtrsV15 profiles)
  | .setAllowedCarriers _ => [1, 2]
  | .setAttachApnInd => [1, 2, 3, 4, 5]
  | _ => []

/-- What the function frees behind my_enqueue where it does not leave that to ril.cpp. -/
def requestCleanup (pRI : RequestInfo) : Request → List (Op HeapBlock)
  | .dispatchString str =>
    if ignoreBF pRI then memsetAndFreeStrings false (places [copyHidlStringToRil 0 (cString str)])
    else []
  | .dispatchStrings strs =>
    if ignoreBF pRI then
      releaseThrough false (.payload 0) (places (stringPtrs 1 (strs.map cString))) ++
        [.free (.payload 0) 0]
    else []
  | .dispatchStringsVec data =>
    if ignoreBF pRI then
      releaseThrough false (.payload 0) (places (stringPtrs 1 data)) ++ [.free (.payload 0) 0]
    else []
  | .dispatchInts _ => if ignoreBF pRI then [.free (.payload 0) 0] else []
  | .dispatchCallForwardStatus callInfo =>
    if ignoreBF pRI then memsetAndFreeStrings false (places [copyHidlStringToRil 1 callInfo.number])
    else []
  | .setInitialAttachApn version _ info _ _ =>
    if version ≤ 14 then [] else memsetAndFreeStrings false (places (initialAttachApnPtrs info))
  | _ => []

def BufferRequest.cleanup (pRI : RequestInfo) : BufferRequest → List (Op HeapBlock)
  | .ofRequest request => requestCleanup pRI request
  | .dial dialInfo =>
    memsetAndFreeStrings false (places [copyHidlStringToRil 1 dialInfo.address,
      copyHidlStringToRil 3 (uusData dialInfo.uusInfo)])
  | .nvWriteItem _ value => memsetAndFreeStrings false (places [copyHidlStringToRil 1 value])
  | .setDataProfile version profiles _ =>
    if version ≤ 14 then []
    else
      releaseThrough false (.payload 1) (places (dataProfilePtrsV15 profiles)) ++
        [.free (.payload 1) 0, .free (.payload 0) 0]
  | .setAllowedCarriers _ => [.free (.payload 1) 0, .free (.payload 2) 0]
  | .setAttachApnInd =>
    memsetAndFreeStrings false (places ([1, 2, 3, 4, 5].map fun b => some ⟨b, 0⟩))
  | _ => []

/-! ## clearPendingBuffer -/

inductive Field where
  | int | uchar | pointer
  deriving DecidableEq, Repr

def Field.member (abi : Abi) : Field → Member
  | .int => intMember 0
  | .uchar => ucharMember 0
  | .pointer => pointerMember abi none .cstr

/-- A pointer that stands in memory. -/
def loadPointer (view : View) (off : ℕ) : Option Pointer :=
  match view off with
  | .fragment p _ => some p
  | .byte _ => none

/-- The pointer member behind these members of a struct. -/
def pointerBehind (abi : Abi) (view : View) (front : List Field) : Option Pointer :=
  loadPointer view (memberOffset 0 (front.map (Field.member abi)) abi.pointer)

/-- Reading or writing behind a pointer. -/
def touch (buf : Option Place) : List (Op HeapBlock) := (buf.map fun p => Op.use p.1).toList

@[simp] theorem frees_touch (buf : Option Place) : frees (touch buf) = [] := by cases buf <;> rfl

@[simp] theorem allocations_touch (buf : Option Place) : allocations (touch buf) = [] := by
  cases buf <;> rfl

/-- buf is the pointer, view what stands behind it. -/
def clearPendingBuffer (abi : Abi) (m : Memory) (bf : BufFmts) (buf : Option Place) (view : View)
    (buflen : ℕ) : List (Op HeapBlock) :=
  let member := fun front => pointerBehind abi view front
  match bf with
  | .ints => touch buf
  | .str => memsetAndFreeStrings true [buf]
  | .strs =>
    (List.range (buflen / abi.pointer)).flatMap fun i =>
      touch buf ++ memsetAndFreeStrings true (places [loadPointer view (i * abi.pointer)])
  | .callFWST => touch buf ++ memsetAndFreeStrings true (places [member [.int, .int, .int, .int]])
  | .iccAPDU =>
    touch buf ++ memsetAndFreeStrings true (places [member [.int, .int, .int, .int, .int, .int]])
  | .simio =>
    touch buf ++ memsetAndFreeStrings true (places [member [.int, .int],
      member [.int, .int, .pointer, .int, .int, .int],
      member [.int, .int, .pointer, .int, .int, .int, .pointer],
      member [.int, .int, .pointer, .int, .int, .int, .pointer, .pointer]])
  | .wrSMSSIM =>
    touch buf ++ memsetAndFreeStrings true (places [member [.int, .pointer], member [.int]])
  | .attchAPN =>
    touch buf ++ memsetAndFreeStrings true (places [member [], member [.pointer],
      member [.pointer, .pointer, .int], member [.pointer, .pointer, .int, .pointer],
      member [.pointer, .pointer, .int, .pointer, .pointer]])
  | .imsSms =>
    touch buf ++ match member [.int, .uchar, .int] with
    | none => []
    | some pStrings =>
      .use (.payload pStrings.block) ::
        (memsetAndFreeStrings true (places [loadPointer (m.deref pStrings) 0,
          loadPointer (m.deref pStrings) abi.pointer]) ++
        [.free (.payload pStrings.block) pStrings.offset])
  | .simauth =>
    touch buf ++ memsetAndFreeStrings true (places [member [.int], member [.int, .pointer]])
  | .dataprof =>
    (List.range (buflen / abi.pointer)).flatMap fun i =>
      touch buf ++ match loadPointer view (i * abi.pointer) with
      | none => []
      | some dp =>
        let string := fun front => pointerBehind abi (m.deref dp) front
        .use (.payload dp.block) ::
          (memsetAndFreeStrings true (places [string [.int], string [.int, .pointer],
            string [.int, .pointer, .pointer, .int],
            string [.int, .pointer, .pointer, .int, .pointer]]) ++
          [.free (.payload dp.block) dp.offset])
  | .ignore | .void | .raw => []

/-! ## The ledger of a request -/

/-- my_enqueue copies the buffer and my_dequeue frees the copy on this condition. -/
def Copies (bf : BufFmts) (buflen : ℕ) : Prop := bf ≠ .void ∧ buflen ≠ 0

instance (bf : BufFmts) (buflen : ℕ) : Decidable (Copies bf buflen) :=
  inferInstanceAs (Decidable (_ ∧ _))

/-- The view behind a pointer; nothing is read behind NULL. -/
def viewOf (buf : Option View) : View := buf.getD fun _ => .byte 0

/-- The vendor may read each of the request's blocks while it is handed over. -/
def onRequest (blocks : List HeapBlock) : List (Op HeapBlock) := blocks.map .use

def myEnqueueDirect (abi : Abi) (m : Memory) (callocs : List HeapBlock) (bf : BufFmts)
    (data : Option Place) (direct : OnRequest View) : List (Op HeapBlock) :=
  onRequest callocs ++
    if bf ≠ .ignore then clearPendingBuffer abi m bf data (viewOf direct.buf) direct.buflen else []

def myEnqueuePending (bf : BufFmts) (data : Option Place) (buflen : ℕ) : List (Op HeapBlock) :=
  .alloc .node ::
    if Copies bf buflen then .alloc .copy :: touch data else []

/-- m is the memory the entry is dequeued in. -/
def myDequeueOps (abi : Abi) (m : Memory) (callocs : List HeapBlock) (p : ProxyReqInfo View) :
    List (Op HeapBlock) :=
  .use .node :: (onRequest callocs ++
    (if Copies p.bf p.buflen then
      .use .copy :: (clearPendingBuffer abi m p.bf (some (.copy, 0)) (viewOf p.buf) p.buflen ++
        [.free .copy 0])
    else []) ++ [.free .node 0])

/-- All of a request until it has been handed over. m is the memory my_enqueue is called in, m' the
memory at the dequeue. -/
def ledger (abi : Abi) (junk : View) (m m' : Memory) (s : ChannelState View) (request : ℕ)
    (pRI : RequestInfo) (r : BufferRequest) (call : Call) : List (Op HeapBlock) :=
  let callocs := r.callocs.map HeapBlock.payload
  let data := call.data.map toPlace
  let buf := call.buf m
  callocs.map Op.alloc ++
    match (myEnqueue (memcpy junk) s request buf call.buflen call.bf pRI).2 with
    | some direct => myEnqueueDirect abi m callocs call.bf data direct ++ r.cleanup pRI
    | none =>
      myEnqueuePending call.bf data call.buflen ++ r.cleanup pRI ++
        myDequeueOps abi m' callocs
          ⟨pRI, queuedBuf (memcpy junk) buf call.buflen call.bf, call.buflen, call.bf⟩

/-- Whatever memory the call meets, the ledger of its request is balanced. -/
def CallOwned (abi : Abi) (s : ChannelState View) (request : ℕ) (pRI : RequestInfo)
    (r : BufferRequest) (call : Call) : Prop :=
  ∀ (junk : View) (m m' : Memory), m.Holds call.frame → m'.Holds call.frame.lasting →
    Balanced (ledger abi junk m m' s request pRI r call)

def Owned (abi : Abi) (header : RilCdmaSmsStructs) (s : ChannelState View) (request : ℕ)
    (pRI : RequestInfo) (r : BufferRequest) : Prop :=
  ∀ call, r.call abi header pRI = some call → CallOwned abi s request pRI r call

/-! ## Direct or queued -/

/-- The request finds its channel busy. -/
def Pending {β : Type} (s : ChannelState β) (request : ℕ) (bf : BufFmts) (pRI : RequestInfo) :
    Prop :=
  bf ≠ .ignore ∧ ∃ c, queuedChannel pRI.pCI.proxyId = some c ∧
    s.cmdProxyBusy c (testedFlag c request pRI.socketId.slot) = true

instance {β : Type} (s : ChannelState β) (request : ℕ) (bf : BufFmts) (pRI : RequestInfo) :
    Decidable (Pending s request bf pRI) := inferInstanceAs (Decidable (_ ∧ _))

variable {β : Type} {s : ChannelState β} {request : ℕ} {bf : BufFmts} {pRI : RequestInfo}

theorem myEnqueue_of_pending (copy : Option β → ℕ → β) (buf : Option β) (buflen : ℕ)
    (h : Pending s request bf pRI) :
    ∃ c, queuedChannel pRI.pCI.proxyId = some c ∧
      myEnqueue copy s request buf buflen bf pRI =
        ((s.setBusy c (testedFlag c request pRI.socketId.slot) true).setQueue c pRI.socketId.slot
          (s.proxyCmd c pRI.socketId.slot ++ [⟨pRI, queuedBuf copy buf buflen bf, buflen, bf⟩]),
          none) := by
  obtain ⟨hi, c, hc, hb⟩ := h
  refine ⟨c, hc, ?_⟩
  simp only [myEnqueue, hi, hc, hb, if_true, if_false]
  rfl

theorem myEnqueue_of_not_pending (copy : Option β → ℕ → β) (buf : Option β) (buflen : ℕ)
    (h : ¬ Pending s request bf pRI) :
    (myEnqueue copy s request buf buflen bf pRI).2 = some ⟨request, buf, buflen, pRI⟩ := by
  by_cases hb : Bypasses bf pRI
  · rw [myEnqueue_bypass copy s hb]
  · obtain ⟨hi, hq⟩ := not_or.mp hb
    obtain ⟨c, hc⟩ := Option.ne_none_iff_exists'.mp hq
    have clear : s.cmdProxyBusy c (testedFlag c request pRI.socketId.slot) = false := by
      by_contra hbusy
      exact h ⟨hi, c, hc, by simpa using hbusy⟩
    rw [myEnqueue_clear copy s hi hc clear]

end RilRequestBuffers
