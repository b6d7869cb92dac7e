import VendorMediatek.CMemory
import VendorMediatek.RilChannelQueue

/-!
# RIL dispatch functions

What the HIDL requests of ril_service.cpp hand to `my_enqueue` (built with MTK_HARDWARE): the
blocks they set up, the data pointer, buflen and the buffer format, and the type ril.h declares for
the request's data. Every allocation succeeds; a request whose allocation fails is answered with
RIL_E_NO_MEMORY and never reaches `my_enqueue`.
-/

namespace RilDispatch

open CMemory RilChannelQueue

inductive Abi where
  | ilp32 | lp64
  deriving DecidableEq, Repr

def Abi.pointer : Abi → ℕ
  | .ilp32 => 4
  | .lp64 => 8

/-- An int, lowest byte first. -/
def intBytes (x : UInt32) : List UInt8 :=
  [x.toUInt8, (x >>> 8).toUInt8, (x >>> 16).toUInt8, (x >>> 24).toUInt8]

def boolToInt (b : Bool) : UInt32 := if b then 1 else 0

abbrev HidlString := List UInt8

/-- The characters in front of a string's terminator. -/
def cString (s : List UInt8) : List UInt8 := s.takeWhile (· ≠ 0)

/-- The n bytes strncpy writes. -/
def strncpy (src : List UInt8) (n : ℕ) : List UInt8 :=
  let s := (cString src).take n
  s ++ List.replicate (n - s.length) 0

/-- The pointer copyHidlStringToRil leaves in dest, where block is the number of its allocation. -/
def copyHidlStringToRil (block : ℕ) (src : HidlString) : Option Pointer :=
  if src.length = 0 then none else some ⟨block, 0⟩

/-- The allocation of copyHidlStringToRil; an empty string has none. -/
def hidlBlock (src : HidlString) : Block :=
  ⟨.heap, if src.length = 0 then [] else bytes (strncpy src (src.length + 1))⟩

def intMember (x : UInt32) : Member := ⟨4, bytes (intBytes x), .bytes 4⟩

def ucharMember (x : UInt8) : Member := ⟨1, bytes [x], .bytes 1⟩

def pointerMember (abi : Abi) (p : Option Pointer) (t : CType) : Member :=
  ⟨abi.pointer, pointerCells abi.pointer p, .ptr t⟩

/-- A char * that copyHidlStringToRil has filled. -/
def stringMember (abi : Abi) (block : ℕ) (src : HidlString) : Member :=
  pointerMember abi (copyHidlStringToRil block src) .cstr

/-- The arguments of one my_enqueue, with the memory and the type behind the data pointer. -/
structure Call where
  frame : Frame
  data : Option Pointer
  buflen : ℕ
  bf : BufFmts
  type : CType

/-- A struct on the stack, with the blocks its members point to. -/
def structCall (bf : BufFmts) (members : List Member) (blocks : List Block) : Call where
  frame := .ofBlocks (⟨.stack, structCells members⟩ :: blocks)
  data := some ⟨0, 0⟩
  buflen := (structCells members).length
  bf := bf
  type := structType 0 members

def ignoreBF (pRI : RequestInfo) : Bool :=
  pRI.pCI.proxyId ≠ rilCmdProxy1 && pRI.pCI.proxyId ≠ rilCmdProxy3

def fmtUnlessIgnored (pRI : RequestInfo) (bf : BufFmts) : BufFmts :=
  if ignoreBF pRI then .ignore else bf

def dispatchString (abi : Abi) (pRI : RequestInfo) (str : List UInt8) : Call where
  frame := .ofBlocks [hidlBlock (cString str)]
  data := copyHidlStringToRil 0 (cString str)
  buflen := abi.pointer
  bf := fmtUnlessIgnored pRI .str
  type := .cstr

/-- An array of char *, whose strings are the blocks from first on. -/
def stringPointers (abi : Abi) (first : ℕ) (data : List HidlString) : List Member :=
  packed (data.mapIdx fun i s => stringMember abi (first + i) s)

/-- dispatchStrings with a hidl_vec. -/
def dispatchStringsVec (abi : Abi) (pRI : RequestInfo) (data : List HidlString) : Call where
  frame := .ofBlocks (⟨.heap, structFields 0 (stringPointers abi 1 data)⟩ :: data.map hidlBlock)
  data := some ⟨0, 0⟩
  buflen := data.length * abi.pointer
  bf := fmtUnlessIgnored pRI .strs
  type := structType 0 (stringPointers abi 1 data)

/-- dispatchStrings with C strings as its variable arguments. -/
def dispatchStrings (abi : Abi) (pRI : RequestInfo) (strs : List (List UInt8)) : Call :=
  dispatchStringsVec abi pRI (strs.map cString)

def dispatchInts (pRI : RequestInfo) (ints : List UInt32) : Call where
  frame := .ofBlocks [⟨.heap, structFields 0 (packed (ints.map intMember))⟩]
  data := some ⟨0, 0⟩
  buflen := ints.length * 4
  bf := fmtUnlessIgnored pRI .ints
  type := structType 0 (packed (ints.map intMember))

structure CallForwardInfo where
  status : UInt32
  reason : UInt32
  serviceClass : UInt32
  toa : UInt32
  number : HidlString
  timeSeconds : UInt32

def dispatchCallForwardStatus (abi : Abi) (pRI : RequestInfo) (callInfo : CallForwardInfo) :
    Call :=
  structCall (fmtUnlessIgnored pRI .callFWST)
    [intMember callInfo.status, intMember callInfo.reason, intMember callInfo.serviceClass,
      intMember callInfo.toa, stringMember abi 1 callInfo.number, intMember callInfo.timeSeconds]
    [hidlBlock callInfo.number]

structure SimApdu where
  sessionId : UInt32
  cla : UInt32
  instruction : UInt32
  p1 : UInt32
  p2 : UInt32
  p3 : UInt32
  data : HidlString

def dispatchIccApdu (abi : Abi) (message : SimApdu) : Call :=
  structCall .iccAPDU
    [intMember message.sessionId, intMember message.cla, intMember message.instruction,
      intMember message.p1, intMember message.p2, intMember message.p3,
      stringMember abi 1 message.data]
    [hidlBlock message.data]

structure IccIo where
  command : UInt32
  fileId : UInt32
  path : HidlString
  p1 : UInt32
  p2 : UInt32
  p3 : UInt32
  data : HidlString
  pin2 : HidlString
  aid : HidlString

def iccIOForApp (abi : Abi) (iccIo : IccIo) : Call :=
  structCall .simio
    [intMember iccIo.command, intMember iccIo.fileId, stringMember abi 1 iccIo.path,
      intMember iccIo.p1, intMember iccIo.p2,
      intMember (if iccIo.command = 0xc0 ∧ iccIo.p3 = 0 then 15 else iccIo.p3),
      stringMember abi 2 iccIo.data, stringMember abi 3 iccIo.pin2, stringMember abi 4 iccIo.aid]
    [hidlBlock iccIo.path, hidlBlock iccIo.data, hidlBlock iccIo.pin2, hidlBlock iccIo.aid]

structure SmsWriteArgs where
  status : UInt32
  pdu : HidlString
  smsc : HidlString

def writeSmsToSim (abi : Abi) (smsWriteArgs : SmsWriteArgs) : Call :=
  structCall .wrSMSSIM
    [intMember smsWriteArgs.status, stringMember abi 1 smsWriteArgs.pdu,
      stringMember abi 2 smsWriteArgs.smsc]
    [hidlBlock smsWriteArgs.pdu, hidlBlock smsWriteArgs.smsc]

/-! ## Attach APN -/

inductive MvnoType where
  | imsi | gid | spn | none | unknown
  deriving DecidableEq, Repr

/-- The literals "imsi", "gid", "spn" and "". -/
def convertMvnoTypeToString : MvnoType → Option (List UInt8)
  | .imsi => some [105, 109, 115, 105]
  | .gid => some [103, 105, 100]
  | .spn => some [115, 112, 110]
  | .none => some []
  | .unknown => Option.none

structure DataProfileInfo where
  apn : HidlString
  protocol : HidlString
  roamingProtocol : HidlString
  authType : UInt32
  user : HidlString
  password : HidlString
  supportedApnTypesBitmap : UInt32
  bearerBitmap : UInt32
  mtu : UInt32
  mvnoType : MvnoType
  mvnoMatchData : HidlString

/-- A string that is empty gets an allocation of one zero byte after all. -/
def hidlBlockOrEmpty (src : HidlString) : Block :=
  if src.length = 0 then ⟨.heap, bytes [0]⟩ else hidlBlock src

/-- The string p points to in the value of gsm.sim.operator.numeric. The first slot takes what
stands in front of the comma, the other what stands behind; without a comma strchr leaves it
NULL, and strncpy reads it. -/
def operatorNumeric (pRI : RequestInfo) (prop : List UInt8) : Option (List UInt8) :=
  if prop.length = 0 then some []
  else if pRI.socketId = .socket1 then some (prop.takeWhile (· ≠ 44))
  else if 44 ∈ prop then some (prop.dropWhile (· ≠ 44)).tail
  else none

/-- The members of RIL_InitialAttachApn in front of dualApnPlmnList. -/
def initialAttachApnFields (abi : Abi) (authType : UInt32) : List Member :=
  let p block := pointerMember abi (some ⟨block, 0⟩) .cstr
  [p 1, p 2, intMember authType, p 3, p 4, p 5, intMember 0]

/-- dualApnPlmnList, the last member, is left out of buflen. -/
def initialAttachApn (abi : Abi) (protocol : HidlString) (info : DataProfileInfo)
    (numeric : List UInt8) : Call :=
  let iaa := structCall .attchAPN
    (initialAttachApnFields abi info.authType ++ [pointerMember abi none (.ptr .cstr)])
    [hidlBlockOrEmpty info.apn, hidlBlockOrEmpty protocol, hidlBlockOrEmpty info.user,
      hidlBlockOrEmpty info.password, ⟨.heap, bytes (strncpy numeric 8)⟩]
  { iaa with buflen := iaa.buflen - abi.pointer }

def initialAttachApnV15 (abi : Abi) (info : DataProfileInfo) (modemCognitive : Bool)
    (mvnoType : List UInt8) : Call :=
  structCall .ignore
    [stringMember abi 1 info.apn, stringMember abi 2 info.protocol,
      stringMember abi 3 info.roamingProtocol, intMember info.authType,
      stringMember abi 4 info.user, stringMember abi 5 info.password,
      intMember info.supportedApnTypesBitmap, intMember info.bearerBitmap,
      intMember (boolToInt modemCognitive), intMember info.mtu,
      pointerMember abi (some ⟨6, 0⟩) .cstr, stringMember abi 7 info.mvnoMatchData]
    [hidlBlock info.apn, hidlBlock info.protocol, hidlBlock info.roamingProtocol,
      hidlBlock info.user, hidlBlock info.password, ⟨.static, bytes (mvnoType ++ [0])⟩,
      hidlBlock info.mvnoMatchData]

/-- version is that of the vendor's RIL functions. -/
def setInitialAttachApn (abi : Abi) (pRI : RequestInfo) (version : ℕ) (prop : List UInt8)
    (info : DataProfileInfo) (modemCognitive isRoaming : Bool) : Option Call :=
  if version ≤ 14 then
    let protocol := if isRoaming then info.roamingProtocol else info.protocol
    (operatorNumeric pRI prop).map (initialAttachApn abi protocol info)
  else (convertMvnoTypeToString info.mvnoType).map (initialAttachApnV15 abi info modemCognitive)

/-! ## Broadcast configurations and IMS messages -/

/-- An array on the stack of pointers to structs that are on the stack as well. -/
def broadcastConfigCall (abi : Abi) (size : ℕ) (configs : List (List Member)) : Call :=
  let ptrs := packed (configs.mapIdx fun i c =>
    pointerMember abi (some ⟨1, i * size⟩) (structType 0 c))
  { frame := .ofBlocks [⟨.stack, structFields 0 ptrs⟩, ⟨.stack, configs.flatMap structCells⟩]
    data := some ⟨0, 0⟩
    buflen := configs.length * abi.pointer
    bf := .raw
    type := structType 0 ptrs }

structure GsmBroadcastSmsConfigInfo where
  fromServiceId : UInt32
  toServiceId : UInt32
  fromCodeScheme : UInt32
  toCodeScheme : UInt32
  selected : Bool

def gsmBci (info : GsmBroadcastSmsConfigInfo) : List Member :=
  [intMember info.fromServiceId, intMember info.toServiceId, intMember info.fromCodeScheme,
    intMember info.toCodeScheme, ucharMember (boolToInt info.selected).toUInt8]

def sizeofGsmBci : ℕ := 20

theorem length_gsmBci (info : GsmBroadcastSmsConfigInfo) :
    (structCells (gsmBci info)).length = sizeofGsmBci := by
  simp [structCells, gsmBci, structFields, padding, maxAlign, intMember, ucharMember, intBytes,
    sizeofGsmBci]

def setGsmBroadcastConfig (abi : Abi) (configInfo : List GsmBroadcastSmsConfigInfo) : Call :=
  broadcastConfigCall abi sizeofGsmBci (configInfo.map gsmBci)

structure CdmaBroadcastSmsConfigInfo where
  serviceCategory : UInt32
  language : UInt32
  selected : Bool

structure CdmaSmsAddress where
  digitMode : UInt32
  numberMode : UInt32
  numberType : UInt32
  numberPlan : UInt32
  digits : List UInt8

structure CdmaSmsSubaddress where
  subaddressType : UInt32
  odd : Bool
  digits : List UInt8

structure CdmaSmsMessage where
  teleserviceId : UInt32
  isServicePresent : Bool
  serviceCategory : UInt32
  address : CdmaSmsAddress
  subAddress : CdmaSmsSubaddress
  bearerData : List UInt8

/-- ril_cdma_sms.h is not part of the repository: of its two structs only the bytes they are
filled with are known here. -/
structure RilCdmaSms where
  sizeofConfig : ℕ
  cdmaBci : CdmaBroadcastSmsConfigInfo → List UInt8
  length_config : ∀ info, (cdmaBci info).length = sizeofConfig
  config_pos : 0 < sizeofConfig
  sizeofMessage : ℕ
  constructCdmaSms : CdmaSmsMessage → List UInt8
  length_message : ∀ sms, (constructCdmaSms sms).length = sizeofMessage
  message_pos : 0 < sizeofMessage

def setCdmaBroadcastConfig (abi : Abi) (header : RilCdmaSms)
    (configInfo : List CdmaBroadcastSmsConfigInfo) : Call :=
  broadcastConfigCall abi header.sizeofConfig
    (configInfo.map fun info => [⟨1, bytes (header.cdmaBci info), .bytes header.sizeofConfig⟩])

structure GsmSmsMessage where
  smscPdu : HidlString
  pdu : HidlString

structure ImsSmsMessage where
  retry : Bool
  messageRef : UInt32
  cdmaMessage : List CdmaSmsMessage
  gsmMessage : List GsmSmsMessage

/-- RIL_IMS_SMS_Message, whose union holds message. -/
def imsSmsMembers (tech : UInt32) (m : ImsSmsMessage) (message : Member) : List Member :=
  [intMember tech, ucharMember (boolToInt m.retry).toUInt8, intMember m.messageRef, message]

def radioTech3gpp : UInt32 := 1
def radioTech3gpp2 : UInt32 := 2

def dispatchImsGsmSms (abi : Abi) (message : ImsSmsMessage) : Option Call :=
  match message.gsmMessage with
  | [sms] =>
    let pStrings := stringPointers abi 2 [sms.smscPdu, sms.pdu]
    let rism := structCall .imsSms
      (imsSmsMembers radioTech3gpp message
        (pointerMember abi (some ⟨1, 0⟩) (structType 0 pStrings)))
      [⟨.heap, structFields 0 pStrings⟩, hidlBlock sms.smscPdu, hidlBlock sms.pdu]
    some { rism with buflen := 4 + 1 + 4 + abi.pointer * 2 }
  | _ => none

def dispatchImsCdmaSms (abi : Abi) (header : RilCdmaSms) (message : ImsSmsMessage) : Option Call :=
  match message.cdmaMessage with
  | [sms] =>
    let rism := structCall .raw
      (imsSmsMembers radioTech3gpp2 message
        (pointerMember abi (some ⟨1, 0⟩) (.bytes header.sizeofMessage)))
      [⟨.stack, bytes (header.constructCdmaSms sms)⟩]
    some { rism with buflen := 4 + 1 + 4 + header.sizeofMessage }
  | _ => none

/-! ## The requests -/

inductive Request where
  | dispatchString (str : List UInt8)
  | dispatchStrings (strs : List (List UInt8))
  | dispatchStringsVec (data : List HidlString)
  | dispatchInts (ints : List UInt32)
  | dispatchCallForwardStatus (callInfo : CallForwardInfo)
  | dispatchIccApdu (message : SimApdu)
  | iccIOForApp (iccIo : IccIo)
  | writeSmsToSim (smsWriteArgs : SmsWriteArgs)
  | setInitialAttachApn (version : ℕ) (prop : List UInt8) (info : DataProfileInfo)
      (modemCognitive isRoaming : Bool)
  | setGsmBroadcastConfig (configInfo : List GsmBroadcastSmsConfigInfo)
  | setCdmaBroadcastConfig (configInfo : List CdmaBroadcastSmsConfigInfo)
  | dispatchImsGsmSms (message : ImsSmsMessage)
  | dispatchImsCdmaSms (message : ImsSmsMessage)

/-- The call of my_enqueue a request makes, if it makes one. -/
def Request.call (abi : Abi) (header : RilCdmaSms) (pRI : RequestInfo) : Request → Option Call
  | .dispatchString str => some (RilDispatch.dispatchString abi pRI str)
  | .dispatchStrings strs => some (RilDispatch.dispatchStrings abi pRI strs)
  | .dispatchStringsVec data => some (RilDispatch.dispatchStringsVec abi pRI data)
  | .dispatchInts ints => some (RilDispatch.dispatchInts pRI ints)
  | .dispatchCallForwardStatus info => some (RilDispatch.dispatchCallForwardStatus abi pRI info)
  | .dispatchIccApdu message => some (RilDispatch.dispatchIccApdu abi message)
  | .iccIOForApp iccIo => some (RilDispatch.iccIOForApp abi iccIo)
  | .writeSmsToSim args => some (RilDispatch.writeSmsToSim abi args)
  | .setInitialAttachApn version prop info modemCognitive isRoaming =>
    RilDispatch.setInitialAttachApn abi pRI version prop info modemCognitive isRoaming
  | .setGsmBroadcastConfig configInfo => some (RilDispatch.setGsmBroadcastConfig abi configInfo)
  | .setCdmaBroadcastConfig configInfo =>
    some (RilDispatch.setCdmaBroadcastConfig abi header configInfo)
  | .dispatchImsGsmSms message => RilDispatch.dispatchImsGsmSms abi message
  | .dispatchImsCdmaSms message => RilDispatch.dispatchImsCdmaSms abi header message

end RilDispatch
