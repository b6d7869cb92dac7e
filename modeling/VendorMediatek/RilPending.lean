import VendorMediatek.PointerList
import VendorMediatek.RilCommandTable

/-!
# Pending requests

`addRequestToList`, `RIL_onRequestAck`, `RIL_onRequestComplete` and `sendErrorResponse` on the lists
of pending requests of the two slots. A request block lies at an address of the heap, which is its
RIL_Token; what stands at an address that is not allocated is arbitrary.
-/

namespace RilPending

open PointerList
open RilChannelQueue (RILSocketId)
open RilCommandTable (CommandInfo sCommands commandIndex)

/-- RIL_registerSocket leaves it at that, since no row of s_commands is a vendor's. -/
def mtkCommandStart : ℕ := 0

/-- The entry of s_commands that a code leads to, if it leads into the table. -/
def entry (request : Int32) : Option CommandInfo :=
  let ret := commandIndex mtkCommandStart request
  if ret < 0 then none else sCommands[ret.toInt.toNat]?

theorem addRequestToList_entry (serial : Int32) (slotId : ℕ) (request : Int32) :
    RilCommandTable.addRequestToList sCommands mtkCommandStart true serial slotId request =
      (entry request).elim .outside fun pCI =>
        .added ⟨serial, serial = -1, pCI, slotId, RilCommandTable.cidOf pCI slotId⟩ := by
  rw [RilCommandTable.addRequestToList, if_neg (by decide)]
  dsimp only [entry]
  split
  · rfl
  · cases sCommands[(commandIndex mtkCommandStart request).toInt.toNat]? with
    | none => rfl
    | some pCI => rfl

/-- birth counts the requests before, for the proofs only. -/
structure RequestInfo where
  token : ℤ
  pCI : CommandInfo
  pNext : ℕ
  cancelled : ℤ
  isLocal : ℤ
  socketId : RILSocketId
  wasAckSent : ℤ
  birth : ℕ
  deriving DecidableEq, Repr

def rilRequestGetImei : Int32 := 38
def rilRequestGetImeisv : Int32 := 39
def rilRequestDeviceIdentity : Int32 := 98
def rilESuccess : ℤ := 0

/-- behind is what is read at an index that is none of s_commands. -/
structure Config where
  version : ℕ
  sizeofPointer : ℕ
  behind : Int32 → CommandInfo

def commandInfo (c : Config) (request : Int32) : CommandInfo :=
  (entry request).getD (c.behind request)

inductive ResponseType where
  | solicited | solicitedAckExp
  deriving DecidableEq, Repr

/-- What a response function is handed: a pointer, or the address of Device_ID. -/
inductive Payload where
  | pointer (p : ℕ)
  | deviceId (socketId : RILSocketId)
  deriving DecidableEq, Repr

structure Response where
  slotId : RILSocketId
  responseType : ResponseType
  token : ℤ
  e : ℤ
  response : Payload
  responselen : ℕ
  deriving DecidableEq, Repr

/-- The members of Device_ID that are set here. -/
structure RilIdentity where
  imei : ℕ
  imeisv : ℕ
  deriving DecidableEq, Repr

/-- live lists the request blocks that are allocated. The calls of response functions, of
acknowledgeRequest and of grabPartialWakeLock are recorded, the latest first, whether there was a
call through NULL, and for the proofs the requests that were answered. -/
structure State where
  heap : ℕ → RequestInfo
  sPendingRequests : RILSocketId → ℕ
  live : List ℕ
  deviceId : RILSocketId → RilIdentity
  responses : List Response
  acknowledged : List (RILSocketId × ℤ)
  grabs : ℕ
  births : ℕ
  answered : List ℕ
  crashed : Bool

def initial (heap : ℕ → RequestInfo) : State :=
  ⟨heap, fun _ => 0, [], fun _ => ⟨0, 0⟩, [], [], 0, 0, [], false⟩

namespace State

variable (s : State)

/-- The list of a slot as it hangs in the heap. -/
def links (slot : RILSocketId) : Links where
  head := s.sPendingRequests slot
  next cell := (s.heap cell).pNext

def setBlock (addr : ℕ) (pRI : RequestInfo) : State :=
  { s with heap := Function.update s.heap addr pRI }

/-- *ppCur = pointer -/
def store (slot : RILSocketId) (place : Place) (pointer : ℕ) : State :=
  match place with
  | .head => { s with sPendingRequests := Function.update s.sPendingRequests slot pointer }
  | .next cell => s.setBlock cell { s.heap cell with pNext := pointer }

end State

/-- calloc comes back with addr, which is 0 where it fails. -/
def addRequestToList (c : Config) (s : State) (serial : ℤ) (slotId : RILSocketId)
    (request : Int32) (addr : ℕ) : State :=
  if addr = 0 then s
  else
    let pRI : RequestInfo := {
      token := serial
      pCI := commandInfo c request
      pNext := s.sPendingRequests slotId
      cancelled := 0
      isLocal := if serial = -1 then 1 else 0
      socketId := slotId
      wasAckSent := 0
      birth := s.births }
    { s.setBlock addr pRI with
      live := addr :: s.live
      births := s.births + 1
      sPendingRequests := Function.update s.sPendingRequests slotId addr }

/-- The walk does not go beyond the allocated blocks. -/
def checkAndDequeueRequestInfoIfAck (s : State) (pRI : ℕ) (isAck : Bool) : Bool × State :=
  if pRI = 0 then (false, s)
  else
    let slot := (s.heap pRI).socketId
    match (s.links slot).find pRI s.live.length .head with
    | none => (false, s)
    | some ppCur =>
      if isAck then (true, s.setBlock pRI { s.heap pRI with wasAckSent := 1 })
      else (true, s.store slot ppCur ((s.links slot).next ((s.links slot).load ppCur)))

def rilOnRequestAck (s : State) (t : ℕ) : State :=
  let (found, s) := checkAndDequeueRequestInfoIfAck s t true
  if found = false then s
  else
    let pRI := s.heap t
    if pRI.cancelled = 0 then { s with acknowledged := (pRI.socketId, pRI.token) :: s.acknowledged }
    else s

def free (s : State) (addr : ℕ) : State := { s with live := s.live.erase addr }

/-- The payload of a vendor's RIL_onRequestComplete. -/
structure Completion where
  e : ℤ
  response : ℕ
  responselen : ℕ
  deriving DecidableEq, Repr

/-- A local request only leaves the identity it asked for. -/
def completeLocal (s : State) (pRI : RequestInfo) (response : ℕ) : State :=
  let i := pRI.socketId
  if pRI.pCI.requestNumber = rilRequestGetImei then
    { s with deviceId := Function.update s.deviceId i { s.deviceId i with imei := response } }
  else if pRI.pCI.requestNumber = rilRequestGetImeisv then
    { s with deviceId := Function.update s.deviceId i { s.deviceId i with imeisv := response } }
  else s

def responseType (c : Config) (pRI : RequestInfo) : ResponseType :=
  if 13 ≤ c.version ∧ pRI.wasAckSent = 1 then .solicitedAckExp else .solicited

def responseOf (c : Config) (pRI : RequestInfo) (x : Completion) : Response :=
  let identity := pRI.pCI.requestNumber = rilRequestDeviceIdentity
  { slotId := pRI.socketId
    responseType := responseType c pRI
    token := pRI.token
    e := if identity then rilESuccess else x.e
    response := if identity then .deviceId pRI.socketId else .pointer x.response
    responselen := if identity then 4 * c.sizeofPointer else x.responselen }

/-- A command without a response function is not answered. -/
def State.respond (s : State) (pRI : RequestInfo) (r : Response) : State :=
  if pRI.pCI.responseFunction.isSome then
    { s with responses := r :: s.responses, answered := pRI.birth :: s.answered }
  else s

/-- s_prevEcopsData is left out, which nothing sets, and the release of the channel. -/
def rilOnRequestComplete (c : Config) (s : State) (t : ℕ) (x : Completion) : State :=
  let (found, s) := checkAndDequeueRequestInfoIfAck s t false
  if found = false then s
  else
    let pRI := s.heap t
    if 0 < pRI.isLocal then free (completeLocal s pRI x.response) t
    else if pRI.cancelled = 0 then
      let grabs := if responseType c pRI = .solicitedAckExp then s.grabs + 1 else s.grabs
      free (State.respond { s with grabs := grabs } pRI (responseOf c pRI x)) t
    else free s t

/-- Nothing is checked: a NULL pRI and a NULL response function are called through. The request
stays in its list. -/
def sendErrorResponse (s : State) (t : ℕ) (err : ℤ) : State :=
  let pRI := s.heap t
  if t = 0 ∨ pRI.pCI.responseFunction = none then { s with crashed := true }
  else
    s.respond pRI {
      slotId := pRI.socketId
      responseType := .solicited
      token := pRI.token
      e := err
      response := .pointer 0
      responselen := 0 }

end RilPending
