import VendorMediatek.RilLifecycle
import VendorMediatek.RilDispatch

/-!
# Requests that are answered

The functions that the framework calls put a request into the list of its slot and hand it to the
vendor, unless a check fails: then they answer it with an error. Runs of these functions and
`RIL_onRequestComplete`, and whether an answered request is still in a list.
-/

namespace RilPending

open PointerList LabelledRuns
open RilChannelQueue (RILSocketId)
open RilDispatch (HidlString CallForwardInfo SimApdu IccIo SmsWriteArgs DataProfileInfo ImsSmsMessage
  convertMvnoTypeToString radioTech3gpp radioTech3gpp2)

def rilERequestNotSupported : ℤ := 6
def rilENoMemory : ℤ := 37
def rilEInvalidArguments : ℤ := 44

/-! ## The checks of a call -/

/-- An exit that answers with an error. -/
inductive Check where
  -- a failed calloc
  | calloc
  -- copyHidlStringToRil allocates unless the string is empty
  | copyHidlStringToRil (src : HidlString)
  | require (passes : Bool) (err : ℤ)

/-- The error that a call is answered with. Its allocations succeed or fail in their order. -/
def firstError (alloc : ℕ → Bool) : ℕ → List Check → Option ℤ
  | _, [] => none
  | i, .calloc :: checks => if alloc i then firstError alloc (i + 1) checks else some rilENoMemory
  | i, .copyHidlStringToRil src :: checks =>
    if src.length = 0 then firstError alloc i checks
    else if alloc i then firstError alloc (i + 1) checks
    else some rilENoMemory
  | i, .require passes err :: checks =>
    if passes then firstError alloc i checks else some err

/-- The functions with the arguments that their exits depend on, as they are built for the
hardware. Those that are no more than a call of one of the dispatch functions, or put a struct
together without a check (dispatchVoid), are not listed one by one. -/
inductive HidlCall where
  | dispatchVoid (request : Int32)
  | dispatchString (request : Int32) (str : HidlString)
  | dispatchStrings (request : Int32) (strs : List HidlString)
  | dispatchInts (request : Int32)
  | dispatchCallForwardStatus (request : Int32) (callInfo : CallForwardInfo)
  | dispatchIccApdu (request : Int32) (message : SimApdu)
  | dial (address : HidlString) (uusData : Option HidlString)
  | getSignalStrength
  | getTTYMode
  | getCdmaSubscriptionSource
  | iccOpenLogicalChannel
  | getHardwareConfig
  | startLceService
  | setupDataCall (info : DataProfileInfo) (strs : List HidlString)
  | iccIOForApp (iccIo : IccIo)
  | writeSmsToSim (smsWriteArgs : SmsWriteArgs)
  | setInitialAttachApn (info : DataProfileInfo) (isRoaming : Bool)
  | sendImsSms (tech : UInt32) (message : ImsSmsMessage)
  | nvWriteItem (value : HidlString)
  | requestIccSimAuthentication (authData aid : HidlString)
  | setDataProfile (profiles : List DataProfileInfo) (isRoaming : Bool)
  | setAllowedCarriers
  | sendDeviceState (lowDataExpected : Bool)
  | setIndicationFilter

def HidlCall.request (version : ℕ) : HidlCall → Int32
  | .dispatchVoid request | .dispatchString request _ | .dispatchStrings request _
  | .dispatchInts request | .dispatchCallForwardStatus request _
  | .dispatchIccApdu request _ => request
  | .dial _ _ => 10
  | .getSignalStrength => 19
  | .getTTYMode => 81
  | .getCdmaSubscriptionSource => 104
  | .iccOpenLogicalChannel => 115
  | .getHardwareConfig => 124
  | .startLceService => 132
  | .setupDataCall _ _ => 27
  | .iccIOForApp _ => 28
  | .writeSmsToSim _ => 63
  | .setInitialAttachApn _ _ => 111
  | .sendImsSms _ _ => 113
  | .nvWriteItem _ => 119
  | .requestIccSimAuthentication _ _ => 125
  | .setDataProfile _ _ => 128
  | .setAllowedCarriers => 136
  | .sendDeviceState lowDataExpected => if version < 15 ∧ lowDataExpected then 61 else 138
  | .setIndicationFilter => 139

def notSupported : Check := .require false rilERequestNotSupported

def convertsMvnoType (info : DataProfileInfo) : Check :=
  .require (convertMvnoTypeToString info.mvnoType).isSome rilEInvalidArguments

def copies (strs : List HidlString) : List Check := strs.map .copyHidlStringToRil

/-- The strings of a profile that are copied, and for the later version the type between them. -/
def profileChecks (version : ℕ) (info : DataProfileInfo) (isRoaming : Bool) : List Check :=
  if version ≤ 14 then
    let protocol := if isRoaming then info.roamingProtocol else info.protocol
    copies [info.apn, protocol, info.user, info.password]
  else copies [info.apn, info.protocol, info.roamingProtocol, info.user, info.password]

def imsSmsChecks (tech : UInt32) (message : ImsSmsMessage) : List Check :=
  if tech = radioTech3gpp then
    match message.gsmMessage with
    | [sms] => .calloc :: copies [sms.smscPdu, sms.pdu]
    | _ => [.require false rilEInvalidArguments]
  else if tech = radioTech3gpp2 then
    [.require (message.cdmaMessage.length = 1) rilEInvalidArguments]
  else [.require false rilEInvalidArguments]

/-- The exits of a call, in their order. -/
def HidlCall.checks (version : ℕ) : HidlCall → List Check
  | .dispatchVoid _ => []
  | .dispatchString _ str => copies [str]
  | .dispatchStrings _ strs => .calloc :: copies strs
  | .dispatchInts _ => [.calloc]
  | .dispatchCallForwardStatus _ callInfo => copies [callInfo.number]
  | .dispatchIccApdu _ message => copies [message.data]
  | .dial address uusData => copies (address :: uusData.toList)
  | .getSignalStrength | .getTTYMode | .getCdmaSubscriptionSource | .iccOpenLogicalChannel
  | .getHardwareConfig | .startLceService => [notSupported]
  | .setupDataCall info strs =>
    if version < 4 then [notSupported]
    else if version ≤ 14 then .calloc :: copies strs
    else convertsMvnoType info :: .calloc :: copies strs
  | .iccIOForApp iccIo => copies [iccIo.path, iccIo.data, iccIo.pin2, iccIo.aid]
  | .writeSmsToSim args => copies [args.pdu, args.smsc]
  | .setInitialAttachApn info isRoaming =>
    if version ≤ 14 then profileChecks version info isRoaming
    else
      profileChecks version info isRoaming ++ [convertsMvnoType info] ++
        copies [info.mvnoMatchData]
  | .sendImsSms tech message => imsSmsChecks tech message
  | .nvWriteItem value => copies [value]
  | .requestIccSimAuthentication authData aid => copies [authData, aid]
  | .setDataProfile profiles isRoaming =>
    .calloc :: .calloc :: profiles.flatMap fun info =>
      if version ≤ 14 then profileChecks version info isRoaming
      else
        profileChecks version info isRoaming ++ copies [info.mvnoMatchData] ++
          [convertsMvnoType info]
  | .setAllowedCarriers => [.calloc, .calloc]
  | .sendDeviceState lowDataExpected =>
    if version < 15 ∧ lowDataExpected = false then [notSupported] else [.calloc]
  | .setIndicationFilter => if version < 15 then [notSupported] else [.calloc]

/-- Whether the function looks at what addRequestToList gave it before it uses it. -/
def HidlCall.checksBlock (version : ℕ) : HidlCall → Bool
  | .sendDeviceState lowDataExpected => 15 ≤ version ∨ lowDataExpected
  | .setIndicationFilter => 15 ≤ version
  | _ => true

def hidlCall (c : Config) (s : State) (serial : ℤ) (slotId : RILSocketId) (call : HidlCall)
    (addr : ℕ) (alloc : ℕ → Bool) : State :=
  let added := addRequestToList c s serial slotId (call.request c.version) addr
  if addr = 0 ∧ call.checksBlock c.version then added
  else
    match firstError alloc 0 (call.checks c.version) with
    | none => added
    | some err => sendErrorResponse added addr err

/-! ## Runs -/

inductive HidlEvent where
  | hidlCall (serial : ℤ) (slotId : RILSocketId) (call : HidlCall) (addr : ℕ) (alloc : ℕ → Bool)
  | rilOnRequestAck (t : ℕ)
  | rilOnRequestComplete (t : ℕ) (x : Completion)
  | heapWritten (addr : ℕ) (b : RequestInfo)

def nextHidl (c : Config) (s : State) : HidlEvent → State
  | .hidlCall serial slotId call addr alloc => hidlCall c s serial slotId call addr alloc
  | .rilOnRequestAck t => rilOnRequestAck s t
  | .rilOnRequestComplete t x => rilOnRequestComplete c s t x
  | .heapWritten addr b => s.setBlock addr b

def hidlSystem (c : Config) : System State HidlEvent where
  Enabled s e := match e with
    | .hidlCall _ _ _ addr _ => addr ∉ s.live
    | .heapWritten addr _ => addr ∉ s.live
    | _ => True
  next := nextHidl c

/-- No request that was answered is in a list, and none was answered twice. -/
structure Retired (s : State) : Prop where
  dequeued : ∀ slot t, t ∈ s.pending slot → (s.heap t).birth ∉ s.answered
  once : s.answered.Nodup

/-- A call that is answered with an error. Where its command has no response function there is
nothing to answer it with. -/
def Refused (c : Config) : HidlEvent → Prop
  | .hidlCall _ _ call addr alloc =>
    addr ≠ 0 ∧ (firstError alloc 0 (call.checks c.version)).isSome ∧
      (commandInfo c (call.request c.version)).responseFunction ≠ none
  | _ => False

/-- The event as the lists see it. -/
def HidlEvent.event (c : Config) : HidlEvent → Event
  | .hidlCall serial slotId call addr _ =>
    .addRequestToList serial slotId (call.request c.version) addr
  | .rilOnRequestAck t => .rilOnRequestAck t
  | .rilOnRequestComplete t x => .rilOnRequestComplete t x
  | .heapWritten addr b => .heapWritten addr b

/-- Every request has its own number. -/
structure Numbered (s : State) (h : History) : Prop where
  outstanding_lt : ∀ t r, h.outstanding t = some r → r.birth < h.births
  unique : ∀ t t' r r', h.outstanding t = some r → h.outstanding t' = some r' →
    r.birth = r'.birth → t = t'
  answered_lt : ∀ n ∈ s.answered, n < h.births

section Answers

variable {c : Config} {s : State} {h : History} {lists : RILSocketId → List ℕ}

theorem Refines.pending_eq (hr : Refines c s h lists) (slot : RILSocketId) :
    s.pending slot = lists slot := cells_eq (hr.chain slot) (hr.fuel slot)

/-- Whether the answered requests are out of the lists is to be read off the history. -/
theorem Refines.retired_iff (hr : Refines c s h lists) :
    Retired s ↔ (∀ t r, h.outstanding t = some r → r.birth ∉ s.answered) ∧ s.answered.Nodup := by
  constructor
  · rintro ⟨hdequeued, honce⟩
    refine ⟨fun t r hout => ?_, honce⟩
    rw [← (hr.block t r hout).birth]
    apply hdequeued r.slotId t
    rw [hr.pending_eq]
    exact (hr.mem r.slotId t).mpr ⟨r, hout, rfl⟩
  · rintro ⟨hdequeued, honce⟩
    refine ⟨fun slot t ht => ?_, honce⟩
    rw [hr.pending_eq] at ht
    obtain ⟨r, hout, _⟩ := (hr.mem slot t).mp ht
    rw [(hr.block t r hout).birth]
    exact hdequeued t r hout

theorem sendErrorResponse_frame (s : State) (t : ℕ) (err : ℤ) :
    (sendErrorResponse s t err).heap = s.heap ∧
      (sendErrorResponse s t err).sPendingRequests = s.sPendingRequests ∧
      (sendErrorResponse s t err).live = s.live ∧ (sendErrorResponse s t err).births = s.births := by
  unfold sendErrorResponse
  dsimp only
  split
  · exact ⟨rfl, rfl, rfl, rfl⟩
  · exact respond_frame _ _ _

theorem addRequestToList_block (c : Config) (s : State) (serial : ℤ) (slotId : RILSocketId)
    (request : Int32) {addr : ℕ} (haddr : addr ≠ 0) :
    ((addRequestToList c s serial slotId request addr).heap addr).pCI = commandInfo c request ∧
      ((addRequestToList c s serial slotId request addr).heap addr).birth = s.births := by
  rw [addRequestToList, if_neg haddr]
  dsimp only [State.setBlock]
  rw [Function.update_self]
  exact ⟨rfl, rfl⟩

theorem sendErrorResponse_added (c : Config) (s : State) (serial : ℤ) (slotId : RILSocketId)
    (request : Int32) (addr : ℕ) (err : ℤ) :
    (sendErrorResponse (addRequestToList c s serial slotId request addr) addr err).answered =
      if addr = 0 ∨ (commandInfo c request).responseFunction = none then s.answered
      else s.births :: s.answered := by
  have hadded := (add_responses c s serial slotId request addr).2
  unfold sendErrorResponse
  by_cases haddr : addr = 0
  · rw [if_pos (Or.inl haddr), if_pos (Or.inl haddr)]
    exact hadded
  · obtain ⟨hcommand, hbirth⟩ := addRequestToList_block c s serial slotId request haddr
    dsimp only
    rw [hcommand]
    split
    · exact hadded
    · rename_i hcalled
      have hsome := Option.isSome_iff_ne_none.mpr (not_or.mp hcalled).2
      rw [State.respond, hcommand, if_pos hsome, hbirth, hadded]

/-- A call goes through NULL where it fails without a block that it looks at, or for a command
without a response function. -/
theorem hidlCall_crashed_iff (c : Config) {s : State} (hs : s.crashed = false) (serial : ℤ)
    (slotId : RILSocketId) (call : HidlCall) (addr : ℕ) (alloc : ℕ → Bool) :
    (hidlCall c s serial slotId call addr alloc).crashed = true ↔
      (firstError alloc 0 (call.checks c.version)).isSome ∧
        (addr = 0 ∧ call.checksBlock c.version = false ∨ addr ≠ 0 ∧
          (commandInfo c (call.request c.version)).responseFunction = none) := by
  have hadded : (addRequestToList c s serial slotId (call.request c.version) addr).crashed =
      false := by
    unfold addRequestToList
    split <;> exact hs
  have hresponded : ∀ pRI r, ((addRequestToList c s serial slotId (call.request c.version)
      addr).respond pRI r).crashed = false := by
    intro pRI r
    unfold State.respond
    split <;> exact hadded
  unfold hidlCall
  dsimp only
  split
  · rename_i hchecked
    rw [hadded]
    refine iff_of_false Bool.false_ne_true ?_
    rintro ⟨_, ⟨_, hunchecked⟩ | ⟨haddr, _⟩⟩
    · exact Bool.false_ne_true (hunchecked.symm.trans hchecked.2)
    · exact haddr hchecked.1
  · rename_i hunchecked
    cases firstError alloc 0 (call.checks c.version) with
    | none =>
      dsimp only
      rw [hadded]
      exact iff_of_false Bool.false_ne_true fun h => Bool.false_ne_true h.1
    | some err =>
      dsimp only [sendErrorResponse, Option.isSome_some]
      by_cases haddr : addr = 0
      · have hcheck := Bool.eq_false_of_not_eq_true fun h => hunchecked ⟨haddr, h⟩
        rw [if_pos (Or.inl haddr)]
        exact iff_of_true rfl ⟨rfl, Or.inl ⟨haddr, hcheck⟩⟩
      · rw [(addRequestToList_block c s serial slotId _ haddr).1]
        split
        · rename_i hnone
          exact iff_of_true rfl ⟨rfl, Or.inr ⟨haddr, hnone.resolve_left haddr⟩⟩
        · rename_i hcalled
          rw [hresponded]
          refine iff_of_false Bool.false_ne_true ?_
          rintro ⟨_, ⟨hzero, _⟩ | ⟨_, hnone⟩⟩
          · exact haddr hzero
          · exact hcalled (Or.inr hnone)

theorem hidlCall_refines (hr : Refines c s h lists) (serial : ℤ) (slotId : RILSocketId)
    (call : HidlCall) {addr : ℕ} (alloc : ℕ → Bool) (hfree : addr ∉ s.live) : ∃ lists',
      Refines c (hidlCall c s serial slotId call addr alloc)
        (h.add serial slotId (call.request c.version) addr) lists' := by
  have hadds : ∃ lists', Refines c (addRequestToList c s serial slotId (call.request c.version) addr)
      (h.add serial slotId (call.request c.version) addr) lists' :=
    add_refines hr serial slotId hfree
  obtain ⟨lists', hadded⟩ := hadds
  refine ⟨lists', ?_⟩
  unfold hidlCall
  dsimp only
  split
  · exact hadded
  · cases firstError alloc 0 (call.checks c.version) with
    | none => exact hadded
    | some err =>
      obtain ⟨hheap, hheads, hlive, hbirths⟩ := sendErrorResponse_frame _ _ _
      exact hadded.congr hheap hheads hlive hbirths

theorem hidlCall_refused (hr : Refines c s h lists) {serial : ℤ} {slotId : RILSocketId}
    {call : HidlCall} {addr : ℕ} {alloc : ℕ → Bool}
    (refused : Refused c (.hidlCall serial slotId call addr alloc)) :
    (hidlCall c s serial slotId call addr alloc).answered = h.births :: s.answered := by
  obtain ⟨haddr, herr, hcommand⟩ := refused
  obtain ⟨err, herr⟩ := Option.isSome_iff_exists.mp herr
  rw [hidlCall, if_neg fun h => haddr h.1, herr]
  dsimp only
  rw [sendErrorResponse_added, if_neg (not_or.mpr ⟨haddr, hcommand⟩), hr.births]

theorem hidlCall_accepted {serial : ℤ} {slotId : RILSocketId} {call : HidlCall} {addr : ℕ}
    {alloc : ℕ → Bool} (accepted : ¬ Refused c (.hidlCall serial slotId call addr alloc)) :
    (hidlCall c s serial slotId call addr alloc).answered = s.answered := by
  have hadded := (add_responses c s serial slotId (call.request c.version) addr).2
  unfold hidlCall
  dsimp only
  split
  · exact hadded
  · cases herr : firstError alloc 0 (call.checks c.version) with
    | none => exact hadded
    | some err =>
      dsimp only
      rw [sendErrorResponse_added, if_pos]
      by_contra hanswers
      obtain ⟨haddr, hcommand⟩ := not_or.mp hanswers
      exact accepted ⟨haddr, by rw [herr]; rfl, hcommand⟩

theorem nextHidl_refines (hr : Refines c s h lists) {e : HidlEvent}
    (enabled : (hidlSystem c).Enabled s e) :
    ∃ lists', Refines c (nextHidl c s e) (h.remember (e.event c)) lists' := by
  cases e with
  | hidlCall serial slotId call addr alloc =>
    exact hidlCall_refines hr serial slotId call alloc enabled
  | rilOnRequestAck t => exact next_refines (c := c) (e := .rilOnRequestAck t) hr trivial
  | rilOnRequestComplete t x => exact next_refines (e := .rilOnRequestComplete t x) hr trivial
  | heapWritten addr b => exact next_refines (c := c) (e := .heapWritten addr b) hr enabled

theorem complete_answered (hr : Refines c s h lists) (t : ℕ) (x : Completion) {n : ℕ}
    (hn : n ∈ (rilOnRequestComplete c s t x).answered) :
    n ∈ s.answered ∨ ∃ r, h.outstanding t = some r ∧ n = r.birth := by
  cases hout : h.outstanding t with
  | none =>
    rw [complete_unknown hr hout] at hn
    exact Or.inl hn
  | some r =>
    rw [(complete_answers hr hout x).2] at hn
    rcases List.mem_append.mp hn with hnew | hold
    · obtain ⟨_, _, rfl⟩ := List.mem_map.mp hnew
      exact Or.inr ⟨r, rfl, rfl⟩
    · exact Or.inl hold

theorem Numbered.add (hn : Numbered s h) (serial : ℤ) (slotId : RILSocketId) (request : Int32)
    {addr : ℕ} (haddr : addr ≠ 0) {s' : State}
    (hanswered : s'.answered = s.answered ∨ s'.answered = h.births :: s.answered) :
    Numbered s' (h.add serial slotId request addr) := by
  have hbirths : (h.add serial slotId request addr).births = h.births + 1 := by
    simp only [History.add, haddr, if_false]
  constructor
  · intro t r hout
    rw [hbirths]
    rcases (History.add_some haddr).mp hout with ⟨_, rfl⟩ | ⟨_, hold⟩
    · exact Nat.lt_succ_self _
    · exact Nat.lt_succ_of_lt (hn.outstanding_lt t r hold)
  · intro t t' r r' hout hout' heq
    rcases (History.add_some haddr).mp hout with ⟨rfl, rfl⟩ | ⟨_, hold⟩
    · rcases (History.add_some haddr).mp hout' with ⟨rfl, rfl⟩ | ⟨_, hold'⟩
      · rfl
      · exact absurd heq.symm (hn.outstanding_lt t' r' hold').ne
    · rcases (History.add_some haddr).mp hout' with ⟨rfl, rfl⟩ | ⟨_, hold'⟩
      · exact absurd heq (hn.outstanding_lt t r hold).ne
      · exact hn.unique t t' r r' hold hold' heq
  · intro n hmem
    rw [hbirths]
    rcases hanswered with hsame | hnew
    · rw [hsame] at hmem
      exact Nat.lt_succ_of_lt (hn.answered_lt n hmem)
    · rw [hnew] at hmem
      rcases List.mem_cons.mp hmem with rfl | hmem
      · exact Nat.lt_succ_self _
      · exact Nat.lt_succ_of_lt (hn.answered_lt n hmem)

theorem Numbered.ack (hn : Numbered s h) (t : ℕ) : Numbered (rilOnRequestAck s t) (h.ack t) := by
  constructor
  · intro a r hout
    obtain ⟨r', hout', rfl⟩ := History.ack_some.mp hout
    have hlt := hn.outstanding_lt a r' hout'
    split <;> exact hlt
  · intro a a' r r' hout hout' heq
    obtain ⟨q, hq, rfl⟩ := History.ack_some.mp hout
    obtain ⟨q', hq', rfl⟩ := History.ack_some.mp hout'
    apply hn.unique a a' q q' hq hq'
    rw [apply_ite Request.birth, apply_ite Request.birth, ite_self, ite_self] at heq
    exact heq
  · intro n hmem
    apply hn.answered_lt
    rw [← (ack_responses s t).2]
    exact hmem

theorem Numbered.complete (hr : Refines c s h lists) (hn : Numbered s h) (t : ℕ) (x : Completion) :
    Numbered (rilOnRequestComplete c s t x) (h.complete t) := by
  constructor
  · intro a r hout
    exact hn.outstanding_lt a r (History.complete_some.mp hout).2
  · intro a a' r r' hout hout'
    exact hn.unique a a' r r' (History.complete_some.mp hout).2 (History.complete_some.mp hout').2
  · intro n hmem
    rcases complete_answered hr t x hmem with hold | ⟨r, hout, rfl⟩
    · exact hn.answered_lt n hold
    · exact hn.outstanding_lt t r hout

theorem nextHidl_numbered (hr : Refines c s h lists) (hn : Numbered s h) (e : HidlEvent) :
    Numbered (nextHidl c s e) (h.remember (e.event c)) := by
  cases e with
  | hidlCall serial slotId call addr alloc =>
    by_cases haddr : addr = 0
    · subst haddr
      have haccepted : ¬ Refused c (.hidlCall serial slotId call 0 alloc) :=
        fun refused => refused.1 rfl
      have hsame := @hidlCall_accepted c s serial slotId call 0 alloc haccepted
      exact ⟨hn.outstanding_lt, hn.unique, fun n hmem => hn.answered_lt n (hsame ▸ hmem)⟩
    · apply hn.add serial slotId _ haddr
      by_cases refused : Refused c (.hidlCall serial slotId call addr alloc)
      · exact Or.inr (hidlCall_refused hr refused)
      · exact Or.inl (hidlCall_accepted refused)
  | rilOnRequestAck t => exact hn.ack t
  | rilOnRequestComplete t x => exact Numbered.complete hr hn t x
  | heapWritten addr b => exact ⟨hn.outstanding_lt, hn.unique, hn.answered_lt⟩

/-- A step keeps the answered requests out of the lists unless it is a call that is refused. -/
theorem retired_next_iff (hr : Refines c s h lists) (hn : Numbered s h) (retired : Retired s)
    {e : HidlEvent} (enabled : (hidlSystem c).Enabled s e) :
    Retired (nextHidl c s e) ↔ ¬ Refused c e := by
  obtain ⟨lists', hr'⟩ := nextHidl_refines hr enabled
  obtain ⟨hdequeued, honce⟩ := hr.retired_iff.mp retired
  rw [hr'.retired_iff]
  cases e with
  | hidlCall serial slotId call addr alloc =>
    change (∀ t r, (h.add serial slotId (call.request c.version) addr).outstanding t = some r →
      r.birth ∉ (hidlCall c s serial slotId call addr alloc).answered) ∧
        (hidlCall c s serial slotId call addr alloc).answered.Nodup ↔ _
    constructor
    · rintro ⟨hout, _⟩ refused
      rw [hidlCall_refused hr refused] at hout
      apply hout addr _ ((History.add_some refused.1).mpr (Or.inl ⟨rfl, rfl⟩))
      exact List.mem_cons_self
    · intro accepted
      rw [hidlCall_accepted accepted]
      refine ⟨fun t r hout => ?_, honce⟩
      by_cases haddr : addr = 0
      · subst haddr
        exact hdequeued t r hout
      · rcases (History.add_some haddr).mp hout with ⟨_, rfl⟩ | ⟨_, hout⟩
        · intro hmem
          exact (hn.answered_lt _ hmem).ne rfl
        · exact hdequeued t r hout
  | rilOnRequestAck t =>
    refine iff_of_true ⟨fun a r hout => ?_, ?_⟩ id
    · obtain ⟨r', hout', rfl⟩ := History.ack_some.mp hout
      change _ ∉ (rilOnRequestAck s t).answered
      rw [(ack_responses s t).2, apply_ite Request.birth, ite_self]
      exact hdequeued a r' hout'
    · change (rilOnRequestAck s t).answered.Nodup
      rw [(ack_responses s t).2]
      exact honce
  | rilOnRequestComplete t x =>
    refine iff_of_true ⟨fun a r hout hmem => ?_, ?_⟩ id
    · obtain ⟨ha, hout⟩ := History.complete_some.mp hout
      rcases complete_answered hr t x hmem with hold | ⟨r', hout', heq⟩
      · exact hdequeued a r hout hold
      · exact ha (hn.unique a t r r' hout hout' heq)
    · change (rilOnRequestComplete c s t x).answered.Nodup
      cases hout : h.outstanding t with
      | none =>
        rw [complete_unknown hr hout]
        exact honce
      | some r =>
        rw [(complete_answers hr hout x).2]
        unfold answer
        split
        · exact honce
        · exact List.nodup_cons.mpr ⟨hdequeued t r hout, honce⟩
  | heapWritten addr b => exact iff_of_true ⟨hdequeued, honce⟩ id

end Answers

/-- Over a run the answered requests are out of the lists, and are answered once, just when no call
on the way is refused. -/
theorem answered_retired_iff (c : Config) (heap : ℕ → RequestInfo) {es : List HidlEvent}
    (legal : (hidlSystem c).Legal (initial heap) es) :
    (∀ pre, pre <+: es → Retired ((hidlSystem c).run (initial heap) pre)) ↔
      ∀ e ∈ es, ¬ Refused c e := by
  have hinitial := initial_refines c heap
  rw [← along_events (hidlSystem c) (fun e => ¬ Refused c e) (initial heap)]
  apply always_iff_guarded (hidlSystem c)
    (I := fun s => ∃ h lists, Refines c s h lists ∧ Numbered s h) _ _ _ _ legal
  · rintro s e ⟨h, lists, hr, hn⟩ enabled
    obtain ⟨lists', hr'⟩ := nextHidl_refines hr enabled
    exact ⟨_, lists', hr', nextHidl_numbered hr hn e⟩
  · rintro s e ⟨h, lists, hr, hn⟩ retired enabled
    exact retired_next_iff hr hn retired enabled
  · refine ⟨_, _, hinitial, ?_⟩
    constructor
    · rintro t r ⟨⟩
    · rintro t t' r r' ⟨⟩
    · rintro n ⟨⟩
  · rw [hinitial.retired_iff]
    constructor
    · rintro t r ⟨⟩
    · exact List.nodup_nil

/-- A completed dial is retired. -/
theorem completed_dial_retired : Retired ((hidlSystem android8).run (initial fun _ => noBlock)
    [.hidlCall 7 .socket1 (.dial [53, 53] none) 64 fun _ => true,
      .rilOnRequestComplete 64 ⟨0, 0, 0⟩]) := by
  refine (answered_retired_iff android8 (fun _ => noBlock) ?_).mpr ?_ _ List.prefix_rfl
  · exact ⟨List.not_mem_nil, trivial, trivial⟩
  intro e he
  simp only [List.mem_cons, List.not_mem_nil, or_false] at he
  rcases he with rfl | rfl
  · rintro ⟨_, herr, _⟩
    cases herr
  · exact id

/-- getSignalStrength is answered and stays in the list. -/
theorem refused_signal_strength_pending : ¬ ∀ (c : Config) (heap : ℕ → RequestInfo)
    (es : List HidlEvent), (hidlSystem c).Legal (initial heap) es →
      Retired ((hidlSystem c).run (initial heap) es) := by
  intro h
  have hretired := h android8 (fun _ => noBlock)
    [.hidlCall 7 .socket1 .getSignalStrength 64 fun _ => true] ⟨List.not_mem_nil, trivial⟩
  apply hretired.dequeued .socket1 64
  · decide +kernel
  · decide +kernel

end RilPending
