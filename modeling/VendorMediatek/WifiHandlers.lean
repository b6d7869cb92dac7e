import Mathlib.Data.List.Nodup
import Mathlib.Logic.Function.Basic
import VendorMediatek.LabelledRuns

/-!
# Event handlers of the WiFi HAL

The callback and command tables of common.cpp, the RSSI monitor and the dispatch of events of
wifi_hal.cpp, and the registrations that requestEvent and requestVendorEvent make while they wait.
Commands are numbered as they are created; a number is never used again. A command is live while
its reference count is positive.
-/

namespace WifiHandlers

open LabelledRuns

abbrev defaultEventCbSize : ℕ := 64
abbrev defaultCmdSize : ℕ := 64
abbrev nl80211CmdVendor : ℤ := 103
abbrev googleOui : ℕ := 0x001A11
abbrev wifiEventRssiMonitor : ℤ := 7

/-- cb_func is event_handler in every entry. -/
structure CbInfo where
  nlCmd : ℤ
  vendorId : ℕ
  vendorSubcmd : ℤ
  cbArg : ℕ
  deriving DecidableEq, Repr

structure CmdInfo where
  id : ℤ
  cmd : ℕ
  deriving DecidableEq, Repr

/-- What a handler is registered for. -/
inductive EventType where
  | plain (cmd : ℤ)
  | vendor (id : ℕ) (subcmd : ℤ)
  deriving DecidableEq, Repr

def EventType.entry (t : EventType) (c : ℕ) : CbInfo :=
  match t with
  | .plain cmd => ⟨cmd, 0, 0, c⟩
  | .vendor id subcmd => ⟨nl80211CmdVendor, id, subcmd, c⟩

/-- The test that the loops of the two unregister functions make. -/
def EventType.removes (t : EventType) (e : CbInfo) : Bool :=
  match t with
  | .plain cmd => e.nlCmd = cmd
  | .vendor id subcmd => e.nlCmd = nl80211CmdVendor ∧ e.vendorId = id ∧ e.vendorSubcmd = subcmd

abbrev rssiMonitor : EventType := .vendor googleOui wifiEventRssiMonitor

/-- Where a command stands: with its caller, in a request that waits for an event, as a monitor
that has been started, or without the reference it was created with. -/
inductive Role where
  | absent
  | idle
  | waiting (t : EventType)
  | monitor
  | released
  deriving DecidableEq, Repr

/-- hal_info, the reference counts and where the commands stand. Histories tell the commands that
have unregistered a handler and not registered one since. -/
structure State where
  eventCb : List CbInfo
  cmd : List CmdInfo
  mRefs : ℕ → ℤ
  created : ℕ
  role : ℕ → Role
  dispatching : Option ℕ
  unregistered : ℕ → Bool

def initial : State := ⟨[], [], fun _ => 0, 0, fun _ => .absent, none, fun _ => false⟩

def State.Live (s : State) (c : ℕ) : Prop := 0 < s.mRefs c

instance (s : State) (c : ℕ) : Decidable (s.Live c) := inferInstanceAs (Decidable (_ < _))

def addRef (s : State) (c : ℕ) : State :=
  { s with mRefs := Function.update s.mRefs c (s.mRefs c + 1) }

/-- The command is deleted when its count comes to 0. -/
def releaseRef (s : State) (c : ℕ) : State :=
  { s with mRefs := Function.update s.mRefs c (s.mRefs c - 1) }

def State.setRole (s : State) (c : ℕ) (r : Role) : State :=
  { s with role := Function.update s.role c r }

def newCommand (s : State) : State :=
  { s with
    mRefs := Function.update s.mRefs s.created 1
    created := s.created + 1
    role := Function.update s.role s.created .idle }

/-- wifi_register_handler and wifi_register_vendor_handler: none is WIFI_ERROR_OUT_OF_MEMORY. -/
def wifiRegister (s : State) (t : EventType) (c : ℕ) : Option State :=
  if s.eventCb.length < defaultEventCbSize then
    some { s with
      eventCb := s.eventCb ++ [t.entry c]
      unregistered := Function.update s.unregistered c false }
  else none

def wifiUnregisterHandler (s : State) (cmd : ℤ) : State :=
  if cmd = nl80211CmdVendor then s
  else { s with eventCb := s.eventCb.eraseP (EventType.plain cmd).removes }

def wifiUnregisterVendorHandler (s : State) (id : ℕ) (subcmd : ℤ) : State :=
  { s with eventCb := s.eventCb.eraseP (EventType.vendor id subcmd).removes }

/-- The command c unregisters its handler for t. -/
def wifiUnregister (s : State) (t : EventType) (c : ℕ) : State :=
  let s := match t with
    | .plain cmd => wifiUnregisterHandler s cmd
    | .vendor id subcmd => wifiUnregisterVendorHandler s id subcmd
  { s with unregistered := Function.update s.unregistered c true }

def wifiRegisterCmd (s : State) (id : ℤ) (c : ℕ) : Option State :=
  if s.cmd.length < defaultCmdSize then some { s with cmd := s.cmd ++ [⟨id, c⟩] } else none

def wifiGetCmd (s : State) (id : ℤ) : Option ℕ :=
  (s.cmd.find? fun i => i.id = id).map CmdInfo.cmd

def wifiUnregisterCmd (s : State) (id : ℤ) : State :=
  { s with cmd := s.cmd.eraseP fun i => i.id = id }

/-- SetRSSIMonitorCommand::cancel: what the request comes to does not matter. -/
def cancel (s : State) (c : ℕ) : State := wifiUnregister s rssiMonitor c

/-- The creator's reference is given up. -/
def dropCommand (s : State) (c : ℕ) : State := releaseRef (s.setRole c .released) c

/-- started tells whether the request of start() succeeds. What registerVendorHandler returns is
not looked at. -/
def wifiStartRssiMonitoring (s : State) (id : ℤ) (started : Bool) : State :=
  let c := s.created
  let s := newCommand s
  match wifiRegisterCmd s id c with
  | none => dropCommand s c
  | some s =>
    if started then ((wifiRegister s rssiMonitor c).getD s).setRole c .monitor
    else dropCommand (wifiUnregisterCmd s id) c

def wifiCancelCmd (s : State) (id : ℤ) : State :=
  match wifiGetCmd s id with
  | none => s
  | some c => dropCommand (cancel (wifiUnregisterCmd s id) c) c

def wifiStopRssiMonitoring (s : State) (id : ℤ) : State :=
  if id = -1 then dropCommand (cancel (newCommand s) s.created) s.created
  else wifiCancelCmd s id

/-- requestEvent and requestVendorEvent up to the wait, or to create or the send that fails. -/
def request (s : State) (c : ℕ) (t : EventType) : State :=
  match wifiRegister s t c with
  | none => s
  | some s => s.setRole c (.waiting t)

/-- The end of a request, wherever it comes from. -/
def requestReturns (s : State) (c : ℕ) : State :=
  match s.role c with
  | .waiting t => (wifiUnregister s t c).setRole c .idle
  | _ => s

/-- The entry that internal_valid_message_handler finds. -/
def findHandler (s : State) (cmd : ℤ) (vendorId : ℕ) (subcmd : ℤ) : Option CbInfo :=
  s.eventCb.find? fun e => cmd = e.nlCmd ∧
    ¬ (cmd = nl80211CmdVendor ∧ (vendorId ≠ e.vendorId ∨ subcmd ≠ e.vendorSubcmd))

/-- internal_valid_message_handler up to the call of the handler. -/
def dispatch (s : State) (cmd : ℤ) (vendorId : ℕ) (subcmd : ℤ) : State :=
  match findHandler s cmd vendorId subcmd with
  | none => s
  | some e => { addRef s e.cbArg with dispatching := some e.cbArg }

def dispatchReturns (s : State) : State :=
  match s.dispatching with
  | none => s
  | some c => { releaseRef s c with dispatching := none }

inductive Event where
  | newCommand
  | requestEvent (c : ℕ) (cmd : ℤ)
  | requestVendorEvent (c : ℕ) (id : ℕ) (subcmd : ℤ)
  | requestReturns (c : ℕ)
  | releaseCommand (c : ℕ)
  | wifiStartRssiMonitoring (id : ℤ) (started : Bool)
  | wifiStopRssiMonitoring (id : ℤ)
  | dispatch (cmd : ℤ) (vendorId : ℕ) (subcmd : ℤ)
  | dispatchReturns
  deriving DecidableEq, Repr

def next (s : State) : Event → State
  | .newCommand => newCommand s
  | .requestEvent c cmd => request s c (.plain cmd)
  | .requestVendorEvent c id subcmd => request s c (.vendor id subcmd)
  | .requestReturns c => requestReturns s c
  | .releaseCommand c => dropCommand s c
  | .wifiStartRssiMonitoring id started => wifiStartRssiMonitoring s id started
  | .wifiStopRssiMonitoring id => wifiStopRssiMonitoring s id
  | .dispatch cmd vendorId subcmd => dispatch s cmd vendorId subcmd
  | .dispatchReturns => dispatchReturns s

/-- A caller uses its commands one request at a time and gives each up once; one thread runs the
event loop. -/
def Enabled (s : State) : Event → Prop
  | .requestEvent c _ | .requestVendorEvent c _ _ | .releaseCommand c => s.role c = .idle
  | .requestReturns c => ∃ t, s.role c = .waiting t
  | .dispatch .. => s.dispatching = none
  | .dispatchReturns => s.dispatching ≠ none
  | .newCommand | .wifiStartRssiMonitoring .. | .wifiStopRssiMonitoring _ => True

def hal : System State Event := ⟨Enabled, next⟩

/-- The command that unregisters its handler in a step, and for what. -/
def unregisters (s : State) : Event → Option (ℕ × EventType)
  | .requestReturns c =>
    match s.role c with
    | .waiting t => some (c, t)
    | _ => none
  | .wifiStopRssiMonitoring id =>
    if id = -1 then some (s.created, rssiMonitor) else (wifiGetCmd s id).map (·, rssiMonitor)
  | _ => none

end WifiHandlers
