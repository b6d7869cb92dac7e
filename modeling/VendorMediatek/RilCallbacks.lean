import Mathlib.Algebra.Group.Nat.Defs
import VendorMediatek.LabelledRuns
import VendorMediatek.ReadWriteLock
import VendorMediatek.RilChannelQueue

/-!
# Calls of the framework's objects

The framework registers a response and an indication object with each service of a slot.
`setResponseFunctions` and `checkReturnStatus` replace them under the write lock, the functions that
answer and indicate use them. Each thread has the functions it is in on a stack, the innermost
first; a step is one of a function up to what other threads can tell apart.
-/

namespace RilCallbacks

open LabelledRuns ReadWriteLock
open RilChannelQueue (RILSocketId)

abbrev Thread := ℕ

inductive Service where
  | radio | oemHook
  deriving DecidableEq, Repr

inductive Member where
  | response | indication
  deriving DecidableEq, Repr

/-- The objects of a service, where 0 is NULL. -/
structure Callbacks where
  response : ℕ
  indication : ℕ
  deriving DecidableEq, Repr

def Callbacks.get (callbacks : Callbacks) : Member → ℕ
  | .response => callbacks.response
  | .indication => callbacks.indication

inductive RwlockName where
  | radioServiceRwlock | radioServiceRwlock2
  deriving DecidableEq, Repr

/-- Both slots have the same lock. -/
def getRadioServiceRwlock (slotId : RILSocketId) : RwlockName :=
  if slotId.slot.val = 2 then .radioServiceRwlock2 else .radioServiceRwlock

/-! ## The functions that use an object -/

inductive ResponseFunction where
  -- calls the object and checks the status
  | callback (service : Service) (member : Member)
  -- such a one that finds nothing to call it with
  | noCallback (service : Service) (member : Member)
  | registrationSuspendInd
  | incomingCallInd
  | setAttachApnInd
  deriving DecidableEq, Repr

inductive Statement where
  -- the rest is left out where the object is NULL
  | ifRegistered (service : Service) (member : Member)
  | call (service : Service) (member : Member)
  -- answered by the response function of its command where calloc fails
  | dispatchInts (answer : Option ResponseFunction)
  | myEnqueue
  deriving DecidableEq, Repr

/-- With mtk_command_start 0 the commands of the two requests are those of SET_BAND_MODE and
CDMA_VALIDATE_AND_WRITE_AKEY, and the latter has no response function. -/
def ResponseFunction.body : ResponseFunction → List Statement
  | .callback service member => [.ifRegistered service member, .call service member]
  | .noCallback service member => [.ifRegistered service member]
  | .registrationSuspendInd =>
    [.ifRegistered .radio .indication, .dispatchInts (some (.callback .radio .response))]
  | .incomingCallInd =>
    [.ifRegistered .radio .indication, .dispatchInts none, .call .radio .indication]
  | .setAttachApnInd => [.ifRegistered .radio .indication, .myEnqueue]

inductive Sender where
  | rilOnRequestComplete | rilOnRequestAck | sendUnsolResponse | sendErrorResponse
  | resendLastNITZTimeData
  deriving DecidableEq, Repr

/-- Whether a function takes the read lock around the response function. -/
def Sender.rdlocks : Sender → Bool
  | .rilOnRequestComplete | .rilOnRequestAck | .sendUnsolResponse => true
  | .sendErrorResponse | .resendLastNITZTimeData => false

/-- What a function may run. A command without a response function has nothing to call. -/
def Sender.Runs : Sender → ResponseFunction → Prop
  | .rilOnRequestComplete, .callback _ member => member = .response
  | .rilOnRequestComplete, .noCallback _ member => member = .response
  | .rilOnRequestAck, function => function = .callback .radio .response
  | .sendUnsolResponse, .callback _ member => member = .indication
  | .sendUnsolResponse, .noCallback _ member => member = .indication
  | .sendUnsolResponse, _ => True
  | .sendErrorResponse, .callback _ member => member = .response
  | .resendLastNITZTimeData, .callback service member => service = .radio ∧ member = .indication
  | .resendLastNITZTimeData, .noCallback service member => service = .radio ∧ member = .indication
  | _, _ => False

instance (sender : Sender) (function : ResponseFunction) : Decidable (sender.Runs function) := by
  cases sender <;> cases function <;> simp only [Sender.Runs] <;> infer_instance

/-! ## Threads -/

/-- The object that a call uses, and for the proofs how often the objects had been replaced. -/
structure Used where
  service : Service
  member : Member
  object : ℕ
  since : ℕ
  deriving DecidableEq, Repr

inductive Stage where
  | running
  | calling (used : Used)
  -- in the vendor's onRequest
  | inVendor
  -- checkReturnStatus of a call that failed: before the counter is read, before the read lock is
  -- released, before the write lock is taken, before the comparison, before the write lock is
  -- released, before the read lock is taken again
  | entered (used : Used)
  | noted (used : Used) (counter : ℕ)
  | unlocked (used : Used) (counter : ℕ)
  | wrlocked (used : Used) (counter : ℕ)
  | written
  | released
  deriving DecidableEq, Repr

structure Sending where
  sender : Sender
  slotId : RILSocketId
  body : List Statement
  stage : Stage
  deriving DecidableEq, Repr

/-- setResponseFunctions has the write lock, with what it still has to assign. -/
inductive Frame where
  | setResponseFunctions (slotId : RILSocketId) (service : Service) (callbacks : Option Callbacks)
  | sending (r : Sending)
  deriving DecidableEq, Repr

/-- updates counts how often the objects of a service were replaced. -/
structure State where
  locks : RwlockName → Rwlock Thread
  callbacks : RILSocketId → Service → Callbacks
  updates : RILSocketId → Service → ℕ
  threads : Thread → List Frame

def initial : State := ⟨fun _ => .free, fun _ _ => ⟨0, 0⟩, fun _ _ => 0, fun _ => []⟩

/-- mCounterRadio and mCounterOemHook are int32_t. -/
def State.mCounter (s : State) (slotId : RILSocketId) (service : Service) : ℕ :=
  s.updates slotId service % 2 ^ 32

def State.setCallbacks (s : State) (slotId : RILSocketId) (service : Service)
    (callbacks : Callbacks) : State :=
  { s with
    callbacks := Function.update s.callbacks slotId
      (Function.update (s.callbacks slotId) service callbacks)
    updates := Function.update s.updates slotId
      (Function.update (s.updates slotId) service (s.updates slotId service + 1)) }

/-! ## Steps -/

/-- What a step does: the stack that the thread has afterwards, the operation on the lock of a slot
that it has to wait for, and the objects that it replaces. -/
structure Effect where
  slotId : RILSocketId
  frames : List Frame
  lock : Op
  assigned : Option (Service × Callbacks)

/-- The thread goes on in the same function. -/
def Sending.goes (r : Sending) (below : List Frame) (stage : Stage) (lock : Op)
    (assigned : Option (Service × Callbacks)) : Effect :=
  ⟨r.slotId, .sending { r with stage := stage } :: below, lock, assigned⟩

/-- The next step of a function. ok says whether a call comes back well, and whether calloc does. -/
def Sending.proceed (s : State) (below : List Frame) (ok : Bool) (r : Sending) : Option Effect :=
  match r.stage with
  | .running =>
    match r.body with
    | [] => some ⟨r.slotId, below, if r.sender.rdlocks then .unlock else .keep, none⟩
    | .ifRegistered service member :: rest =>
      let body := if (s.callbacks r.slotId service).get member = 0 then [] else rest
      some (Sending.goes { r with body := body } below .running .keep none)
    | .call service member :: rest =>
      let object := (s.callbacks r.slotId service).get member
      -- a call through NULL ends the process
      if object = 0 then none
      else
        let used : Used := ⟨service, member, object, s.updates r.slotId service⟩
        some (Sending.goes { r with body := rest } below (.calling used) .keep none)
    | .dispatchInts answer :: rest =>
      if ok then some (Sending.goes { r with body := rest } below .inVendor .keep none)
      else
        answer.map fun function =>
          ⟨r.slotId, .sending ⟨.sendErrorResponse, r.slotId, function.body, .running⟩ ::
            .sending { r with body := rest } :: below, .keep, none⟩
    | .myEnqueue :: rest => some (Sending.goes { r with body := rest } below .inVendor .keep none)
  | .inVendor => some (r.goes below .running .keep none)
  | .calling used => some (r.goes below (if ok then .running else .entered used) .keep none)
  | .entered used => some (r.goes below (.noted used (s.mCounter r.slotId used.service)) .keep none)
  | .noted used counter => some (r.goes below (.unlocked used counter) .unlock none)
  | .unlocked used counter => some (r.goes below (.wrlocked used counter) .wrlock none)
  | .wrlocked used counter =>
    let assigned := if s.mCounter r.slotId used.service = counter then some (used.service, ⟨0, 0⟩)
      else none
    some (r.goes below .written .keep assigned)
  | .written => some (r.goes below .released .unlock none)
  | .released => some (r.goes below .running .rdlock none)

def Frame.proceed (s : State) (below : List Frame) (ok : Bool) : Frame → Option Effect
  | .setResponseFunctions slotId service (some callbacks) =>
    some ⟨slotId, .setResponseFunctions slotId service none :: below, .keep,
      some (service, callbacks)⟩
  | .setResponseFunctions slotId _ none => some ⟨slotId, below, .unlock, none⟩
  | .sending r => r.proceed s below ok

/-- A thread that is in no function starts one. The vendor calls back those that lock; that it
completes the request of an indication, which is local, runs no response function. -/
def MayStart (sender : Sender) : List Frame → Prop
  | [] => True
  | .sending r :: _ => sender.rdlocks = true ∧ r.stage = .inVendor
  | _ => False

instance (sender : Sender) (frames : List Frame) : Decidable (MayStart sender frames) := by
  cases frames with
  | nil => exact instDecidableTrue
  | cons frame below => cases frame <;> simp only [MayStart] <;> infer_instance

inductive Event where
  | setResponseFunctions (t : Thread) (slotId : RILSocketId) (service : Service)
    (callbacks : Callbacks)
  | send (t : Thread) (sender : Sender) (slotId : RILSocketId) (function : ResponseFunction)
  | proceed (t : Thread) (ok : Bool)
  deriving DecidableEq, Repr

def Event.thread : Event → Thread
  | .setResponseFunctions t _ _ _ | .send t _ _ _ | .proceed t _ => t

def effect (s : State) : Event → Option Effect
  | .setResponseFunctions t slotId service callbacks =>
    if s.threads t = [] then
      some ⟨slotId, [.setResponseFunctions slotId service (some callbacks)], .wrlock, none⟩
    else none
  | .send t sender slotId function =>
    if sender.Runs function ∧ MayStart sender (s.threads t) then
      some ⟨slotId, .sending ⟨sender, slotId, function.body, .running⟩ :: s.threads t,
        if sender.rdlocks then .rdlock else .keep, none⟩
    else none
  | .proceed t ok =>
    match s.threads t with
    | [] => none
    | frame :: below => frame.proceed s below ok

def State.apply (s : State) (t : Thread) (e : Effect) : State :=
  let l := getRadioServiceRwlock e.slotId
  let s := { s with
    locks := Function.update s.locks l ((s.locks l).apply t e.lock)
    threads := Function.update s.threads t e.frames }
  match e.assigned with
  | none => s
  | some (service, callbacks) => s.setCallbacks e.slotId service callbacks

def system : System State Event where
  Enabled s e := ∃ f ∈ effect s e,
    (s.locks (getRadioServiceRwlock f.slotId)).Available e.thread f.lock
  next s e := (effect s e).elim s fun f => s.apply e.thread f

instance (s : State) (e : Event) : Decidable (system.Enabled s e) :=
  inferInstanceAs (Decidable (∃ f ∈ effect s e,
    (s.locks (getRadioServiceRwlock f.slotId)).Available e.thread f.lock))

end RilCallbacks
