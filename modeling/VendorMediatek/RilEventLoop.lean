import Mathlib.Data.Prod.Lex
import Mathlib.Data.Fin.Basic
import Mathlib.Data.Fintype.Basic
import Mathlib.Data.List.FinRange
import VendorMediatek.CircularList
import VendorMediatek.TimerQueue

/-!
# The event loop of the RIL daemon

The watch table, the timer list and the pending list of ril_event.cpp. The loop's phases, the
calls that callbacks and other threads make and the ticks of the monotonic clock are the steps of
one system. A step has no result where the code would follow a NULL pointer.
-/

namespace RilEventLoop

open LabelledRuns CircularList

structure TimeVal where
  tvSec : ℤ
  tvUsec : ℤ
  deriving DecidableEq, Repr

/-- `timercmp(a, b, <)`; with the other comparison the arguments change places. -/
def timerLess (a b : TimeVal) : Prop :=
  if a.tvSec = b.tvSec then a.tvUsec < b.tvUsec else a.tvSec < b.tvSec

instance : DecidableRel timerLess := fun _ _ => inferInstanceAs (Decidable (ite _ _ _))

def timerAdd (a b : TimeVal) : TimeVal :=
  let v : TimeVal := ⟨a.tvSec + b.tvSec, a.tvUsec + b.tvUsec⟩
  if v.tvUsec ≥ 1000000 then ⟨v.tvSec + 1, v.tvUsec - 1000000⟩ else v

def timerSub (a b : TimeVal) : TimeVal :=
  let v : TimeVal := ⟨a.tvSec - b.tvSec, a.tvUsec - b.tvUsec⟩
  if v.tvUsec < 0 then ⟨v.tvSec - 1, v.tvUsec + 1000000⟩ else v

def TimeVal.Normalised (t : TimeVal) : Prop := 0 ≤ t.tvUsec ∧ t.tvUsec < 1000000

instance (t : TimeVal) : Decidable t.Normalised := inferInstanceAs (Decidable (_ ∧ _))

def TimeVal.micros (t : TimeVal) : ℤ := t.tvSec * 1000000 + t.tvUsec

abbrev maxFdEvents : ℕ := 8

/-- The two list heads and the events by their addresses. -/
inductive Node where
  | timerList
  | pendingList
  | event (ev : ℕ)
  deriving DecidableEq, Repr

/-- The fields of a ril_event but for its two pointers, which are kept with the lists. -/
structure RilEvent where
  fd : ℤ
  index : ℤ
  persist : Bool
  timeout : TimeVal
  func : ℕ
  param : ℕ
  deriving DecidableEq, Repr

/-- One call of a callback. -/
structure Call where
  ev : ℕ
  func : ℕ
  fd : ℤ
  param : ℕ
  timer : Option (TimerQueue.Timer TimeVal)
  time : TimeVal
  pass : ℕ
  deriving DecidableEq, Repr

/-- In firePending ev is the event to be fired next, and next the one after a callback that is
being run. -/
inductive Phase where
  | top
  | selecting (tv : Option TimeVal)
  | timedOut
  | firing (ev : Node)
  | calling (next : Node)
  deriving DecidableEq, Repr

/-- Below the clock are histories, which the code never reads: the deadlines in the order of the
ril_timer_add calls, the call that added a timer which has not fired, the events deleted and not
added since, the passes and the calls of callbacks. -/
structure State where
  links : Links Node
  event : ℕ → RilEvent
  watchTable : Fin maxFdEvents → Option ℕ
  readFds : ℤ → Bool
  nfds : ℤ
  phase : Phase
  clock : TimeVal
  deadlines : List TimeVal
  number : ℕ → Option ℕ
  deleted : ℕ → Bool
  pass : ℕ
  called : List Call

def unset : RilEvent := ⟨-1, -1, false, ⟨0, 0⟩, 0, 0⟩

/-- The state that ril_event_init leaves. -/
def rilEventInit (clock : TimeVal) : State where
  links := ((⟨fun _ => none, fun _ => none⟩ : Links Node).initList .timerList).initList .pendingList
  event := fun _ => unset
  watchTable := fun _ => none
  readFds := fun _ => false
  nfds := 0
  phase := .top
  clock := clock
  deadlines := []
  number := fun _ => none
  deleted := fun _ => false
  pass := 0
  called := []

def State.timeout (s : State) : Node → TimeVal
  | .event ev => (s.event ev).timeout
  | _ => ⟨0, 0⟩

def State.setEvent (s : State) (ev : ℕ) (e : RilEvent) : State :=
  { s with event := Function.update s.event ev e }

/-- The highest watched descriptor, or 0. -/
def State.maxFd (s : State) : ℤ :=
  (List.finRange maxFdEvents).foldl (fun n i =>
    match s.watchTable i with
    | some rev => if (s.event rev).fd > n then (s.event rev).fd else n
    | none => n) 0

def removeWatch (s : State) (ev : ℕ) (index : Fin maxFdEvents) : State :=
  let fd := (s.event ev).fd
  let s := { s with watchTable := Function.update s.watchTable index none }
  let s := s.setEvent ev { s.event ev with index := -1 }
  let s := { s with readFds := Function.update s.readFds fd false }
  if fd + 1 = s.nfds then { s with nfds := s.maxFd + 1 } else s

/-- The loop of ril_timer_add. -/
def firstNotBefore (s : State) (timeout : TimeVal) : ℕ → Node → Option Node
  | 0, _ => none
  | fuel + 1, list =>
    if timerLess (s.timeout list) timeout ∧ list ≠ .timerList then
      (s.links.next list).bind (firstNotBefore s timeout fuel)
    else some list

/-- A walk of the timer list takes at most as many steps as timers have been added. -/
def State.fuel (s : State) : ℕ := s.deadlines.length + 1

def rilTimerAdd (s : State) (ev : ℕ) (tv : Option TimeVal) : Option State :=
  match tv with
  | none => some s
  | some tv => do
    let timeout := timerAdd s.clock tv
    let list ← s.links.next .timerList
    let s' := s.setEvent ev { s.event ev with fd := -1, timeout := timeout }
    let list ← firstNotBefore s' timeout s.fuel list
    let links ← s.links.addToList (.event ev) list
    some { s' with
      links := links
      deadlines := s.deadlines ++ [timeout]
      number := Function.update s.number ev (some s.deadlines.length)
      deleted := Function.update s.deleted ev false }

def rilEventSet (s : State) (ev : ℕ) (fd : ℤ) (persist : Bool) (func param : ℕ) : State :=
  { s.setEvent ev ⟨fd, -1, persist, ⟨0, 0⟩, func, param⟩ with
    links := (s.links.setNext (.event ev) none).setPrev (.event ev) none
    number := Function.update s.number ev none }

def rilEventAdd (s : State) (ev : ℕ) : State :=
  let s := { s with deleted := Function.update s.deleted ev false }
  match (List.finRange maxFdEvents).find? (fun i => (s.watchTable i).isNone) with
  | none => s
  | some i =>
    let s := { s with watchTable := Function.update s.watchTable i (some ev) }
    let s := s.setEvent ev { s.event ev with index := i }
    let s := { s with readFds := Function.update s.readFds (s.event ev).fd true }
    if (s.event ev).fd ≥ s.nfds then { s with nfds := (s.event ev).fd + 1 } else s

def rilEventDel (s : State) (ev : ℕ) : State :=
  let s := { s with deleted := Function.update s.deleted ev true }
  if h : 0 ≤ (s.event ev).index ∧ (s.event ev).index < (maxFdEvents : ℤ) then
    removeWatch s ev ⟨(s.event ev).index.toNat, by omega⟩
  else s

/-- The loop of processTimeouts. -/
def expire (s : State) : ℕ → Node → Links Node → Option (Links Node)
  | 0, _, _ => none
  | fuel + 1, tev, links =>
    if tev ≠ .timerList ∧ timerLess (s.timeout tev) s.clock then do
      let next ← links.next tev
      let links ← links.removeFromList tev
      let links ← links.addToList tev .pendingList
      expire s fuel next links
    else some links

def processTimeouts (s : State) : Option State := do
  let tev ← s.links.next .timerList
  let links ← expire s s.fuel tev s.links
  some { s with links := links, phase := .timedOut, pass := s.pass + 1 }

/-- The loop of processReadReadies over the rest of the watch table. -/
def readReadies (rfds : ℤ → Bool) : List (Fin maxFdEvents) → ℤ → State → Option State
  | [], _, s => some s
  | i :: rest, n, s =>
    if 0 < n then
      match s.watchTable i with
      | some rev =>
        if rfds (s.event rev).fd then do
          let links ← s.links.addToList (.event rev) .pendingList
          let s := { s with links := links }
          let s := if (s.event rev).persist = false then removeWatch s rev i else s
          readReadies rfds rest (n - 1) s
        else readReadies rfds rest n s
      | none => readReadies rfds rest n s
    else some s

def processReadReadies (s : State) (rfds : ℤ → Bool) (n : ℤ) : Option State := do
  let s ← readReadies rfds (List.finRange maxFdEvents) n s
  let ev ← s.links.next .pendingList
  some { s with phase := .firing ev }

def State.timer (s : State) (ev : ℕ) : Option (TimerQueue.Timer TimeVal) :=
  (s.number ev).map fun n => ⟨n, (s.event ev).timeout⟩

/-- One round of the loop of firePending, up to the call of ev->func. -/
def firePending (s : State) (ev : ℕ) : Option State := do
  let next ← s.links.next (.event ev)
  let links ← s.links.removeFromList (.event ev)
  let e := s.event ev
  some { s with
    links := links
    phase := .calling next
    number := Function.update s.number ev none
    called := s.called ++ [⟨ev, e.func, e.fd, e.param, s.timer ev, s.clock, s.pass⟩] }

def calcNextTimeout (s : State) : Option (Option TimeVal) := do
  let tev ← s.links.next .timerList
  if tev = .timerList then some none
  else if timerLess s.clock (s.timeout tev) then some (some (timerSub (s.timeout tev) s.clock))
  else some (some ⟨0, 0⟩)

inductive Event where
  | rilEventSet (ev : ℕ) (fd : ℤ) (persist : Bool) (func param : ℕ)
  | rilEventAdd (ev : ℕ)
  | rilTimerAdd (ev : ℕ) (tv : Option TimeVal)
  | rilEventDel (ev : ℕ)
  | clock (now : TimeVal)
  | calcNextTimeout
  | interrupted
  | processTimeouts
  | processReadReadies (rfds : ℤ → Bool) (n : ℤ)
  | firePending (ev : ℕ)
  | callbackReturns
  | endOfPass

def step (s : State) : Event → Option State
  | .rilEventSet ev fd persist func param => some (rilEventSet s ev fd persist func param)
  | .rilEventAdd ev => some (rilEventAdd s ev)
  | .rilTimerAdd ev tv => rilTimerAdd s ev tv
  | .rilEventDel ev => some (rilEventDel s ev)
  | .clock now => some { s with clock := now }
  | .calcNextTimeout => (calcNextTimeout s).map fun tv => { s with phase := .selecting tv }
  | .interrupted => some { s with phase := .top }
  | .processTimeouts => processTimeouts s
  | .processReadReadies rfds n => processReadReadies s rfds n
  | .firePending ev => firePending s ev
  | .callbackReturns =>
    match s.phase with
    | .calling next => some { s with phase := .firing next }
    | _ => none
  | .endOfPass => some { s with phase := .top }

/-- The calls come at any time, the steps of the loop in its order; the clock does not go back and
the times given are normalised and not negative. -/
def Enabled (s : State) : Event → Prop
  | .rilEventSet .. | .rilEventAdd _ | .rilEventDel _ => True
  | .rilTimerAdd _ tv => ∀ t ∈ tv, t.Normalised ∧ 0 ≤ t.tvSec
  | .clock now => now.Normalised ∧ ¬ timerLess now s.clock
  | .calcNextTimeout => s.phase = .top
  | .interrupted | .processTimeouts => ∃ tv, s.phase = .selecting tv
  | .processReadReadies .. => s.phase = .timedOut
  | .firePending ev => s.phase = .firing (.event ev)
  | .callbackReturns => ∃ next, s.phase = .calling next
  | .endOfPass => s.phase = .firing .pendingList

/-- A step that fails leaves the state as it is; `Fails` tells it from the others. -/
def next (s : State) (e : Event) : State := (step s e).getD s

def Fails (s : State) (e : Event) : Prop := step s e = none

def loop : System State Event := ⟨Enabled, next⟩

def State.InTable (s : State) (ev : ℕ) : Prop := ∃ i, s.watchTable i = some ev

/-- Only an event in a list has pointers. -/
def State.Linked (s : State) (ev : ℕ) : Prop := s.links.next (.event ev) ≠ none

instance (s : State) (ev : ℕ) : Decidable (s.InTable ev) :=
  inferInstanceAs (Decidable (∃ _, _))

instance (s : State) (ev : ℕ) : Decidable (s.Linked ev) := inferInstanceAs (Decidable (_ ≠ _))

/-- How the callers use the events: an event is set or added as a timer when it is neither
watched nor in a list, and is watched once at a time with a descriptor. -/
def WellUsed (s : State) : Event → Prop
  | .rilEventSet ev .. => ¬ s.InTable ev ∧ ¬ s.Linked ev
  | .rilTimerAdd ev tv => tv ≠ none → ¬ s.InTable ev ∧ ¬ s.Linked ev
  | .rilEventAdd ev => ¬ s.InTable ev ∧ 0 ≤ (s.event ev).fd
  | _ => True
instance (s : State) (e : Event) : Decidable (WellUsed s e) :=
  match e with
  | .rilEventSet .. => inferInstanceAs (Decidable (¬ _ ∧ ¬ _))
  | .rilTimerAdd _ tv => inferInstanceAs (Decidable (tv ≠ none → ¬ _ ∧ ¬ _))
  | .rilEventAdd _ => inferInstanceAs (Decidable (¬ _ ∧ _))
  | .rilEventDel _ | .clock _ | .calcNextTimeout | .interrupted | .processTimeouts
  | .processReadReadies .. | .firePending _ | .callbackReturns | .endOfPass => isTrue trivial

end RilEventLoop
