import Mathlib.Data.List.Nodup
import Mathlib.Data.List.Count
import Mathlib.Data.Fin.Basic
import Mathlib.Logic.Function.Basic
import Mathlib.Data.Fintype.Basic
import VendorMediatek.LabelledRuns

/-!
# RIL channel queues

`my_enqueue`, `my_dequeue` and the release at the end of `RIL_onRequestComplete` (ril.cpp,
built with RIL_CHANNEL_QUEUING). Each call is one event; a run interleaves the calls of both
SIM slots. The histories of enqueued, handed over and uncompleted requests are kept beside the
code's own queues and flags, which never read them.
-/

namespace RilChannelQueue

open LabelledRuns
open scoped List

/-- The channels of the first set: the command table names no others. -/
inductive RILChannelId where
  | urc | cmd1 | cmd2 | cmd3 | cmd4 | atci
  deriving DecidableEq, Repr

abbrev rilCmdProxy1 : RILChannelId := .cmd3
abbrev rilCmdProxy2 : RILChannelId := .cmd2
abbrev rilCmdProxy3 : RILChannelId := .cmd1
abbrev rilCmdProxy4 : RILChannelId := .urc
abbrev rilCmdProxy5 : RILChannelId := .cmd4
abbrev rilCmdProxy6 : RILChannelId := .atci

inductive RILSocketId where
  | socket1 | socket2
  deriving DecidableEq, Repr

inductive BufFmts where
  | ignore | void | ints | str | strs | callFWST | iccAPDU | simio | wrSMSSIM | raw
  | attchAPN | imsSms | simauth | dataprof
  deriving DecidableEq, Repr

def rilRequestRadioPower : ℕ := 23

structure CommandInfo where
  requestNumber : ℕ
  proxyId : RILChannelId
  deriving DecidableEq, Repr

/-- addr stands for the block that addRequestToList allocated for the request. -/
structure RequestInfo where
  addr : ℕ
  pCI : CommandInfo
  socketId : RILSocketId
  deriving DecidableEq, Repr

/-- An entry of proxyCmd1 or proxyCmd3; buf is NULL where nothing was copied. -/
structure ProxyReqInfo (β : Type) where
  pRI : RequestInfo
  buf : Option β
  buflen : ℕ
  bf : BufFmts
  deriving DecidableEq, Repr

/-- One call of the vendor's onRequest. -/
structure OnRequest (β : Type) where
  request : ℕ
  buf : Option β
  buflen : ℕ
  pRI : RequestInfo
  deriving DecidableEq, Repr

inductive QueuedChannel where
  | proxy1 | proxy3
  deriving DecidableEq, Repr

instance : Fintype QueuedChannel := ⟨{.proxy1, .proxy3}, by rintro (_ | _) <;> decide⟩

def queuedChannel (id : RILChannelId) : Option QueuedChannel :=
  if id = rilCmdProxy1 then some .proxy1 else if id = rilCmdProxy3 then some .proxy3 else none

def RILSocketId.slot (id : RILSocketId) : Fin 2 := if id = .socket2 then 1 else 0

/-- proxyCmd1 and proxyCmd3, cmdProxy1busy and cmdProxy3busy, by channel and slot. -/
structure ChannelState (β : Type) where
  proxyCmd : QueuedChannel → Fin 2 → List (ProxyReqInfo β)
  cmdProxyBusy : QueuedChannel → Fin 2 → Bool

variable {β : Type}

def ChannelState.setQueue (s : ChannelState β) (c : QueuedChannel) (slot : Fin 2)
    (q : List (ProxyReqInfo β)) : ChannelState β :=
  { s with proxyCmd := Function.update s.proxyCmd c (Function.update (s.proxyCmd c) slot q) }

def ChannelState.setBusy (s : ChannelState β) (c : QueuedChannel) (slot : Fin 2) (b : Bool) :
    ChannelState β :=
  { s with
    cmdProxyBusy := Function.update s.cmdProxyBusy c (Function.update (s.cmdProxyBusy c) slot b) }

/-- Radio power on the first proxy tests and takes slot 0's flag whatever its own slot. -/
def testedFlag (c : QueuedChannel) (request : ℕ) (slot : Fin 2) : Fin 2 :=
  if c = .proxy1 ∧ request = rilRequestRadioPower then 0 else slot

/-- What p->buf is set to. memcpy copies the first buflen bytes behind a pointer into a fresh
block; that the pointer may be NULL is not looked at. -/
def queuedBuf (memcpy : Option β → ℕ → β) (buf : Option β) (buflen : ℕ) (bf : BufFmts) :
    Option β :=
  if bf ≠ .void ∧ buflen ≠ 0 then some (memcpy buf buflen) else none

def myEnqueue (memcpy : Option β → ℕ → β) (s : ChannelState β) (request : ℕ) (buf : Option β)
    (buflen : ℕ) (bf : BufFmts) (pRI : RequestInfo) :
    ChannelState β × Option (OnRequest β) :=
  let direct : OnRequest β := ⟨request, buf, buflen, pRI⟩
  if bf = .ignore then (s, some direct)
  else
    match queuedChannel pRI.pCI.proxyId with
    | none => (s, some direct)
    | some c =>
      let slot := pRI.socketId.slot
      let flag := testedFlag c request slot
      let pending := s.cmdProxyBusy c flag
      let s := s.setBusy c flag true
      if pending then
        let p : ProxyReqInfo β := ⟨pRI, queuedBuf memcpy buf buflen bf, buflen, bf⟩
        (s.setQueue c slot (s.proxyCmd c slot ++ [p]), none)
      else (s, some direct)

def myDequeue (s : ChannelState β) (slot : Fin 2) (c : QueuedChannel) :
    ChannelState β × Option (OnRequest β) :=
  match s.proxyCmd c slot with
  | [] => (s.setBusy c slot false, none)
  | p :: rest =>
    ((s.setQueue c slot rest).setBusy c slot true,
      some ⟨p.pRI.pCI.requestNumber, p.buf, p.buflen, p.pRI⟩)

/-- The part of RIL_onRequestComplete behind the label done. -/
def rilOnRequestCompleteDone (s : ChannelState β) (pRI : RequestInfo) :
    ChannelState β × Option (OnRequest β) :=
  let ret : Fin 2 := if pRI.socketId = .socket1 then 0 else 1
  match queuedChannel pRI.pCI.proxyId with
  | none => (s, none)
  | some c => myDequeue (s.setBusy c ret false) ret c

def RequestInfo.OnChannel (r : RequestInfo) (slot : Fin 2) (c : QueuedChannel) : Prop :=
  r.socketId.slot = slot ∧ queuedChannel r.pCI.proxyId = some c

instance (r : RequestInfo) (slot : Fin 2) (c : QueuedChannel) : Decidable (r.OnChannel slot c) :=
  inferInstanceAs (Decidable (_ ∧ _))

structure State (β : Type) where
  chan : ChannelState β
  enqueued : List RequestInfo
  handed : List RequestInfo
  inFlight : List RequestInfo

def initial : State β := ⟨⟨fun _ _ => [], fun _ _ => false⟩, [], [], []⟩

inductive Event (β : Type) where
  | enqueue (request : ℕ) (buf : Option β) (buflen : ℕ) (bf : BufFmts) (pRI : RequestInfo)
  | complete (pRI : RequestInfo)

/-- Each call of my_enqueue has a request block of its own; the vendor completes what it was
handed and has not completed yet. -/
def Enabled (s : State β) : Event β → Prop
  | .enqueue _ _ _ _ pRI => pRI ∉ s.enqueued
  | .complete pRI => pRI ∈ s.inFlight

instance (s : State β) (e : Event β) : Decidable (Enabled s e) := by
  cases e <;> simp only [Enabled] <;> infer_instance

def State.hand (s : State β) (r : ChannelState β × Option (OnRequest β)) : State β :=
  { s with
    chan := r.1
    handed := s.handed ++ (r.2.map OnRequest.pRI).toList
    inFlight := s.inFlight ++ (r.2.map OnRequest.pRI).toList }

def next (memcpy : Option β → ℕ → β) (s : State β) : Event β → State β
  | .enqueue request buf buflen bf pRI =>
    { s with enqueued := s.enqueued ++ [pRI] }.hand
      (myEnqueue memcpy s.chan request buf buflen bf pRI)
  | .complete pRI =>
    { s with inFlight := s.inFlight.erase pRI }.hand (rilOnRequestCompleteDone s.chan pRI)

def system (memcpy : Option β → ℕ → β) : System (State β) (Event β) := ⟨Enabled, next memcpy⟩

instance (memcpy : Option β → ℕ → β) (s : State β) (e : Event β) :
    Decidable ((system memcpy).Enabled s e) :=
  inferInstanceAs (Decidable (Enabled s e))

@[simp] theorem setQueue_busy (s : ChannelState β) (c : QueuedChannel) (slot : Fin 2)
    (q : List (ProxyReqInfo β)) : (s.setQueue c slot q).cmdProxyBusy = s.cmdProxyBusy := rfl

@[simp] theorem setBusy_queue (s : ChannelState β) (c : QueuedChannel) (slot : Fin 2) (b : Bool) :
    (s.setBusy c slot b).proxyCmd = s.proxyCmd := rfl

@[simp] theorem setQueue_queue (s : ChannelState β) (c d : QueuedChannel) (slot t : Fin 2)
    (q : List (ProxyReqInfo β)) :
    (s.setQueue c slot q).proxyCmd d t = if d = c ∧ t = slot then q else s.proxyCmd d t := by
  by_cases hd : d = c
  · subst d
    by_cases ht : t = slot <;> simp [ChannelState.setQueue, ht]
  · simp [ChannelState.setQueue, hd]

@[simp] theorem setBusy_busy (s : ChannelState β) (c d : QueuedChannel) (slot t : Fin 2)
    (b : Bool) :
    (s.setBusy c slot b).cmdProxyBusy d t = if d = c ∧ t = slot then b else s.cmdProxyBusy d t := by
  by_cases hd : d = c
  · subst d
    by_cases ht : t = slot <;> simp [ChannelState.setBusy, ht]
  · simp [ChannelState.setBusy, hd]

/-- my_enqueue goes past the queues for FMT_IGNORE and on the channels without a queue. -/
def Bypasses (bf : BufFmts) (pRI : RequestInfo) : Prop :=
  bf = .ignore ∨ queuedChannel pRI.pCI.proxyId = none

theorem myEnqueue_bypass (memcpy : Option β → ℕ → β) (s : ChannelState β) {request buf buflen bf pRI}
    (h : Bypasses bf pRI) :
    myEnqueue memcpy s request buf buflen bf pRI = (s, some ⟨request, buf, buflen, pRI⟩) := by
  rcases h with rfl | h
  · simp [myEnqueue]
  · simp [myEnqueue, h]

theorem myEnqueue_clear (memcpy : Option β → ℕ → β) (s : ChannelState β) {request buf buflen bf pRI c}
    (hi : bf ≠ .ignore) (hc : queuedChannel pRI.pCI.proxyId = some c)
    (hb : s.cmdProxyBusy c (testedFlag c request pRI.socketId.slot) = false) :
    myEnqueue memcpy s request buf buflen bf pRI =
      (s.setBusy c (testedFlag c request pRI.socketId.slot) true,
        some ⟨request, buf, buflen, pRI⟩) := by
  simp [myEnqueue, hi, hc, hb]

theorem myEnqueue_pending (memcpy : Option β → ℕ → β) (s : ChannelState β) (request : ℕ)
    (buf : Option β) (buflen : ℕ) {bf pRI c} (hi : bf ≠ .ignore)
    (hc : queuedChannel pRI.pCI.proxyId = some c)
    (hb : s.cmdProxyBusy c (testedFlag c request pRI.socketId.slot) = true) :
    ∃ p : ProxyReqInfo β, (p.pRI = pRI ∧ p.buf = queuedBuf memcpy buf buflen bf) ∧
      myEnqueue memcpy s request buf buflen bf pRI =
      ((s.setBusy c (testedFlag c request pRI.socketId.slot) true).setQueue c pRI.socketId.slot
        (s.proxyCmd c pRI.socketId.slot ++ [p]), none) := by
  exact ⟨_, ⟨rfl, rfl⟩, by simp only [myEnqueue, hi, hc, hb, if_true, if_false]; rfl⟩

theorem next_enqueue_cases (memcpy : Option β → ℕ → β) (s : State β) (request : ℕ) (buf : Option β)
    (buflen : ℕ) (bf : BufFmts) (pRI : RequestInfo) :
    (Bypasses bf pRI ∧ next memcpy s (.enqueue request buf buflen bf pRI) =
      ⟨s.chan, s.enqueued ++ [pRI], s.handed ++ [pRI], s.inFlight ++ [pRI]⟩) ∨
    (∃ c, bf ≠ .ignore ∧ queuedChannel pRI.pCI.proxyId = some c ∧
      s.chan.cmdProxyBusy c (testedFlag c request pRI.socketId.slot) = false ∧
      next memcpy s (.enqueue request buf buflen bf pRI) =
        ⟨s.chan.setBusy c (testedFlag c request pRI.socketId.slot) true,
          s.enqueued ++ [pRI], s.handed ++ [pRI], s.inFlight ++ [pRI]⟩) ∨
    (∃ c p, bf ≠ .ignore ∧ queuedChannel pRI.pCI.proxyId = some c ∧
      (p.pRI = pRI ∧ p.buf = queuedBuf memcpy buf buflen bf) ∧
      s.chan.cmdProxyBusy c (testedFlag c request pRI.socketId.slot) = true ∧
      next memcpy s (.enqueue request buf buflen bf pRI) =
        ⟨(s.chan.setBusy c (testedFlag c request pRI.socketId.slot) true).setQueue c
            pRI.socketId.slot (s.chan.proxyCmd c pRI.socketId.slot ++ [p]),
          s.enqueued ++ [pRI], s.handed, s.inFlight⟩) := by
  by_cases hi : Bypasses bf pRI
  · exact Or.inl ⟨hi, by simp [next, myEnqueue_bypass memcpy s.chan hi, State.hand]⟩
  · obtain ⟨hi, hq⟩ := not_or.mp hi
    obtain ⟨c, hc⟩ := Option.ne_none_iff_exists'.mp hq
    right
    cases hb : s.chan.cmdProxyBusy c (testedFlag c request pRI.socketId.slot) with
    | false =>
      exact Or.inl ⟨c, hi, hc, hb, by
        simp [next, myEnqueue_clear memcpy s.chan hi hc hb, State.hand]⟩
    | true =>
      obtain ⟨p, hp, he⟩ := myEnqueue_pending memcpy s.chan request buf buflen hi hc hb
      exact Or.inr ⟨c, p, hi, hc, hp, hb, by simp [next, he, State.hand]⟩

theorem complete_slot (id : RILSocketId) : (if id = .socket1 then 0 else 1) = id.slot := by
  cases id <;> rfl

/-- Completion releases the request's own slot: the queue's head is handed over, or the flag falls. -/
theorem next_complete_cases (memcpy : Option β → ℕ → β) (s : State β) (pRI : RequestInfo) :
    (queuedChannel pRI.pCI.proxyId = none ∧ next memcpy s (.complete pRI) =
      { s with inFlight := s.inFlight.erase pRI }) ∨
    (∃ c, queuedChannel pRI.pCI.proxyId = some c ∧ s.chan.proxyCmd c pRI.socketId.slot = [] ∧
      next memcpy s (.complete pRI) =
        ⟨(s.chan.setBusy c pRI.socketId.slot false).setBusy c pRI.socketId.slot false,
          s.enqueued, s.handed, s.inFlight.erase pRI⟩) ∨
    (∃ c p rest, queuedChannel pRI.pCI.proxyId = some c ∧
      s.chan.proxyCmd c pRI.socketId.slot = p :: rest ∧
      next memcpy s (.complete pRI) =
        ⟨((s.chan.setBusy c pRI.socketId.slot false).setQueue c pRI.socketId.slot rest).setBusy
            c pRI.socketId.slot true,
          s.enqueued, s.handed ++ [p.pRI], s.inFlight.erase pRI ++ [p.pRI]⟩) := by
  cases hc : queuedChannel pRI.pCI.proxyId with
  | none => exact Or.inl ⟨rfl, by simp [next, rilOnRequestCompleteDone, hc, State.hand]⟩
  | some c =>
    right
    cases hq : s.chan.proxyCmd c pRI.socketId.slot with
    | nil =>
      exact Or.inl ⟨c, rfl, hq, by
        simp [next, rilOnRequestCompleteDone, hc, complete_slot, myDequeue, hq, State.hand]⟩
    | cons p rest =>
      exact Or.inr ⟨c, p, rest, rfl, hq, by
        simp [next, rilOnRequestCompleteDone, hc, complete_slot, myDequeue, hq, State.hand]⟩

/-! ## Queues and flags against the requests in flight -/

def InFlight (s : State β) (slot : Fin 2) (c : QueuedChannel) : Prop :=
  ∃ r ∈ s.inFlight, r.OnChannel slot c

instance (s : State β) (slot : Fin 2) (c : QueuedChannel) : Decidable (InFlight s slot c) :=
  inferInstanceAs (Decidable (∃ r ∈ s.inFlight, r.OnChannel slot c))

/-- A channel that is marked busy or has requests waiting waits for a request in flight. -/
def NotStuck (s : State β) : Prop :=
  ∀ slot c, s.chan.cmdProxyBusy c slot = true ∨ s.chan.proxyCmd c slot ≠ [] → InFlight s slot c

/-- Radio power for the second slot finds slot 0's flag set while its own channel has a
request in flight, or finds it clear while slot 0 has one. Every other event is free. -/
def RadioPowerCovered (s : State β) : Event β → Prop
  | .enqueue request _ _ bf pRI =>
    bf ≠ .ignore → pRI.pCI.proxyId = rilCmdProxy1 → request = rilRequestRadioPower →
      pRI.socketId = .socket2 →
        if s.chan.cmdProxyBusy .proxy1 0 then InFlight s 1 .proxy1 else InFlight s 0 .proxy1
  | .complete _ => True

instance (s : State β) (e : Event β) : Decidable (RadioPowerCovered s e) := by
  cases e <;> simp only [RadioPowerCovered] <;> infer_instance

structure Placed (s : State β) : Prop where
  queue : ∀ c slot, ∀ p ∈ s.chan.proxyCmd c slot, p.pRI.OnChannel slot c

theorem inFlight_append {s : State β} {slot c} (l : List RequestInfo) (h : InFlight s slot c)
    (ch : ChannelState β) (en ha : List RequestInfo) :
    InFlight ⟨ch, en, ha, s.inFlight ++ l⟩ slot c := by
  obtain ⟨r, hr, ho⟩ := h
  exact ⟨r, List.mem_append_left _ hr, ho⟩

/-- Erasing a request of one channel leaves the requests of every other in flight. -/
theorem inFlight_erase {s : State β} {slot c} {r : RequestInfo} (hr : ¬ r.OnChannel slot c)
    (h : InFlight s slot c) (l : List RequestInfo) (ch : ChannelState β)
    (en ha : List RequestInfo) : InFlight ⟨ch, en, ha, s.inFlight.erase r ++ l⟩ slot c := by
  obtain ⟨q, hq, ho⟩ := h
  have hne : q ≠ r := fun he => hr (he ▸ ho)
  exact ⟨q, List.mem_append_left _ ((List.mem_erase_of_ne hne).mpr hq), ho⟩

theorem placed_pending {s : State β} (h : Placed s) {r : RequestInfo} {c : QueuedChannel}
    (hc : queuedChannel r.pCI.proxyId = some c) {p : ProxyReqInfo β} (hp : p.pRI = r)
    (flag : Fin 2) (enqueued handed inFlight : List RequestInfo) :
    Placed ⟨(s.chan.setBusy c flag true).setQueue c r.socketId.slot
      (s.chan.proxyCmd c r.socketId.slot ++ [p]), enqueued, handed, inFlight⟩ := by
  refine ⟨fun d slot q hq => ?_⟩
  rw [setQueue_queue] at hq
  split at hq
  · rename_i hd
    obtain ⟨rfl, rfl⟩ := hd
    rcases List.mem_append.mp hq with hq | hq
    · exact h.queue _ _ q hq
    · rw [List.mem_singleton.mp hq, hp]
      exact ⟨rfl, hc⟩
  · exact h.queue d slot q hq

theorem placed_next (memcpy : Option β → ℕ → β) {s : State β} (h : Placed s) (e : Event β) :
    Placed (next memcpy s e) := by
  cases e with
  | enqueue request buf buflen bf pRI =>
    obtain ⟨_, he⟩ | ⟨c, _, _, _, he⟩ | ⟨c, p, _, hc, ⟨hp, _⟩, _, he⟩ :=
      next_enqueue_cases memcpy s request buf buflen bf pRI
    · rw [he]; exact ⟨h.queue⟩
    · rw [he]; exact ⟨h.queue⟩
    · rw [he]
      exact placed_pending h hc hp _ _ _ _
  | complete pRI =>
    obtain ⟨_, he⟩ | ⟨c, _, _, he⟩ | ⟨c, p, rest, _, hq, he⟩ := next_complete_cases memcpy s pRI
    · rw [he]; exact ⟨h.queue⟩
    · rw [he]; exact ⟨h.queue⟩
    · rw [he]
      refine ⟨fun d slot q hm => ?_⟩
      simp only [setBusy_queue, setQueue_queue] at hm
      split at hm
      · rename_i hd
        obtain ⟨rfl, rfl⟩ := hd
        exact h.queue _ _ q (hq ▸ List.mem_cons_of_mem p hm)
      · exact h.queue d slot q hm

theorem placed_initial : Placed (initial : State β) := ⟨by simp [initial]⟩

theorem notStuck_initial : NotStuck (initial : State β) := by
  intro slot c h
  simp [initial] at h

theorem queuedChannel_proxy1 {id : RILChannelId} :
    queuedChannel id = some .proxy1 ↔ id = rilCmdProxy1 := by
  cases id <;> simp [queuedChannel, rilCmdProxy1, rilCmdProxy3]

theorem testedFlag_own {c : QueuedChannel} {request : ℕ} {slot : Fin 2}
    (h : ¬ (c = .proxy1 ∧ request = rilRequestRadioPower ∧ slot = 1)) :
    testedFlag c request slot = slot := by
  unfold testedFlag
  split
  · rename_i hc
    have : slot ≠ 1 := fun hs => h ⟨hc.1, hc.2, hs⟩
    omega
  · rfl

@[simp] theorem slot_socket1 : RILSocketId.socket1.slot = 0 := rfl
@[simp] theorem slot_socket2 : RILSocketId.socket2.slot = 1 := rfl

theorem slot_eq_one {id : RILSocketId} : id.slot = 1 ↔ id = .socket2 := by
  cases id <;> simp

/-- A request that is dispatched at once leaves every channel but its flag's as it was. -/
theorem notStuck_clear {s : State β} (h : NotStuck s) {pRI : RequestInfo} {c : QueuedChannel}
    {flag : Fin 2} (hc : queuedChannel pRI.pCI.proxyId = some c) :
    NotStuck ⟨s.chan.setBusy c flag true, s.enqueued ++ [pRI], s.handed ++ [pRI],
      s.inFlight ++ [pRI]⟩ ↔ flag = pRI.socketId.slot ∨ InFlight s flag c := by
  have own : pRI.OnChannel pRI.socketId.slot c := ⟨rfl, hc⟩
  constructor
  · intro hn
    obtain ⟨r, hr, ho⟩ := hn flag c (Or.inl (by simp))
    rcases List.mem_append.mp hr with hr | hr
    · exact Or.inr ⟨r, hr, ho⟩
    · rw [List.mem_singleton.mp hr] at ho
      exact Or.inl ho.1.symm
  · intro hf slot d hb
    by_cases hd : d = c ∧ slot = flag
    · obtain ⟨rfl, rfl⟩ := hd
      rcases hf with rfl | hf
      · exact ⟨pRI, List.mem_append_right _ (List.mem_singleton.mpr rfl), own⟩
      · exact inFlight_append _ hf _ _ _
    · refine inFlight_append _ (h slot d ?_) _ _ _
      simpa [hd] using hb

/-- A request that is queued needs one in flight on its own channel. -/
theorem notStuck_pending {s : State β} (h : NotStuck s) {pRI : RequestInfo} {c : QueuedChannel}
    {flag : Fin 2} {p : ProxyReqInfo β} (hb : s.chan.cmdProxyBusy c flag = true) :
    NotStuck ⟨(s.chan.setBusy c flag true).setQueue c pRI.socketId.slot
        (s.chan.proxyCmd c pRI.socketId.slot ++ [p]), s.enqueued ++ [pRI], s.handed, s.inFlight⟩ ↔
      InFlight s pRI.socketId.slot c := by
  constructor
  · intro hn
    exact hn pRI.socketId.slot c (Or.inr (by simp))
  · intro hf slot d hq
    by_cases hd : d = c ∧ slot = pRI.socketId.slot
    · obtain ⟨rfl, rfl⟩ := hd
      exact hf
    · apply h slot d
      simp only [setQueue_busy, setBusy_busy, setQueue_queue, setBusy_queue, hd, if_false] at hq
      rcases hq with hq | hq
      · split at hq
        · rename_i hs
          obtain ⟨rfl, rfl⟩ := hs
          exact Or.inl hb
        · exact Or.inl hq
      · exact Or.inr hq

theorem notStuck_enqueue_iff (memcpy : Option β → ℕ → β) {s : State β} (h : NotStuck s)
    (request : ℕ) (buf : Option β) (buflen : ℕ) (bf : BufFmts) (pRI : RequestInfo) :
    NotStuck (next memcpy s (.enqueue request buf buflen bf pRI)) ↔
      RadioPowerCovered s (.enqueue request buf buflen bf pRI) := by
  obtain ⟨hi, he⟩ | ⟨c, hi, hc, hb, he⟩ | ⟨c, p, hi, hc, ⟨hp, _⟩, hb, he⟩ :=
    next_enqueue_cases memcpy s request buf buflen bf pRI
  · rw [he]
    constructor
    · intro _ hg hx
      rcases hi with hi | hi
      · exact absurd hi hg
      · rw [queuedChannel_proxy1.mpr hx] at hi
        cases hi
    · exact fun _ slot c hb => inFlight_append _ (h slot c hb) _ _ _
  · rw [he, notStuck_clear h hc]
    by_cases hr : c = .proxy1 ∧ request = rilRequestRadioPower ∧ pRI.socketId.slot = 1
    · obtain ⟨rfl, rfl, hs⟩ := hr
      have hf : testedFlag .proxy1 rilRequestRadioPower pRI.socketId.slot = 0 := by
        simp [testedFlag]
      rw [hf] at hb ⊢
      simp [RadioPowerCovered, hi, queuedChannel_proxy1.mp hc, slot_eq_one.mp hs, hb]
    · simp only [testedFlag_own hr, true_or, true_iff]
      intro _ hx hq hs
      exact absurd ⟨Option.some.inj (hc.symm.trans (queuedChannel_proxy1.mpr hx)), hq,
        slot_eq_one.mpr hs⟩ hr
  · rw [he, notStuck_pending h hb]
    by_cases hr : c = .proxy1 ∧ request = rilRequestRadioPower ∧ pRI.socketId.slot = 1
    · obtain ⟨rfl, rfl, hs⟩ := hr
      have hf : testedFlag .proxy1 rilRequestRadioPower pRI.socketId.slot = 0 := by
        simp [testedFlag]
      rw [hf] at hb
      simp [RadioPowerCovered, hi, queuedChannel_proxy1.mp hc, slot_eq_one.mp hs, hb]
    · rw [testedFlag_own hr] at hb
      refine ⟨fun _ _ hx hq hs => ?_, fun _ => h _ _ (Or.inl hb)⟩
      exact absurd ⟨Option.some.inj (hc.symm.trans (queuedChannel_proxy1.mpr hx)), hq,
        slot_eq_one.mpr hs⟩ hr

theorem notStuck_complete (memcpy : Option β → ℕ → β) {s : State β} (hp : Placed s) (h : NotStuck s)
    (pRI : RequestInfo) : NotStuck (next memcpy s (.complete pRI)) := by
  obtain ⟨hn, he⟩ | ⟨c, hc, hq, he⟩ | ⟨c, p, rest, hc, hq, he⟩ := next_complete_cases memcpy s pRI
  · rw [he]
    intro slot d hb
    have := inFlight_erase (r := pRI) (by simp [RequestInfo.OnChannel, hn]) (h slot d hb) []
      s.chan s.enqueued s.handed
    simpa using this
  · rw [he]
    intro slot d hb
    by_cases hd : d = c ∧ slot = pRI.socketId.slot
    · obtain ⟨rfl, rfl⟩ := hd
      simp [hq] at hb
    · have hr : ¬ pRI.OnChannel slot d := fun ho =>
        hd ⟨Option.some.inj (ho.2.symm.trans hc), ho.1.symm⟩
      simpa using inFlight_erase hr (h slot d (by simpa [hd] using hb)) []
        ((s.chan.setBusy c pRI.socketId.slot false).setBusy c pRI.socketId.slot false)
        s.enqueued s.handed
  · rw [he]
    intro slot d hb
    by_cases hd : d = c ∧ slot = pRI.socketId.slot
    · obtain ⟨rfl, rfl⟩ := hd
      exact ⟨p.pRI, List.mem_append_right _ (List.mem_singleton.mpr rfl),
        hp.queue _ _ p (hq ▸ List.mem_cons_self)⟩
    · have hr : ¬ pRI.OnChannel slot d := fun ho =>
        hd ⟨Option.some.inj (ho.2.symm.trans hc), ho.1.symm⟩
      exact inFlight_erase hr (h slot d (by simpa [hd] using hb)) _ _ _ _

/-- The queues stay live throughout a run exactly when every radio power request for the
second slot is covered: its flag is taken on slot 0 but released on slot 1. -/
theorem queues_never_stuck_iff (memcpy : Option β → ℕ → β) (es : List (Event β))
    (legal : (system memcpy).Legal initial es) :
    (∀ pre, pre <+: es → NotStuck ((system memcpy).run initial pre)) ↔
      (system memcpy).Along RadioPowerCovered initial es := by
  refine always_iff_guarded (system memcpy) (I := Placed) ?_ ?_ placed_initial notStuck_initial legal
  · exact fun s e h _ => placed_next memcpy h e
  · intro s e hp h _
    cases e with
    | enqueue request buf buflen bf pRI =>
      exact notStuck_enqueue_iff memcpy h request buf buflen bf pRI
    | complete pRI => exact ⟨fun _ => trivial, fun _ => notStuck_complete memcpy hp h pRI⟩

/-- Block of bytes copied as my_enqueue copies it. -/
def memcpyBytes (buf : Option (List UInt8)) (n : ℕ) : List UInt8 := (buf.getD []).take n

def setRadioPower (addr : ℕ) (id : RILSocketId) : Event (List UInt8) :=
  .enqueue rilRequestRadioPower (some [1, 0, 0, 0]) 4 .ints
    ⟨addr, ⟨rilRequestRadioPower, rilCmdProxy1⟩, id⟩

def getIccCardStatus (addr : ℕ) (id : RILSocketId) : Event (List UInt8) :=
  .enqueue 1 none 0 .void ⟨addr, ⟨1, rilCmdProxy1⟩, id⟩

/-- Radio power for the second slot, queued behind a request of its own channel. -/
def coveredRun : List (Event (List UInt8)) :=
  [getIccCardStatus 0 .socket2, getIccCardStatus 1 .socket1,
    setRadioPower 2 .socket2, .complete ⟨0, ⟨1, rilCmdProxy1⟩, .socket2⟩,
    .complete ⟨2, ⟨rilRequestRadioPower, rilCmdProxy1⟩, .socket2⟩]

theorem coveredRun_never_stuck : (system memcpyBytes).Legal initial coveredRun ∧
    ∀ pre, pre <+: coveredRun → NotStuck ((system memcpyBytes).run initial pre) :=
  ⟨by decide, (queues_never_stuck_iff memcpyBytes coveredRun (by decide)).mpr (by decide)⟩

/-- The first radio power request of the second slot leaves slot 0's flag set for ever. -/
theorem radio_power_second_slot_sticks : ¬ ∀ es : List (Event (List UInt8)),
    (system memcpyBytes).Legal initial es →
      ∀ pre, pre <+: es → NotStuck ((system memcpyBytes).run initial pre) := by
  intro h
  have hs := h [setRadioPower 0 .socket2] (by decide) _ (List.prefix_refl _) 0 .proxy1
    (Or.inl (by decide))
  revert hs
  decide

/-! ## Exclusivity and order -/

def onLane (slot : Fin 2) (c : QueuedChannel) (l : List RequestInfo) : List RequestInfo :=
  l.filter fun r => r.OnChannel slot c

def State.waiting (s : State β) (slot : Fin 2) (c : QueuedChannel) : List RequestInfo :=
  (s.chan.proxyCmd c slot).map ProxyReqInfo.pRI

/-- What a lane owes its requests: one in flight, each handed over once, none overtaken. -/
structure ExclusiveFifo (s : State β) : Prop where
  exclusive : ∀ slot c, (onLane slot c s.inFlight).length ≤ 1
  once : s.handed.Nodup
  ordered : ∀ slot c, onLane slot c s.handed <+: onLane slot c s.enqueued

/-- A request that my_enqueue hands over at once finds its own lane idle. -/
def DirectWhenIdle (s : State β) : Event β → Prop
  | .enqueue request _ _ bf pRI =>
    ∀ c, queuedChannel pRI.pCI.proxyId = some c →
      bf = .ignore ∨
          s.chan.cmdProxyBusy c (testedFlag c request pRI.socketId.slot) = false →
        ¬ InFlight s pRI.socketId.slot c ∧ s.chan.proxyCmd c pRI.socketId.slot = []
  | .complete _ => True

instance (s : State β) (e : Event β) : Decidable (DirectWhenIdle s e) := by
  cases e <;> simp only [DirectWhenIdle] <;> infer_instance

/-- What holds of the histories whatever the vendor and the client do. -/
structure Recorded (s : State β) : Prop extends Placed s where
  fresh : s.enqueued.Nodup
  known : ∀ r ∈ s.handed, r ∈ s.enqueued
  once : s.handed.Nodup
  lanes : ∀ slot c, onLane slot c s.handed ++ s.waiting slot c ~ onLane slot c s.enqueued
  waitingOrdered : ∀ slot c, s.waiting slot c <+ onLane slot c s.enqueued

@[simp] theorem onLane_append (slot : Fin 2) (c : QueuedChannel) (l m : List RequestInfo) :
    onLane slot c (l ++ m) = onLane slot c l ++ onLane slot c m := List.filter_append ..

@[simp] theorem onLane_nil (slot : Fin 2) (c : QueuedChannel) : onLane slot c [] = [] := rfl

theorem onLane_singleton (slot : Fin 2) (c : QueuedChannel) (r : RequestInfo) :
    onLane slot c [r] = if r.OnChannel slot c then [r] else [] := by
  simp [onLane, List.filter_cons]

theorem mem_onLane {slot : Fin 2} {c : QueuedChannel} {l : List RequestInfo} {r : RequestInfo} :
    r ∈ onLane slot c l ↔ r ∈ l ∧ r.OnChannel slot c := by
  simp [onLane]

theorem onLane_eq_nil {s : State β} {slot : Fin 2} {c : QueuedChannel} :
    onLane slot c s.inFlight = [] ↔ ¬ InFlight s slot c := by
  simp [onLane, InFlight, List.filter_eq_nil_iff]

theorem onChannel_unique {r : RequestInfo} {slot t : Fin 2} {c d : QueuedChannel}
    (h : r.OnChannel slot c) : r.OnChannel t d ↔ t = slot ∧ d = c := by
  obtain ⟨hs, hc⟩ := h
  simp only [RequestInfo.OnChannel, hs, hc, Option.some.injEq]
  exact ⟨fun h => ⟨h.1.symm, h.2.symm⟩, fun h => ⟨h.1.symm, h.2.symm⟩⟩

theorem recorded_initial : Recorded (initial : State β) :=
  { placed_initial with
    fresh := List.nodup_nil
    known := by simp [initial]
    once := List.nodup_nil
    lanes := by simp [initial, State.waiting]
    waitingOrdered := by simp [initial, State.waiting] }

/-- Handing a new request over keeps the histories, whatever becomes of the flags. -/
theorem recorded_direct {s : State β} (h : Recorded s) {r : RequestInfo} (hr : r ∉ s.enqueued)
    (chan : ChannelState β) (hq : chan.proxyCmd = s.chan.proxyCmd) :
    Recorded ⟨chan, s.enqueued ++ [r], s.handed ++ [r], s.inFlight ++ [r]⟩ where
  queue := by simpa [hq] using h.queue
  fresh := List.nodup_append.mpr ⟨h.fresh, List.nodup_singleton r, by
    intro a ha b hb he
    exact hr (List.mem_singleton.mp hb ▸ he ▸ ha)⟩
  known := by
    intro q hm
    rcases List.mem_append.mp hm with hm | hm
    · exact List.mem_append_left _ (h.known q hm)
    · exact List.mem_append_right _ hm
  once := List.nodup_append.mpr ⟨h.once, List.nodup_singleton r, by
    intro a ha b hb he
    exact hr (h.known r (List.mem_singleton.mp hb ▸ he ▸ ha))⟩
  lanes slot c := by
    have hw : (State.mk chan (s.enqueued ++ [r]) (s.handed ++ [r]) (s.inFlight ++ [r])).waiting
        slot c = s.waiting slot c := by simp [State.waiting, hq]
    rw [hw]
    simp only [onLane_append]
    calc onLane slot c s.handed ++ onLane slot c [r] ++ s.waiting slot c
      _ ~ onLane slot c s.handed ++ s.waiting slot c ++ onLane slot c [r] := by
          rw [List.append_assoc, List.append_assoc]
          exact List.perm_append_comm.append_left _
      _ ~ onLane slot c s.enqueued ++ onLane slot c [r] := (h.lanes slot c).append_right _
  waitingOrdered slot c := by
    have hs := h.waitingOrdered slot c
    simp only [State.waiting, hq, onLane_append] at hs ⊢
    exact hs.trans (List.sublist_append_left _ _)

/-- A queued request joins the end of its lane, among the enqueued and the waiting alike. -/
theorem recorded_pending {s : State β} (h : Recorded s) {r : RequestInfo} (hr : r ∉ s.enqueued)
    {c : QueuedChannel} (hc : queuedChannel r.pCI.proxyId = some c) {p : ProxyReqInfo β}
    (hp : p.pRI = r) (flag : Fin 2) :
    Recorded ⟨(s.chan.setBusy c flag true).setQueue c r.socketId.slot
      (s.chan.proxyCmd c r.socketId.slot ++ [p]), s.enqueued ++ [r], s.handed, s.inFlight⟩ := by
  have hw : ∀ slot d, State.waiting ⟨(s.chan.setBusy c flag true).setQueue c r.socketId.slot
      (s.chan.proxyCmd c r.socketId.slot ++ [p]), s.enqueued ++ [r], s.handed, s.inFlight⟩ slot d =
      s.waiting slot d ++ onLane slot d [r] := by
    intro slot d
    have own : r.OnChannel r.socketId.slot c := ⟨rfl, hc⟩
    rw [onLane_singleton]
    by_cases hd : d = c ∧ slot = r.socketId.slot
    · obtain ⟨rfl, rfl⟩ := hd
      simp [State.waiting, own, hp]
    · have : ¬ r.OnChannel slot d := fun ho => hd ⟨((onChannel_unique own).mp ho).2,
        ((onChannel_unique own).mp ho).1⟩
      simp [State.waiting, hd, this]
  refine ⟨placed_pending h.toPlaced hc hp _ _ _ _, ?_, ?_, h.once, ?_, ?_⟩
  · exact List.nodup_append.mpr ⟨h.fresh, List.nodup_singleton r, by
      intro a ha b hb he
      exact hr (List.mem_singleton.mp hb ▸ he ▸ ha)⟩
  · exact fun q hq => List.mem_append_left _ (h.known q hq)
  · intro slot d
    rw [hw, onLane_append, ← List.append_assoc]
    exact (h.lanes slot d).append_right _
  · intro slot d
    rw [hw, onLane_append]
    exact (h.waitingOrdered slot d).append_right _

/-- The head of a queue that is handed over was not handed over before. -/
theorem recorded_dequeue {s : State β} (h : Recorded s) {c : QueuedChannel} {slot : Fin 2}
    {p : ProxyReqInfo β} {rest : List (ProxyReqInfo β)} (hq : s.chan.proxyCmd c slot = p :: rest)
    (chan : ChannelState β) (inFlight : List RequestInfo)
    (hchan : ∀ d t, chan.proxyCmd d t = if d = c ∧ t = slot then rest else s.chan.proxyCmd d t) :
    Recorded ⟨chan, s.enqueued, s.handed ++ [p.pRI], inFlight⟩ := by
  have own : p.pRI.OnChannel slot c := h.queue c slot p (hq ▸ List.mem_cons_self)
  have hwait : s.waiting slot c = p.pRI :: rest.map ProxyReqInfo.pRI := by
    simp [State.waiting, hq]
  have lane : ∀ t d, onLane t d [p.pRI] ++
      State.waiting ⟨chan, s.enqueued, s.handed ++ [p.pRI], inFlight⟩ t d = s.waiting t d := by
    intro t d
    rw [onLane_singleton]
    by_cases hd : d = c ∧ t = slot
    · obtain ⟨rfl, rfl⟩ := hd
      simp [State.waiting, own, hchan, hq]
    · have : ¬ p.pRI.OnChannel t d := fun ho => hd ⟨((onChannel_unique own).mp ho).2,
        ((onChannel_unique own).mp ho).1⟩
      simp [State.waiting, hchan, hd, this]
  have isNew : p.pRI ∉ s.handed := by
    intro hm
    have nodup : (onLane slot c s.handed ++ s.waiting slot c).Nodup :=
      (h.lanes slot c).nodup_iff.mpr (h.fresh.filter _)
    rw [hwait] at nodup
    exact (List.nodup_append.mp nodup).2.2 p.pRI (mem_onLane.mpr ⟨hm, own⟩) p.pRI
      List.mem_cons_self rfl
  refine ⟨⟨?_⟩, h.fresh, ?_, ?_, ?_, ?_⟩
  · intro d t q hm
    rw [hchan] at hm
    split at hm
    · rename_i hd
      obtain ⟨rfl, rfl⟩ := hd
      exact h.queue _ _ q (hq ▸ List.mem_cons_of_mem p hm)
    · exact h.queue d t q hm
  · intro r hr
    rcases List.mem_append.mp hr with hr | hr
    · exact h.known r hr
    · have : p.pRI ∈ onLane slot c s.enqueued :=
        (h.waitingOrdered slot c).subset (hwait ▸ List.mem_cons_self)
      exact List.mem_singleton.mp hr ▸ (mem_onLane.mp this).1
  · exact List.nodup_append.mpr ⟨h.once, List.nodup_singleton _, by
      intro a ha b hb he
      exact isNew (List.mem_singleton.mp hb ▸ he ▸ ha)⟩
  · intro t d
    rw [onLane_append, List.append_assoc, lane]
    exact h.lanes t d
  · intro t d
    refine List.Sublist.trans ?_ (h.waitingOrdered t d)
    rw [← lane t d]
    exact List.sublist_append_right _ _

theorem recorded_next (memcpy : Option β → ℕ → β) {s : State β} (h : Recorded s) (e : Event β)
    (he : Enabled s e) : Recorded (next memcpy s e) := by
  cases e with
  | enqueue request buf buflen bf pRI =>
    obtain ⟨_, hn⟩ | ⟨c, _, _, _, hn⟩ | ⟨c, p, _, hc, ⟨hp, _⟩, _, hn⟩ :=
      next_enqueue_cases memcpy s request buf buflen bf pRI
    · rw [hn]; exact recorded_direct h he _ rfl
    · rw [hn]; exact recorded_direct h he _ rfl
    · rw [hn]; exact recorded_pending h he hc hp _
  | complete pRI =>
    obtain ⟨_, hn⟩ | ⟨c, _, _, hn⟩ | ⟨c, p, rest, _, hq, hn⟩ := next_complete_cases memcpy s pRI
    · rw [hn]; exact { h with }
    · rw [hn]; exact { h with }
    · rw [hn]
      exact recorded_dequeue h hq _ _ (by simp)

/-- While no lane is overtaken, what waits is exactly what was enqueued and not handed over. -/
theorem handed_append_waiting {s : State β} (h : Recorded s) {slot : Fin 2} {c : QueuedChannel}
    (ordered : onLane slot c s.handed <+: onLane slot c s.enqueued) :
    onLane slot c s.handed ++ s.waiting slot c = onLane slot c s.enqueued := by
  obtain ⟨rest, hrest⟩ := ordered
  have hperm : s.waiting slot c ~ rest := by
    refine (List.perm_append_left_iff (onLane slot c s.handed)).mp ?_
    rw [hrest]
    exact h.lanes slot c
  have hnodup : (onLane slot c s.handed ++ rest).Nodup := hrest ▸ h.fresh.filter _
  have hdisj : ∀ r ∈ rest, r ∉ onLane slot c s.handed := fun r hr hm =>
    (List.nodup_append.mp hnodup).2.2 r hm r hr rfl
  have hsub : s.waiting slot c <+ rest := by
    have hs := (hrest ▸ h.waitingOrdered slot c).filter (fun r => r ∉ onLane slot c s.handed)
    rw [List.filter_append, List.filter_eq_self.mpr, List.filter_eq_nil_iff.mpr,
      List.filter_eq_self.mpr] at hs
    · exact hs
    · exact fun r hr => by simpa using hdisj r hr
    · exact fun r hr => by simpa using hr
    · exact fun r hr => by simpa using hdisj r (hperm.subset hr)
  rw [hsub.eq_of_length hperm.length_eq, hrest]

theorem concat_prefix_concat {α : Type*} {l m : List α} {a : α} (ha : a ∉ m) :
    l ++ [a] <+: m ++ [a] ↔ l = m := by
  rw [List.prefix_concat_iff]
  constructor
  · rintro (h | h)
    · exact List.append_cancel_right h
    · exact absurd (h.subset (List.mem_append_right _ List.mem_cons_self)) ha
  · rintro rfl
    exact Or.inl rfl

/-- Handing a new request over keeps its lane exclusive and in order only where the lane is idle. -/
theorem exclusiveFifo_direct {s : State β} (hrec : Recorded s) (h : ExclusiveFifo s)
    {r : RequestInfo} (hr : r ∉ s.enqueued) (chan : ChannelState β) :
    ExclusiveFifo ⟨chan, s.enqueued ++ [r], s.handed ++ [r], s.inFlight ++ [r]⟩ ↔
      ∀ c, queuedChannel r.pCI.proxyId = some c →
        ¬ InFlight s r.socketId.slot c ∧ s.chan.proxyCmd c r.socketId.slot = [] := by
  constructor
  · intro hn c hc
    have own : r.OnChannel r.socketId.slot c := ⟨rfl, hc⟩
    constructor
    · have hx := hn.exclusive r.socketId.slot c
      simp only [onLane_append, onLane_singleton, own, if_true, List.length_append,
        List.length_singleton] at hx
      exact onLane_eq_nil.mp (List.length_eq_zero_iff.mp (by omega))
    · have hx := hn.ordered r.socketId.slot c
      simp only [onLane_append, onLane_singleton, own, if_true] at hx
      have heq := (concat_prefix_concat fun hm => hr (mem_onLane.mp hm).1).mp hx
      have hlen := (hrec.lanes r.socketId.slot c).length_eq
      rw [heq, List.length_append] at hlen
      simpa [State.waiting] using hlen
  · intro hidle
    refine ⟨?_, ?_, ?_⟩
    · intro slot c
      simp only [onLane_append, onLane_singleton]
      by_cases ho : r.OnChannel slot c
      · obtain ⟨rfl, hc⟩ := ho
        have own : r.OnChannel r.socketId.slot c := ⟨rfl, hc⟩
        simp [onLane_eq_nil.mpr (hidle c hc).1, own]
      · simpa [ho] using h.exclusive slot c
    · exact List.nodup_append.mpr ⟨h.once, List.nodup_singleton r, by
        intro a ha b hb he
        exact hr (hrec.known r (List.mem_singleton.mp hb ▸ he ▸ ha))⟩
    · intro slot c
      simp only [onLane_append, onLane_singleton]
      by_cases ho : r.OnChannel slot c
      · obtain ⟨rfl, hc⟩ := ho
        have own : r.OnChannel r.socketId.slot c := ⟨rfl, hc⟩
        have heq := handed_append_waiting hrec (h.ordered r.socketId.slot c)
        simp only [State.waiting, (hidle c hc).2, List.map_nil, List.append_nil] at heq
        simp [own, heq]
      · simpa [ho] using h.ordered slot c

theorem exclusiveFifo_enqueue_iff (memcpy : Option β → ℕ → β) {s : State β} (hrec : Recorded s)
    (h : ExclusiveFifo s) {request : ℕ} {buf : Option β} {buflen : ℕ} {bf : BufFmts}
    {pRI : RequestInfo} (hr : pRI ∉ s.enqueued) :
    ExclusiveFifo (next memcpy s (.enqueue request buf buflen bf pRI)) ↔
      DirectWhenIdle s (.enqueue request buf buflen bf pRI) := by
  obtain ⟨hi, he⟩ | ⟨c, hi, hc, hb, he⟩ | ⟨c, p, hi, hc, ⟨hp, _⟩, hb, he⟩ :=
    next_enqueue_cases memcpy s request buf buflen bf pRI
  · rw [he, exclusiveFifo_direct hrec h hr]
    refine ⟨fun hd c hc _ => hd c hc, fun hd c hc => hd c hc ?_⟩
    rcases hi with hi | hi
    · exact Or.inl hi
    · rw [hc] at hi
      cases hi
  · rw [he, exclusiveFifo_direct hrec h hr]
    refine ⟨fun hd d hdc _ => hd d hdc, fun hd d hdc => hd d hdc (Or.inr ?_)⟩
    rwa [← Option.some.inj (hc.symm.trans hdc)]
  · rw [he]
    constructor
    · rintro - d hdc (hd | hd)
      · exact absurd hd hi
      · rw [← Option.some.inj (hc.symm.trans hdc), hb] at hd
        cases hd
    · intro _
      refine ⟨h.exclusive, h.once, fun slot d => ?_⟩
      simp only [onLane_append]
      exact (h.ordered slot d).trans (List.prefix_append _ _)

theorem exclusiveFifo_complete (memcpy : Option β → ℕ → β) {s : State β} (hrec : Recorded s)
    (h : ExclusiveFifo s) {pRI : RequestInfo} (hm : pRI ∈ s.inFlight) :
    ExclusiveFifo (next memcpy s (.complete pRI)) := by
  have hless : ∀ slot c, (onLane slot c (s.inFlight.erase pRI)).length ≤ 1 := fun slot c =>
    (List.Sublist.length_le (List.erase_sublist.filter _)).trans (h.exclusive slot c)
  obtain ⟨_, he⟩ | ⟨c, _, _, he⟩ | ⟨c, p, rest, hc, hq, he⟩ := next_complete_cases memcpy s pRI
  · rw [he]; exact ⟨hless, h.once, h.ordered⟩
  · rw [he]; exact ⟨hless, h.once, h.ordered⟩
  · have hnext := (recorded_next memcpy hrec (.complete pRI) hm).once
    rw [he] at hnext ⊢
    have own : p.pRI.OnChannel pRI.socketId.slot c := hrec.queue c _ p (hq ▸ List.mem_cons_self)
    refine ⟨?_, hnext, ?_⟩
    · intro slot d
      simp only [onLane_append, onLane_singleton, List.length_append]
      by_cases ho : p.pRI.OnChannel slot d
      · obtain ⟨rfl, rfl⟩ := (onChannel_unique own).mp ho
        have hin : pRI ∈ onLane pRI.socketId.slot d s.inFlight := mem_onLane.mpr ⟨hm, rfl, hc⟩
        have hone := h.exclusive pRI.socketId.slot d
        have herase : onLane pRI.socketId.slot d (s.inFlight.erase pRI) =
            (onLane pRI.socketId.slot d s.inFlight).erase pRI := (List.erase_filter ..).symm
        rw [herase, List.length_erase_of_mem hin]
        simp only [ho, if_true, List.length_singleton]
        omega
      · simpa [ho] using hless slot d
    · intro slot d
      simp only [onLane_append, onLane_singleton]
      by_cases ho : p.pRI.OnChannel slot d
      · obtain ⟨rfl, rfl⟩ := (onChannel_unique own).mp ho
        have heq := handed_append_waiting hrec (h.ordered pRI.socketId.slot d)
        rw [← heq]
        simp [State.waiting, hq, ho]
      · simpa [ho] using h.ordered slot d

theorem exclusiveFifo_initial : ExclusiveFifo (initial : State β) :=
  ⟨by simp [initial], List.nodup_nil, by simp [initial]⟩

/-- Every lane stays exclusive and in order throughout a run exactly when each request that is
handed over at once found its lane idle. FMT_IGNORE requests and radio power for the second
slot are those that do not look. -/
theorem exclusive_fifo_iff (memcpy : Option β → ℕ → β) (es : List (Event β))
    (legal : (system memcpy).Legal initial es) :
    (∀ pre, pre <+: es → ExclusiveFifo ((system memcpy).run initial pre)) ↔
      (system memcpy).Along DirectWhenIdle initial es := by
  refine always_iff_guarded (system memcpy) (I := Recorded) ?_ ?_ recorded_initial
    exclusiveFifo_initial legal
  · exact fun s e h he => recorded_next memcpy h e he
  · intro s e hrec h he
    cases e with
    | enqueue request buf buflen bf pRI => exact exclusiveFifo_enqueue_iff memcpy hrec h he
    | complete pRI => exact ⟨fun _ => trivial, fun _ => exclusiveFifo_complete memcpy hrec h he⟩

/-- The second slot's radio power waits behind its channel, the first slot's own goes ahead. -/
theorem coveredRun_exclusive_fifo : (system memcpyBytes).Legal initial coveredRun ∧
    ∀ pre, pre <+: coveredRun → ExclusiveFifo ((system memcpyBytes).run initial pre) :=
  ⟨by decide, (exclusive_fifo_iff memcpyBytes coveredRun (by decide)).mpr (by decide)⟩

/-- RIL_REQUEST_SET_INITIAL_ATTACH_APN as a version 15 vendor library gets it. -/
def setInitialAttachApn (addr : ℕ) (id : RILSocketId) : Event (List UInt8) :=
  .enqueue 111 (some []) 0 .ignore ⟨addr, ⟨111, rilCmdProxy1⟩, id⟩

/-- It goes past the flag of its channel while an earlier request is still in flight. -/
theorem ignored_format_shares_channel : ¬ ∀ es : List (Event (List UInt8)),
    (system memcpyBytes).Legal initial es →
      ∀ pre, pre <+: es → ExclusiveFifo ((system memcpyBytes).run initial pre) := by
  intro h
  have hx := (h [getIccCardStatus 0 .socket1, setInitialAttachApn 1 .socket1]
    (by decide) _ (List.prefix_refl _)).exclusive 0 .proxy1
  revert hx
  decide

end RilChannelQueue
