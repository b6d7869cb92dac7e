import Mathlib.Data.List.Pairwise
import Mathlib.Data.List.Count
import VendorMediatek.RilChannelQueue

/-!
# The cache of unsolicited responses

RIL_onUnsolicitedResponseSocket (ril.cpp, built with RIL_UNSOL_PENDING). An indication that
arrives while a service is not connected is cached; the next one that finds both connected
first flushes the cache. Allocations succeed. The arrivals and the calls of send_unsolResponse
are kept as histories that the code never reads.
-/

namespace RilUnsolCache

open LabelledRuns
open scoped List
open RilChannelQueue (RILSocketId)

abbrev maxPendingUSR : ℕ := 16
abbrev rilUnsolVendorBase : ℤ := 3000
abbrev rilUnsolResponseVoiceNetworkStateChanged : ℤ := 1002

/-- The vendor codes that are dropped on arrival, as offsets from the vendor base. -/
inductive Ignored where
  | malAtInfo | mainSimInfo | dataAllowed | phbReadyNotification | gprsDetach
  | crssNotification | responsePlmnChanged | volteEpsNetworkFeatureSupport
  | emergencyBearerSupportNotify | smsReadyNotification | callForwarding
  deriving DecidableEq, Repr

def Ignored.code : Ignored → ℤ
  | .malAtInfo => rilUnsolVendorBase + 74
  | .mainSimInfo => rilUnsolVendorBase + 75
  | .dataAllowed => rilUnsolVendorBase + 46
  | .phbReadyNotification => rilUnsolVendorBase + 2
  | .gprsDetach => rilUnsolVendorBase + 9
  | .crssNotification => rilUnsolVendorBase + 41
  | .responsePlmnChanged => rilUnsolVendorBase + 23
  | .volteEpsNetworkFeatureSupport => rilUnsolVendorBase + 48
  | .emergencyBearerSupportNotify => rilUnsolVendorBase + 59
  | .smsReadyNotification => rilUnsolVendorBase + 6
  | .callForwarding => rilUnsolVendorBase + 40

def ignoredCodes : List Ignored :=
  [.malAtInfo, .mainSimInfo, .dataAllowed, .phbReadyNotification, .gprsDetach,
    .crssNotification, .responsePlmnChanged, .volteEpsNetworkFeatureSupport,
    .emergencyBearerSupportNotify, .smsReadyNotification, .callForwarding]

/-- data is NULL or a buffer of datalen bytes. -/
structure Indication where
  unsolResponse : ℤ
  data : Option (List UInt8)
  datalen : ℕ
  socketId : RILSocketId
  length_data : ∀ bytes ∈ data, bytes.length = datalen
  deriving DecidableEq

def Indication.IsIgnored (i : Indication) : Prop :=
  i.unsolResponse ∈ ignoredCodes.map Ignored.code

instance (i : Indication) : Decidable i.IsIgnored :=
  inferInstanceAs (Decidable (_ ∈ _))

/-- What is not cached while a service is not connected. -/
def Indication.Dropped (i : Indication) : Prop :=
  i.data = none ∨ i.datalen = 0 ∨
    i.unsolResponse = rilUnsolResponseVoiceNetworkStateChanged

instance (i : Indication) : Decidable i.Dropped :=
  inferInstanceAs (Decidable (_ ∨ _ ∨ _))

/-- An indication with the number of its arrival. -/
structure Arrival where
  number : ℕ
  indication : Indication
  deriving DecidableEq

structure State where
  registerCalled : Bool
  isServiceConnected : RILSocketId → Bool
  pendingUSR : List Arrival
  handed : List Arrival
  arrived : List Arrival

def initial : State := ⟨false, fun _ => false, [], [], []⟩

/-- The next arrival, numbered from 0. -/
def State.arrival (s : State) (i : Indication) : Arrival := ⟨s.arrived.length, i⟩

def State.Connected (s : State) : Prop :=
  s.isServiceConnected .socket1 = true ∧ s.isServiceConnected .socket2 = true

instance (s : State) : Decidable s.Connected := inferInstanceAs (Decidable (_ ∧ _))

/-- A service's client connects or is lost between two calls. -/
inductive Event where
  | rilRegister
  | connection (slotId : RILSocketId) (connected : Bool)
  | onUnsolicitedResponse (i : Indication)
  deriving DecidableEq

def clrUSRBuffer (s : State) : State := { s with pendingUSR := [] }

def rilRegister (s : State) : State :=
  if s.registerCalled then s else clrUSRBuffer { s with registerCalled := true }

def sendUnsolResponse (s : State) (a : Arrival) : State :=
  { s with handed := s.handed ++ [a] }

/-- The loop over the cache, and pendingUSRcnt = 0 after it. -/
def flush (s : State) : State :=
  { s.pendingUSR.foldl sendUnsolResponse s with pendingUSR := [] }

def rilOnUnsolicitedResponseSocket (s : State) (a : Arrival) : State :=
  if s.registerCalled = false then s
  else if a.indication.IsIgnored then s
  else if s.Connected then sendUnsolResponse (flush s) a
  else if a.indication.Dropped then s
  else if s.pendingUSR.length < maxPendingUSR then
    { s with pendingUSR := s.pendingUSR ++ [a] }
  else s

def next (s : State) : Event → State
  | .rilRegister => rilRegister s
  | .connection slotId connected =>
    { s with isServiceConnected := Function.update s.isServiceConnected slotId connected }
  | .onUnsolicitedResponse i =>
    { rilOnUnsolicitedResponseSocket s (s.arrival i) with
      arrived := s.arrived ++ [s.arrival i] }

/-- Every call is possible in every state. -/
def cache : System State Event := ⟨fun _ _ => True, next⟩

def State.Accepts (s : State) (i : Indication) : Prop :=
  s.registerCalled = true ∧ ¬ i.IsIgnored

instance (s : State) (i : Indication) : Decidable (s.Accepts i) :=
  inferInstanceAs (Decidable (_ ∧ _))

/-- The indication finds room in the cache and is put there. -/
structure State.Caches (s : State) (i : Indication) : Prop where
  accepts : s.Accepts i
  connected : ¬ s.Connected
  kept : ¬ i.Dropped
  room : s.pendingUSR.length < maxPendingUSR

/-! ## What an event does -/

theorem foldl_sendUnsolResponse (l : List Arrival) (s : State) :
    l.foldl sendUnsolResponse s = { s with handed := s.handed ++ l } := by
  induction l generalizing s with
  | nil => simp
  | cons a l ih => simp [ih, sendUnsolResponse]

/-- What the event e does to the cache, seen from the state before it. -/
inductive Step (s : State) : Event → State → Prop where
  | connection (slotId : RILSocketId) (connected : Bool) : Step s (.connection slotId connected)
      { s with isServiceConnected := Function.update s.isServiceConnected slotId connected }
  | register (hregister : s.registerCalled = false) :
      Step s .rilRegister { s with registerCalled := true, pendingUSR := [] }
  | registered (hregister : s.registerCalled = true) : Step s .rilRegister s
  | ignore (i : Indication) :
      Step s (.onUnsolicitedResponse i) { s with arrived := s.arrived ++ [s.arrival i] }
  | deliver {i : Indication} (haccepts : s.Accepts i) (hconnected : s.Connected) :
      Step s (.onUnsolicitedResponse i)
        { s with
          handed := s.handed ++ s.pendingUSR ++ [s.arrival i]
          pendingUSR := []
          arrived := s.arrived ++ [s.arrival i] }
  | save {i : Indication} (hcaches : s.Caches i) :
      Step s (.onUnsolicitedResponse i)
        { s with
          pendingUSR := s.pendingUSR ++ [s.arrival i]
          arrived := s.arrived ++ [s.arrival i] }

theorem next_deliver {s : State} {i : Indication} (ha : s.Accepts i) (hc : s.Connected) :
    next s (.onUnsolicitedResponse i) =
      { s with
        handed := s.handed ++ s.pendingUSR ++ [s.arrival i]
        pendingUSR := []
        arrived := s.arrived ++ [s.arrival i] } := by
  simp [next, rilOnUnsolicitedResponseSocket, ha.1, ha.2, hc, flush, foldl_sendUnsolResponse,
    sendUnsolResponse, State.arrival]

theorem next_save {s : State} {i : Indication} (h : s.Caches i) :
    next s (.onUnsolicitedResponse i) =
      { s with
        pendingUSR := s.pendingUSR ++ [s.arrival i]
        arrived := s.arrived ++ [s.arrival i] } := by
  simp [next, rilOnUnsolicitedResponseSocket, h.accepts.1, h.accepts.2, h.connected, h.kept, h.room,
    State.arrival]

theorem step_next (s : State) (e : Event) : Step s e (next s e) := by
  have hignore : ∀ i, rilOnUnsolicitedResponseSocket s (s.arrival i) = s →
      Step s (.onUnsolicitedResponse i) (next s (.onUnsolicitedResponse i)) := by
    intro i h
    have hstep := Step.ignore (s := s) i
    simpa [next, h] using hstep
  cases e with
  | rilRegister =>
    cases hr : s.registerCalled with
    | true =>
      have hstep := Step.registered hr
      simpa [next, rilRegister, hr] using hstep
    | false =>
      have hstep := Step.register hr
      simpa [next, rilRegister, hr, clrUSRBuffer] using hstep
  | connection slotId connected => exact .connection slotId connected
  | onUnsolicitedResponse i =>
    by_cases hr : s.registerCalled = true
    · by_cases hi : i.IsIgnored
      · exact hignore i (by simp [rilOnUnsolicitedResponseSocket, State.arrival, hi])
      by_cases hc : s.Connected
      · rw [next_deliver ⟨hr, hi⟩ hc]
        exact .deliver ⟨hr, hi⟩ hc
      by_cases hcaches : ¬ i.Dropped ∧ s.pendingUSR.length < maxPendingUSR
      · have hsave : s.Caches i := ⟨⟨hr, hi⟩, hc, hcaches.1, hcaches.2⟩
        rw [next_save hsave]
        exact .save hsave
      · refine hignore i ?_
        rcases not_and_or.mp hcaches with hd | hfull
        · simp [rilOnUnsolicitedResponseSocket, State.arrival, hc, not_not.mp hd]
        · simp [rilOnUnsolicitedResponseSocket, State.arrival, hc, hfull]
    · exact hignore i (by simp [rilOnUnsolicitedResponseSocket, hr])

/-! ## Order and loss over a run -/

structure Ordered (s : State) : Prop where
  numbered : s.arrived.map Arrival.number = List.range s.arrived.length
  sublist : s.handed ++ s.pendingUSR <+ s.arrived
  bounded : s.pendingUSR.length ≤ maxPendingUSR

theorem ordered_initial : Ordered initial := by
  constructor <;> simp [initial]

theorem numbered_arrival {s : State} (h : Ordered s) (i : Indication) :
    (s.arrived ++ [s.arrival i]).map Arrival.number =
      List.range (s.arrived ++ [s.arrival i]).length := by
  simp [h.numbered, State.arrival, List.range_succ]

theorem ordered_step {s u : State} {e : Event} (h : Ordered s) (hs : Step s e u) :
    Ordered u := by
  cases hs with
  | connection | registered => exact ⟨h.numbered, h.sublist, h.bounded⟩
  | register =>
    refine ⟨h.numbered, ?_, Nat.zero_le _⟩
    rw [List.append_nil]
    exact (List.sublist_append_left _ _).trans h.sublist
  | ignore i =>
    exact ⟨numbered_arrival h i, h.sublist.trans (List.sublist_append_left _ _), h.bounded⟩
  | @deliver i =>
    refine ⟨numbered_arrival h i, ?_, Nat.zero_le _⟩
    rw [List.append_nil]
    exact h.sublist.append (List.Sublist.refl _)
  | @save i hcaches =>
    refine ⟨numbered_arrival h i, ?_, ?_⟩
    · rw [← List.append_assoc]
      exact h.sublist.append (List.Sublist.refl _)
    · have := hcaches.room
      simp only [List.length_append, List.length_singleton]
      omega

theorem ordered_run {s : State} (h : Ordered s) (es : List Event) : Ordered (cache.run s es) := by
  induction es generalizing s with
  | nil => exact h
  | cons e es ih => exact ih (ordered_step h (step_next s e))

/-- What an event does after RIL_register only adds to what is handed over or cached. -/
structure Extends (s u : State) : Prop where
  registered : u.registerCalled = true
  handed : s.handed <+: u.handed
  total : s.handed ++ s.pendingUSR <+: u.handed ++ u.pendingUSR

theorem extends_step {s u : State} {e : Event} (hr : s.registerCalled = true) (hs : Step s e u) :
    Extends s u := by
  cases hs with
  | connection | registered | ignore => exact ⟨hr, List.prefix_rfl, List.prefix_rfl⟩
  | register h => exact absurd hr (by simp [h])
  | deliver =>
    exact ⟨hr, ⟨_, (List.append_assoc ..).symm⟩, ⟨_, (List.append_nil _).symm⟩⟩
  | @save i => exact ⟨hr, List.prefix_rfl, ⟨[s.arrival i], List.append_assoc ..⟩⟩

theorem extends_run {s : State} (hr : s.registerCalled = true) (es : List Event) :
    Extends s (cache.run s es) := by
  induction es generalizing s with
  | nil => exact ⟨hr, List.prefix_rfl, List.prefix_rfl⟩
  | cons e es ih =>
    have hstep := extends_step hr (step_next s e)
    have hrest := ih hstep.registered
    exact ⟨hrest.registered, hstep.handed.trans hrest.handed, hstep.total.trans hrest.total⟩

theorem pairwise_number {s : State} (h : Ordered s) :
    s.arrived.Pairwise (fun a b => a.number < b.number) := by
  rw [← List.pairwise_map (f := Arrival.number) (R := (· < ·)), h.numbered]
  exact List.pairwise_lt_range

theorem handed_pairwise {s : State} (h : Ordered s) :
    s.handed.Pairwise (fun a b => a.number < b.number) :=
  ((pairwise_number h).sublist h.sublist).sublist (List.sublist_append_left _ _)

theorem handed_nodup {s : State} (h : Ordered s) : s.handed.Nodup :=
  (handed_pairwise h).imp fun hlt heq => absurd (congrArg Arrival.number heq) (Nat.ne_of_lt hlt)

theorem handed_before {s t u : State} {a : Arrival} {j : Indication}
    (ht : Extends s t) (ha : a ∈ s.handed ++ s.pendingUSR) (hj : t.Accepts j)
    (hc : t.Connected) (hu : Extends (next t (.onUnsolicitedResponse j)) u) :
    [a, t.arrival j] <+ u.handed := by
  have hin : a ∈ t.handed ++ t.pendingUSR := ht.total.subset ha
  have hnext : [a, t.arrival j] <+ (next t (.onUnsolicitedResponse j)).handed := by
    rw [next_deliver hj hc]
    have hone := List.singleton_sublist.mpr hin
    exact hone.append (List.Sublist.refl [t.arrival j])
  exact hnext.trans hu.handed.sublist

/-- The indications of a run, in the order in which they arrive. -/
def arrivals (es : List Event) : List Indication :=
  es.filterMap fun
    | .onUnsolicitedResponse i => some i
    | _ => none

theorem arrived_next (s : State) (e : Event) :
    (next s e).arrived.map Arrival.indication =
      s.arrived.map Arrival.indication ++ arrivals [e] := by
  cases e with
  | rilRegister =>
    simp only [next, rilRegister]
    split <;> simp [arrivals, clrUSRBuffer]
  | connection => simp [next, arrivals]
  | onUnsolicitedResponse i => simp [next, arrivals, State.arrival]

theorem arrived_run (s : State) (es : List Event) :
    (cache.run s es).arrived.map Arrival.indication =
      s.arrived.map Arrival.indication ++ arrivals es := by
  induction es generalizing s with
  | nil => simp [arrivals]
  | cons e es ih =>
    have hnext : (cache.run (next s e) es).arrived.map Arrival.indication =
        (next s e).arrived.map Arrival.indication ++ arrivals es := ih (next s e)
    have hsplit : arrivals (e :: es) = arrivals [e] ++ arrivals es :=
      List.filterMap_append (l := [e])
    rw [run_cons, show cache.next s e = next s e from rfl, hnext, arrived_next, hsplit,
      List.append_assoc]

/-- An indication that is cached and one that arrives after it with both services connected. -/
structure CachedThen (es pre mid post : List Event) (i j : Indication) : Prop where
  split : es = pre ++ .onUnsolicitedResponse i :: mid ++ .onUnsolicitedResponse j :: post
  cached : (cache.run initial pre).Caches i
  connected : (cache.run initial (pre ++ .onUnsolicitedResponse i :: mid)).Connected

/-- The number of an indication that arrives after the events of pre. -/
def arrivalAfter (pre : List Event) (i : Indication) : Arrival :=
  (cache.run initial pre).arrival i

theorem delivered_once {es pre mid post : List Event} {i j : Indication}
    (h : CachedThen es pre mid post i j) (hj : ¬ j.IsIgnored) :
    (cache.run initial es).handed.count (arrivalAfter pre i) = 1 ∧
      [arrivalAfter pre i, arrivalAfter (pre ++ .onUnsolicitedResponse i :: mid) j] <+
        (cache.run initial es).handed := by
  obtain ⟨rfl, hcached, hconnected⟩ := h
  set s := cache.run initial pre
  set t := cache.run initial (pre ++ .onUnsolicitedResponse i :: mid) with htdef
  have hs : (next s (.onUnsolicitedResponse i)).registerCalled = true := by
    rw [next_save hcached]
    exact hcached.accepts.1
  have ht : Extends (next s (.onUnsolicitedResponse i)) t := by
    have hrun := extends_run hs mid
    rw [htdef, System.run, List.foldl_append]
    exact hrun
  have hmem : arrivalAfter pre i ∈ (next s (.onUnsolicitedResponse i)).handed ++
      (next s (.onUnsolicitedResponse i)).pendingUSR := by
    rw [next_save hcached]
    simp [arrivalAfter, s]
  have hnext : (next t (.onUnsolicitedResponse j)).registerCalled = true :=
    (extends_step ht.registered (step_next t _)).registered
  have hend := extends_run hnext post
  have hbefore := handed_before ht hmem ⟨ht.registered, hj⟩ hconnected hend
  have hrun : cache.run initial (pre ++ .onUnsolicitedResponse i :: mid ++
      .onUnsolicitedResponse j :: post) = cache.run (next t (.onUnsolicitedResponse j)) post := by
    rw [System.run, List.foldl_append]
    rfl
  rw [hrun]
  have hnodup : (cache.run (next t (.onUnsolicitedResponse j)) post).handed.Nodup := by
    rw [← hrun]
    exact handed_nodup (ordered_run ordered_initial _)
  exact ⟨List.count_eq_one_of_mem hnodup (hbefore.subset (by simp)), hbefore⟩

/-- What is handed over is a sublist of the arrivals, the cache stays within its bound, and what
is cached is handed over before the next indication that is not ignored and finds both services
connected. -/
theorem handed_in_order_once (es : List Event) :
    (cache.run initial es).handed <+ (cache.run initial es).arrived ∧
    (cache.run initial es).handed.Pairwise (fun a b => a.number < b.number) ∧
    (cache.run initial es).arrived.map Arrival.indication = arrivals es ∧
    (cache.run initial es).pendingUSR.length ≤ maxPendingUSR ∧
    ∀ pre mid post i j, CachedThen es pre mid post i j → ¬ j.IsIgnored →
      (cache.run initial es).handed.count (arrivalAfter pre i) = 1 ∧
      [arrivalAfter pre i, arrivalAfter (pre ++ .onUnsolicitedResponse i :: mid) j] <+
        (cache.run initial es).handed := by
  have h := ordered_run ordered_initial es
  refine ⟨(List.sublist_append_left _ _).trans h.sublist, handed_pairwise h, ?_, h.bounded, ?_⟩
  · simpa [initial] using arrived_run initial es
  · intro pre mid post i j hcached hj
    exact delivered_once hcached hj

def signal : Indication := ⟨1009, some [7], 1, .socket1, by simp⟩
def call : Indication := ⟨1001, none, 0, .socket2, by simp⟩
def smsReady : Indication := ⟨3006, some [1], 1, .socket1, by simp⟩

/-- The run in which signal is cached, both services connect and i arrives. -/
def signalThen (i : Indication) : List Event :=
  [.rilRegister, .onUnsolicitedResponse signal, .connection .socket1 true,
    .connection .socket2 true, .onUnsolicitedResponse i]

theorem cachedThen_signalThen (i : Indication) : CachedThen (signalThen i) [.rilRegister]
    [.connection .socket1 true, .connection .socket2 true] [] signal i :=
  ⟨rfl, ⟨by decide, by decide, by decide, by decide⟩, by decide⟩

theorem handed_in_order_once_signal :
    (cache.run initial (signalThen call)).handed.count (arrivalAfter [.rilRegister] signal) = 1 ∧
      [arrivalAfter [.rilRegister] signal, arrivalAfter ([.rilRegister] ++
        .onUnsolicitedResponse signal :: [.connection .socket1 true, .connection .socket2 true])
        call] <+ (cache.run initial (signalThen call)).handed :=
  (handed_in_order_once (signalThen call)).2.2.2.2 _ _ _ _ _ (cachedThen_signalThen call)
    (by decide)

/-- An ignored indication that finds both services connected leaves the cache as it is. -/
theorem ignored_indication_does_not_flush :
    ¬ ∀ es pre mid post i j, CachedThen es pre mid post i j →
      (cache.run initial es).handed.count (arrivalAfter pre i) = 1 := by
  intro h
  exact absurd (h _ _ _ _ _ _ (cachedThen_signalThen smsReady)) (by decide)

end RilUnsolCache
