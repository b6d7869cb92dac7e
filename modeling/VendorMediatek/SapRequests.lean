import VendorMediatek.BlockTraces
import VendorMediatek.SapQueue

/-!
# Ownership of a SAP request

The request handlers of sap_service.cpp with addPayloadAndDispatchRequest and sendFailedResponse, and
dispatchRequest and onRequestComplete of RilSapSocket.cpp, as what they do with the blocks of one
request. Other requests wait in the same queue and are completed in between; of what they do, only
what touches the blocks of this one is recorded. The vendor's onRequest reads the data it is given
before it returns.
-/

namespace SapRequests

open BlockTraces LabelledRuns

inductive MsgId where
  | connect
  | disconnect
  | apdu
  | transferAtr
  | power
  | resetSim
  | transferCardReaderStatus
  | setTransferProtocol
  deriving DecidableEq, Repr

/-- What a message is looked for by. -/
structure Key where
  id : MsgId
  token : ℤ
  deriving DecidableEq, Repr

/-- The message header, its payload, the buffer that the request is encoded to, req.command, and the
entry of pendingResponseQueue. -/
inductive Block where
  | header
  | payload
  | buffer
  | command
  | currRequest
  deriving DecidableEq, Repr

/-- The event is the failed response that the client is sent. -/
abbrev SapStep := Step Block Key

/-- The entry of the request, or that of another one. -/
inductive Entry where
  | own
  | other (key : Key)
  deriving DecidableEq, Repr

/-- Whose turn it is: that of the thread that calls the handler, of the one in onRequestComplete of
the request, or of other requests that are dispatched or completed. -/
inductive Turn where
  | caller
  | vendor
  | enqueue (key : Key)
  | checkAndDequeue (key : Key)
  deriving DecidableEq, Repr

/-- How a request that is handed to the vendor is completed: whether the payload of the response is
allocated, the requests that wait when it comes in, the latest first, and the turns from then on. -/
structure Completion where
  payload : Bool
  waiting : List Key
  turns : List Turn

/-- What the allocations, pb_get_encoded_size and pb_encode come to, whether getSocketById finds the
socket, and the vendor functions, absent or with the completion they make. -/
structure Outcome where
  header : Bool
  command : Bool
  encodedSize : Bool
  buffer : Bool
  encode : Bool
  payload : Bool
  socket : Bool
  currRequest : Bool
  uimFuncs : Option Completion

def sendFailedResponse (own : Key) (blocks : List Block) : List SapStep :=
  blocks.map (.act .free) ++ [.event own]

/-! ## The dispatched request -/

/-- What the search for key does to the request, and the queue it leaves. It reads the token of every
entry it comes by, the id in the header of those with the token, and frees the first that has
both. -/
def checkAndDequeue (own key : Key) : List Entry → List SapStep × List Entry
  | [] => ([], [])
  | .own :: queue =>
    if key = own then
      ([.act .use .currRequest, .act .use .header, .act .free .currRequest], queue)
    else
      let (steps, queue) := checkAndDequeue own key queue
      let header := if key.token = own.token then [.act .use .header] else []
      (.act .use .currRequest :: (header ++ steps), .own :: queue)
  | .other k :: queue =>
    if k = key then ([], queue)
    else
      let (steps, queue) := checkAndDequeue own key queue
      (steps, .other k :: queue)

inductive VendorStep where
  | readEntry
  | readHeader
  | checkAndDequeue
  | freeHeader
  deriving DecidableEq, Repr

/-- The header is logged if there is a response. -/
def onRequestComplete (payload : Bool) : List VendorStep :=
  [.readEntry, .readEntry, .readHeader, .readEntry, .readHeader] ++
    (if payload then [.readHeader] else []) ++ [.readHeader, .checkAndDequeue, .freeHeader]

/-- It reads request->socketId. -/
def sOnRequestComplete (payload : Bool) : List VendorStep := .readEntry :: onRequestComplete payload

/-- The arguments are read from the header. -/
def onRequest : List SapStep := [.act .use .header, .act .use .payload]

/-- msg->payload is read for the first of the two. -/
def freePayloadAndBuffer : List SapStep :=
  [.act .use .header, .act .free .payload, .act .free .buffer]

/-- What the two threads have still to do, whether onRequest was called, and the queue. -/
structure Phase where
  caller : List SapStep
  called : Bool
  vendor : List VendorStep
  queue : List Entry

def vendorStep (own : Key) (queue : List Entry) : VendorStep → List SapStep × List Entry
  | .readEntry => ([.act .use .currRequest], queue)
  | .readHeader => ([.act .use .header], queue)
  | .checkAndDequeue => checkAndDequeue own own queue
  | .freeHeader => ([.act .free .header], queue)

/-- A thread that is at its end is passed over, and the vendor's before onRequest is called. -/
def turn (own : Key) (s : Phase) : Turn → List SapStep × Phase
  | .caller =>
    match s.caller with
    | [] => ([], s)
    | step :: caller => ([step], { s with caller := caller, called := true })
  | .vendor =>
    match s.called, s.vendor with
    | true, step :: vendor =>
      let (steps, queue) := vendorStep own s.queue step
      (steps, { s with vendor := vendor, queue := queue })
    | _, _ => ([], s)
  | .enqueue key => ([], { s with queue := .other key :: s.queue })
  | .checkAndDequeue key =>
    let (steps, queue) := checkAndDequeue own key s.queue
    (steps, { s with queue := queue })

def trace (own : Key) : Phase → List Turn → List SapStep
  | _, [] => []
  | s, t :: turns => (turn own s t).1 ++ trace own (turn own s t).2 turns

/-- The request is enqueued and the call of onRequest is the next. -/
def Completion.start (c : Completion) : Phase where
  caller := onRequest ++ freePayloadAndBuffer
  called := false
  vendor := sOnRequestComplete c.payload
  queue := .own :: c.waiting.map .other

/-- After the turns that are given both threads go on to their ends. -/
def Completion.schedule (c : Completion) : List Turn :=
  c.turns ++ List.replicate c.start.caller.length .caller ++
    List.replicate c.start.vendor.length .vendor

/-! ## The handlers -/

/-- Up to the call of onRequest. -/
def dispatchRequest (o : Outcome) : List SapStep :=
  if o.currRequest then [.act .alloc .currRequest, .act .use .header, .act .use .currRequest]
  else [.act .free .header]

/-- onRequest, and what addPayloadAndDispatchRequest does when dispatchRequest is back. -/
def afterDispatch (own : Key) (o : Outcome) : List SapStep :=
  match o.currRequest, o.uimFuncs with
  | true, some c => trace own c.start c.schedule
  | _, _ => freePayloadAndBuffer

def addPayloadAndDispatchRequest (own : Key) (o : Outcome) : List SapStep :=
  if o.payload then
    .act .alloc .payload :: .act .use .header :: .act .use .payload :: .act .use .buffer ::
      if o.socket then dispatchRequest o ++ afterDispatch own o
      else .act .use .header :: sendFailedResponse own [.payload, .buffer, .header]
  else .act .use .header :: sendFailedResponse own [.buffer, .header]

/-- From pb_get_encoded_size on. -/
def encodeRequest (own : Key) (command : List Block) (o : Outcome) : List SapStep :=
  if o.encodedSize then
    if o.buffer then
      .act .alloc .buffer :: (command.map (.act .use) ++ .act .use .buffer ::
        if o.encode then addPayloadAndDispatchRequest own o
        else sendFailedResponse own (command ++ [.buffer, .header]))
    else sendFailedResponse own (command ++ [.header])
  else sendFailedResponse own (command ++ [.header])

def allocCommand (b : Block) : List SapStep := [.act .alloc b, .act .use b, .act .use b]

/-- What the handlers have in common; command is the byte array of the request, if it has one. -/
def request (own : Key) (command : List Block) (o : Outcome) : List SapStep :=
  if o.header then
    .act .alloc .header :: .act .use .header ::
      if command = [] ∨ o.command then command.flatMap allocCommand ++ encodeRequest own command o
      else sendFailedResponse own [.header]
  else sendFailedResponse own []

def connectReq (token : ℤ) (o : Outcome) : List SapStep := request ⟨.connect, token⟩ [] o
def disconnectReq (token : ℤ) (o : Outcome) : List SapStep := request ⟨.disconnect, token⟩ [] o
def apduReq (token : ℤ) (size : ℕ) (o : Outcome) : List SapStep :=
  request ⟨.apdu, token⟩ (if 0 < size then [.command] else []) o
def transferAtrReq (token : ℤ) (o : Outcome) : List SapStep := request ⟨.transferAtr, token⟩ [] o
def powerReq (token : ℤ) (o : Outcome) : List SapStep := request ⟨.power, token⟩ [] o
def resetSimReq (token : ℤ) (o : Outcome) : List SapStep := request ⟨.resetSim, token⟩ [] o
def transferCardReaderStatusReq (token : ℤ) (o : Outcome) : List SapStep :=
  request ⟨.transferCardReaderStatus, token⟩ [] o
def setTransferProtocolReq (token : ℤ) (o : Outcome) : List SapStep :=
  request ⟨.setTransferProtocol, token⟩ [] o

/-- The handlers; an APDU has its length. -/
inductive Handler where
  | connectReq
  | disconnectReq
  | apduReq (size : ℕ)
  | transferAtrReq
  | powerReq
  | resetSimReq
  | transferCardReaderStatusReq
  | setTransferProtocolReq

def Handler.run (token : ℤ) (o : Outcome) : Handler → List SapStep
  | .connectReq => SapRequests.connectReq token o
  | .disconnectReq => SapRequests.disconnectReq token o
  | .apduReq size => SapRequests.apduReq token size o
  | .transferAtrReq => SapRequests.transferAtrReq token o
  | .powerReq => SapRequests.powerReq token o
  | .resetSimReq => SapRequests.resetSimReq token o
  | .transferCardReaderStatusReq => SapRequests.transferCardReaderStatusReq token o
  | .setTransferProtocolReq => SapRequests.setTransferProtocolReq token o

def Handler.id : Handler → MsgId
  | .connectReq => .connect
  | .disconnectReq => .disconnect
  | .apduReq _ => .apdu
  | .transferAtrReq => .transferAtr
  | .powerReq => .power
  | .resetSimReq => .resetSim
  | .transferCardReaderStatusReq => .transferCardReaderStatus
  | .setTransferProtocolReq => .setTransferProtocol

def owned : List Block := [.header, .payload, .buffer, .command]

/-- The blocks of the request are freed once each and not used afterwards. Its entry, by which
onRequestComplete finds the header, is not used afterwards either. -/
structure Settles (t : List SapStep) : Prop where
  owned : ∀ b ∈ owned, Settled t b
  entry : UnusedOnceFreed false (acts .currRequest t)

/-- The byte array is there for an APDU that is not empty. -/
def Handler.HasCommand : Handler → Prop
  | .apduReq size => 0 < size
  | _ => False

/-- The request is encoded. -/
def Encoded (h : Handler) (o : Outcome) : Prop :=
  o.header ∧ (h.HasCommand → o.command) ∧ o.encodedSize ∧ o.buffer ∧ o.encode

/-- The search for key comes by the request's own entry. -/
def Reaches (key : Key) (queue : List Entry) : Prop :=
  .own ∈ queue.takeWhile (· ≠ .other key)

instance (key : Key) (queue : List Entry) : Decidable (Reaches key queue) :=
  inferInstanceAs (Decidable (_ ∈ _))

/-- What a turn may not meet: msg->payload is read when the completion is at its end, the completion
reads an entry that another one has freed, or after its end another one comes by the entry with the
token. -/
def Guard (own : Key) (s : Phase) : Turn → Prop
  | .caller => s.caller.head? = some (.act .use .header) → s.vendor ≠ []
  | .vendor => s.called → s.vendor.head? = some .readEntry → .own ∈ s.queue
  | .enqueue _ => True
  | .checkAndDequeue key => s.vendor = [] → key.token = own.token → ¬ Reaches key s.queue

def system (own : Key) : System Phase Turn := ⟨fun _ _ => True, fun s t => (turn own s t).2⟩

/-- A request that is encoded has no byte array, and if it gets to dispatchRequest its entry is
allocated, the vendor functions are there, and every turn of its completion meets the guard. -/
def SettlesWhen (h : Handler) (token : ℤ) (o : Outcome) : Prop :=
  Encoded h o → ¬ h.HasCommand ∧ (o.payload → o.socket → o.currRequest ∧
    ∃ c ∈ o.uimFuncs, (system ⟨h.id, token⟩).Along (Guard ⟨h.id, token⟩) c.start c.schedule)

theorem run_eq (h : Handler) (token : ℤ) (o : Outcome) :
    ¬ h.HasCommand ∧ h.run token o = request ⟨h.id, token⟩ [] o ∨
      h.HasCommand ∧ h.run token o = request ⟨h.id, token⟩ [.command] o := by
  cases h with
  | apduReq size =>
    by_cases hsize : 0 < size
    · exact .inr ⟨hsize, by simp [Handler.run, apduReq, hsize, Handler.id]⟩
    · exact .inl ⟨hsize, by simp [Handler.run, apduReq, hsize, Handler.id]⟩
  | connectReq | disconnectReq | transferAtrReq | powerReq | resetSimReq
    | transferCardReaderStatusReq | setTransferProtocolReq => exact .inl ⟨id, rfl⟩

/-! ## The search in the queue -/

theorem Reaches.mem {key : Key} {queue : List Entry} (h : Reaches key queue) : .own ∈ queue :=
  (List.takeWhile_sublist _).subset h

theorem reaches_own (key : Key) (queue : List Entry) : Reaches key (.own :: queue) := by
  simp [Reaches]

theorem reaches_other {key k : Key} (hk : k ≠ key) {queue : List Entry} :
    Reaches key (.other k :: queue) ↔ Reaches key queue := by
  simp [Reaches, hk]

theorem not_reaches_key (key : Key) (queue : List Entry) :
    ¬ Reaches key (.other key :: queue) := by
  simp [Reaches]

theorem checkAndDequeue_sublist (own key : Key) (queue : List Entry) :
    (checkAndDequeue own key queue).2.Sublist queue := by
  induction queue with
  | nil => exact List.Sublist.refl _
  | cons e queue ih =>
    cases e with
    | own =>
      rw [checkAndDequeue]
      split
      · exact List.sublist_cons_self _ _
      · exact ih.cons_cons _
    | other k =>
      rw [checkAndDequeue]
      split
      · exact List.sublist_cons_self _ _
      · exact ih.cons_cons _

theorem checkAndDequeue_absent (own key : Key) {queue : List Entry} (h : .own ∉ queue) :
    (checkAndDequeue own key queue).1 = [] := by
  induction queue with
  | nil => rfl
  | cons e queue ih =>
    obtain ⟨hne, hrest⟩ := not_or.mp (mt List.mem_cons.mpr h)
    cases e with
    | own => exact absurd rfl hne
    | other k =>
      rw [checkAndDequeue]
      split
      · rfl
      · exact ih hrest

/-- What a search does to the request's own entry. -/
inductive Searched (own key : Key) (queue : List Entry) : List SapStep × List Entry → Prop where
  | missed {rest : List Entry} (missed : ¬ Reaches key queue) (keeps : .own ∈ rest ↔ .own ∈ queue) :
    Searched own key queue ([], rest)
  | passed {rest : List Entry} (reaches : Reaches key queue) (other : key ≠ own)
    (keeps : .own ∈ rest) : Searched own key queue
      (.act .use .currRequest :: if key.token = own.token then [.act .use .header] else [], rest)
  | freed {rest : List Entry} (reaches : Reaches key queue) (same : key = own)
    (gone : .own ∉ rest) : Searched own key queue
      ([.act .use .currRequest, .act .use .header, .act .free .currRequest], rest)

theorem checkAndDequeue_searched (own key : Key) {queue : List Entry}
    (once : queue.count .own ≤ 1) :
    Searched own key queue (checkAndDequeue own key queue) := by
  induction queue with
  | nil => exact .missed (by simp [Reaches]) Iff.rfl
  | cons e queue ih =>
    cases e with
    | own =>
      have habsent : .own ∉ queue := by
        rw [← List.count_eq_zero]
        rw [List.count_cons_self] at once
        omega
      rw [checkAndDequeue]
      split
      · rename_i hsame
        exact .freed (reaches_own key queue) hsame habsent
      · rename_i hother
        dsimp only
        rw [checkAndDequeue_absent own key habsent, List.append_nil]
        exact .passed (reaches_own key queue) hother List.mem_cons_self
    | other k =>
      have hmem : ∀ rest : List Entry, .own ∈ .other k :: rest ↔ .own ∈ rest := by simp
      rw [checkAndDequeue]
      split
      · rename_i hfound
        subst hfound
        exact .missed (not_reaches_key k queue) (hmem queue).symm
      · rename_i hk
        have hrest := ih (by simpa using once)
        dsimp only
        generalize checkAndDequeue own key queue = r at hrest ⊢
        cases hrest with
        | missed missed keeps =>
          exact .missed (mt (reaches_other hk).mp missed) (by rw [hmem, hmem, keeps])
        | passed reaches other keeps =>
          exact .passed ((reaches_other hk).mpr reaches) other ((hmem _).mpr keeps)
        | freed reaches same gone =>
          exact .freed ((reaches_other hk).mpr reaches) same (mt (hmem _).mp gone)

theorem search_acts (own key : Key) {queue : List Entry} (once : queue.count .own ≤ 1) :
    acts .header (checkAndDequeue own key queue).1 =
        (if Reaches key queue ∧ key.token = own.token then [.use] else []) ∧
      UnusedOnceFreed (decide (.own ∉ queue))
        (acts .currRequest (checkAndDequeue own key queue).1) ∧
      decide (.own ∉ (checkAndDequeue own key queue).2) = (decide (.own ∉ queue) ||
        decide (.free ∈ acts .currRequest (checkAndDequeue own key queue).1)) := by
  have hsearched := checkAndDequeue_searched own key once
  generalize checkAndDequeue own key queue = r at hsearched
  cases hsearched with
  | missed missed keeps => simp [missed, keeps, acts, UnusedOnceFreed]
  | passed reaches other keeps =>
    by_cases htoken : key.token = own.token
    · simp [htoken, reaches, reaches.mem, keeps, acts, Step.on, UnusedOnceFreed]
    · simp [htoken, reaches.mem, keeps, acts, Step.on, UnusedOnceFreed]
  | freed reaches same gone =>
    simp [same ▸ reaches, same, reaches.mem, gone, acts, Step.on, UnusedOnceFreed]

section RilQueue

variable (keyOf : ℕ → Key) (t : ℕ)

/-- What a request of the queue is to the request t. -/
def entryOf (request : ℕ) : Entry := if request = t then .own else .other (keyOf request)

theorem checkAndDequeue_entries (key : Key) {p : ℕ → Bool} {pending : List ℕ}
    (hp : ∀ request ∈ pending, p request = true ↔ keyOf request = key) :
    (checkAndDequeue (keyOf t) key (pending.map (entryOf keyOf t))).2 =
        (pending.eraseP p).map (entryOf keyOf t) ∧
      (.act .free .currRequest ∈
          (checkAndDequeue (keyOf t) key (pending.map (entryOf keyOf t))).1 ↔
        pending.find? p = some t) := by
  induction pending with
  | nil => simp [checkAndDequeue]
  | cons request pending ih =>
    obtain ⟨hfirst, hrest⟩ := List.forall_mem_cons.mp hp
    obtain ⟨hqueue, hfrees⟩ := ih hrest
    rw [List.map_cons, entryOf]
    by_cases hown : request = t
    · subst hown
      rw [if_pos rfl, checkAndDequeue]
      by_cases hkey : keyOf request = key
      · simp [hkey, hfirst.mpr hkey]
      · rw [if_neg (Ne.symm hkey)]
        dsimp only
        rw [hqueue, List.eraseP_cons_of_neg (mt hfirst.mp hkey),
          List.find?_cons_of_neg (mt hfirst.mp hkey), ← hfrees, List.map_cons, entryOf, if_pos rfl]
        refine ⟨rfl, ?_⟩
        split <;> simp
    · rw [if_neg hown, checkAndDequeue]
      by_cases hkey : keyOf request = key
      · simp [hkey, hfirst.mpr hkey, hown]
      · rw [if_neg hkey]
        dsimp only
        rw [hqueue, List.eraseP_cons_of_neg (mt hfirst.mp hkey),
          List.find?_cons_of_neg (mt hfirst.mp hkey), List.map_cons, entryOf, if_neg hown]
        exact ⟨rfl, hfrees⟩

/-- The search is that of the queue in memory, seen from the request t: it leaves the same requests
and frees the entry of t when the queue's search does. -/
theorem checkAndDequeue_refines {q : SapQueue.RilQueue} {pending : List ℕ} (h : q.Holds pending)
    {fuel : ℕ} (hfuel : pending.length ≤ fuel) {number : MsgId → ℤ}
    (hnumber : Function.Injective number) (hkeys : ∀ request ∈ pending,
      (q.requests request).token = (keyOf request).token ∧
        (q.requests request).curr.id = number (keyOf request).id) (key : Key) :
    (∃ rest, (q.checkAndDequeue fuel (number key.id) key.token).1.Holds rest ∧
      (checkAndDequeue (keyOf t) key (pending.map (entryOf keyOf t))).2 =
        rest.map (entryOf keyOf t)) ∧
      (.act .free .currRequest ∈
          (checkAndDequeue (keyOf t) key (pending.map (entryOf keyOf t))).1 ↔
        (q.checkAndDequeue fuel (number key.id) key.token).2 = some t) := by
  have hmatches : ∀ request ∈ pending,
      q.Matches (number key.id) key.token request = true ↔ keyOf request = key := by
    intro request hmem
    obtain ⟨htoken, hid⟩ := hkeys request hmem
    rw [SapQueue.RilQueue.Matches, htoken, hid, decide_eq_true_iff, hnumber.eq_iff]
    constructor
    · rintro ⟨htoken, hid⟩
      exact (congrArg₂ Key.mk hid htoken).symm
    · rintro rfl
      exact ⟨rfl, rfl⟩
  obtain ⟨hfinds, hholds⟩ := h.checkAndDequeue hfuel (number key.id) key.token
  obtain ⟨hqueue, hfrees⟩ := checkAndDequeue_entries keyOf t key hmatches
  exact ⟨⟨_, hholds, hqueue⟩, hfrees.trans (hfinds ▸ Iff.rfl)⟩

end RilQueue

/-! ## One turn -/

/-- The free of the header is the last step and no other. -/
def FreesLast : List VendorStep → Prop
  | [] => True
  | step :: vendor => (step = .freeHeader ↔ vendor = []) ∧ FreesLast vendor

structure Phase.Sound (s : Phase) : Prop where
  caller : ∀ step ∈ s.caller, step ∈ onRequest ++ freePayloadAndBuffer
  called : s.called = false → s.caller ≠ []
  vendor : FreesLast s.vendor
  once : s.queue.count .own ≤ 1

theorem Completion.sound_start (c : Completion) : c.start.Sound where
  caller _ h := h
  called _ := List.cons_ne_nil _ _
  vendor := by
    rw [start]
    cases c.payload <;> simp [sOnRequestComplete, onRequestComplete, FreesLast]
  once := by
    rw [start, List.count_cons_self, List.count_eq_zero.mpr (by simp)]

/-- What a turn leaves of the blocks that it may have freed. -/
def Phase.headerFreed (s : Phase) : Bool := s.vendor = []

def Phase.entryFreed (s : Phase) : Bool := .own ∉ s.queue

/-- A turn uses no freed block. -/
def Unused (s : Phase) (steps : List SapStep) : Prop :=
  UnusedOnceFreed s.headerFreed (acts .header steps) ∧
    UnusedOnceFreed s.entryFreed (acts .currRequest steps)

/-- The blocks that are freed after a turn are those before it and those it frees. -/
structure Frees (s : Phase) (r : List SapStep × Phase) : Prop where
  sound : r.2.Sound
  header : r.2.headerFreed = (s.headerFreed || decide (.free ∈ acts .header r.1))
  entry : r.2.entryFreed = (s.entryFreed || decide (.free ∈ acts .currRequest r.1))

theorem Phase.Sound.frees_of_same {s s' : Phase} {steps : List SapStep} (h : s'.Sound)
    (hvendor : s'.vendor = s.vendor) (hqueue : .own ∈ s'.queue ↔ .own ∈ s.queue)
    (hheader : .free ∉ acts .header steps) (hentry : .free ∉ acts .currRequest steps) :
    Frees s (steps, s') where
  sound := h
  header := by simp [headerFreed, hvendor, hheader]
  entry := by simp [entryFreed, hqueue, hentry]

theorem caller_acts {step : SapStep} (h : step ∈ onRequest ++ freePayloadAndBuffer) :
    acts .header [step] = (if step = .act .use .header then [.use] else []) ∧
      acts .currRequest [step] = [] := by
  have hall : ∀ step ∈ onRequest ++ freePayloadAndBuffer,
      acts .header [step] = (if step = .act .use .header then [.use] else []) ∧
        acts .currRequest [step] = [] := by decide
  exact hall step h

section Turns

variable {own : Key} {s : Phase}

theorem turn_caller (h : s.Sound) : Frees s (turn own s .caller) ∧
    (Unused s (turn own s .caller).1 ↔ Guard own s .caller) := by
  rw [turn]
  cases hcaller : s.caller with
  | nil =>
    refine ⟨h.frees_of_same rfl Iff.rfl List.not_mem_nil List.not_mem_nil, ?_⟩
    simp [Unused, acts, UnusedOnceFreed, Guard, hcaller]
  | cons step caller =>
    obtain ⟨hheader, hentry⟩ := caller_acts (h.caller step (hcaller ▸ List.mem_cons_self))
    refine ⟨Phase.Sound.frees_of_same ?_ rfl Iff.rfl ?_ ?_, ?_⟩
    · exact ⟨fun x hx => h.caller x (hcaller ▸ List.mem_cons_of_mem _ hx), by simp, h.vendor, h.once⟩
    · rw [hheader]
      split <;> decide
    · rw [hentry]
      exact List.not_mem_nil
    · rw [Unused, hheader, hentry, Guard, hcaller]
      by_cases hread : step = .act .use .header
      · simp [hread, UnusedOnceFreed, Phase.headerFreed]
      · simp [hread, UnusedOnceFreed]

theorem turn_checkAndDequeue (h : s.Sound) (key : Key) :
    Frees s (turn own s (.checkAndDequeue key)) ∧
      (Unused s (turn own s (.checkAndDequeue key)).1 ↔ Guard own s (.checkAndDequeue key)) := by
  obtain ⟨hheader, hentry, hfreed⟩ := search_acts own key h.once
  have hsub := checkAndDequeue_sublist own key s.queue
  change UnusedOnceFreed s.entryFreed _ at hentry
  rw [turn]
  dsimp only
  refine ⟨⟨⟨h.caller, h.called, h.vendor, (hsub.count_le _).trans h.once⟩, ?_, hfreed⟩, ?_⟩
  · rw [hheader]
    split <;> exact (Bool.or_false _).symm
  · rw [Unused, hheader, and_iff_left hentry, Guard]
    by_cases hread : Reaches key s.queue ∧ key.token = own.token
    · rw [if_pos hread]
      simp [UnusedOnceFreed, Phase.headerFreed, hread]
    · rw [if_neg hread]
      exact iff_of_true trivial fun _ htoken hreaches => hread ⟨hreaches, htoken⟩

theorem turn_vendor (h : s.Sound) : Frees s (turn own s .vendor) ∧
    (Unused s (turn own s .vendor).1 ↔ Guard own s .vendor) := by
  rw [turn]
  cases hcalled : s.called with
  | false =>
    refine ⟨h.frees_of_same rfl Iff.rfl List.not_mem_nil List.not_mem_nil, ?_⟩
    simp [Unused, acts, UnusedOnceFreed, Guard, hcalled]
  | true =>
    cases hvendor : s.vendor with
    | nil =>
      refine ⟨h.frees_of_same rfl Iff.rfl List.not_mem_nil List.not_mem_nil, ?_⟩
      simp [Unused, acts, UnusedOnceFreed, Guard, hvendor]
    | cons step vendor =>
      obtain ⟨hlast, hfrees⟩ := hvendor ▸ h.vendor
      have hcaller : true = false → s.caller ≠ [] := fun h => absurd h (by decide)
      have hrest : step ≠ .freeHeader → vendor ≠ [] := mt hlast.mpr
      cases step with
      | readEntry =>
        refine ⟨⟨⟨h.caller, hcaller, hfrees, h.once⟩, ?_, ?_⟩, ?_⟩
        · simp [vendorStep, acts, Step.on, Phase.headerFreed, hvendor, hrest]
        · exact (Bool.or_false _).symm
        · simp [Unused, vendorStep, acts, Step.on, UnusedOnceFreed, Guard, hcalled, hvendor,
            Phase.entryFreed]
      | readHeader =>
        refine ⟨⟨⟨h.caller, hcaller, hfrees, h.once⟩, ?_, ?_⟩, ?_⟩
        · simp [vendorStep, acts, Step.on, Phase.headerFreed, hvendor, hrest]
        · exact (Bool.or_false _).symm
        · simp [Unused, vendorStep, acts, Step.on, UnusedOnceFreed, Guard, hvendor,
            Phase.headerFreed]
      | checkAndDequeue =>
        obtain ⟨hheader, hentry, hfreed⟩ := search_acts own own h.once
        have hsub := checkAndDequeue_sublist own own s.queue
        have halive : s.headerFreed = false := by
          simp [Phase.headerFreed, hvendor]
        refine ⟨⟨⟨h.caller, hcaller, hfrees, (hsub.count_le _).trans h.once⟩, ?_, hfreed⟩, ?_⟩
        · simp only [vendorStep, hheader, halive]
          split <;> exact decide_eq_false (hrest (by decide))
        · simp only [Unused, vendorStep, hheader, halive, Guard, hvendor]
          refine iff_of_true ⟨?_, hentry⟩ (by simp)
          split
          · exact ⟨rfl, trivial⟩
          · trivial
      | freeHeader =>
        obtain rfl := hlast.mp rfl
        refine ⟨⟨⟨h.caller, hcaller, hfrees, h.once⟩, ?_, ?_⟩, ?_⟩
        · simp [vendorStep, acts, Step.on, Phase.headerFreed]
        · exact (Bool.or_false _).symm
        · simp [Unused, vendorStep, acts, Step.on, UnusedOnceFreed, Guard, hvendor]

theorem turn_iff (h : s.Sound) (t : Turn) :
    Frees s (turn own s t) ∧ (Unused s (turn own s t).1 ↔ Guard own s t) := by
  cases t with
  | caller => exact turn_caller h
  | vendor => exact turn_vendor h
  | enqueue key =>
    have hsound : (turn own s (.enqueue key)).2.Sound :=
      ⟨h.caller, h.called, h.vendor, by simpa [turn] using h.once⟩
    refine ⟨hsound.frees_of_same rfl (by simp [turn]) List.not_mem_nil List.not_mem_nil, ?_⟩
    exact iff_of_true ⟨trivial, trivial⟩ trivial
  | checkAndDequeue key => exact turn_checkAndDequeue h key

/-- Over the turns no freed block is used just when all of them meet the guard. -/
theorem run_unused_iff (h : s.Sound) (turns : List Turn) :
    Unused s (trace own s turns) ↔ (system own).Along (Guard own) s turns := by
  induction turns generalizing s with
  | nil => exact iff_of_true ⟨trivial, trivial⟩ trivial
  | cons t turns ih =>
    obtain ⟨hfrees, hunused⟩ := @turn_iff own s h t
    have hrest : _ ↔ (system own).Along (Guard own) ((system own).next s t) turns :=
      ih hfrees.sound
    rw [along_cons, ← hunused, ← hrest]
    simp only [Unused, trace, acts_append, unusedOnceFreed_append, system, hfrees.header,
      hfrees.entry]
    exact and_and_and_comm

theorem run_sound (h : s.Sound) (turns : List Turn) : ((system own).run s turns).Sound := by
  induction turns generalizing s with
  | nil => exact h
  | cons t turns ih => exact ih (@turn_iff own s h t).1.sound

/-! ## What the turns do to the other blocks -/

theorem checkAndDequeue_other (own key : Key) {b : Block} (hheader : b ≠ .header)
    (hentry : b ≠ .currRequest) (queue : List Entry) :
    acts b (checkAndDequeue own key queue).1 = [] := by
  induction queue with
  | nil => rfl
  | cons e queue ih =>
    cases e with
    | own =>
      rw [checkAndDequeue]
      split
      · simp [acts, Step.on, hheader.symm, hentry.symm]
      · dsimp only
        rw [acts_of_ne hentry.symm, acts_append, ih, List.append_nil]
        split
        · exact acts_of_ne hheader.symm _ _
        · rfl
    | other k =>
      rw [checkAndDequeue]
      split
      · rfl
      · exact ih

theorem turn_other {b : Block} (hheader : b ≠ .header) (hentry : b ≠ .currRequest) (t : Turn) :
    acts b (turn own s t).1 ++ acts b (turn own s t).2.caller = acts b s.caller := by
  cases t with
  | caller =>
    rw [turn]
    cases hcaller : s.caller with
    | nil => simp [hcaller, acts]
    | cons step caller => exact (acts_append b [step] caller).symm
  | vendor =>
    rw [turn]
    split
    · rename_i step vendor _ _
      cases step with
      | readEntry => exact congrArg (· ++ _) (acts_of_ne hentry.symm .use [])
      | readHeader => exact congrArg (· ++ _) (acts_of_ne hheader.symm .use [])
      | checkAndDequeue =>
        exact congrArg (· ++ _) (checkAndDequeue_other own own hheader hentry s.queue)
      | freeHeader => exact congrArg (· ++ _) (acts_of_ne hheader.symm .free [])
    · rfl
  | enqueue key => rfl
  | checkAndDequeue key =>
    exact congrArg (· ++ _) (checkAndDequeue_other own key hheader hentry s.queue)

theorem run_other {b : Block} (hheader : b ≠ .header) (hentry : b ≠ .currRequest)
    (s : Phase) (turns : List Turn) :
    acts b (trace own s turns) ++ acts b ((system own).run s turns).caller = acts b s.caller := by
  induction turns generalizing s with
  | nil => rfl
  | cons t turns ih =>
    rw [trace, acts_append, List.append_assoc]
    exact (congrArg _ (ih _)).trans (turn_other hheader hentry t)

/-- The header is freed by the steps that free it and by nothing else. -/
theorem turn_frees (h : s.Sound) (t : Turn) :
    (acts .header (turn own s t).1).count .free + (turn own s t).2.vendor.count .freeHeader =
      s.vendor.count .freeHeader := by
  have hsearch : ∀ key, (acts .header (checkAndDequeue own key s.queue).1).count .free = 0 := by
    intro key
    rw [(search_acts own key h.once).1]
    split <;> rfl
  cases t with
  | caller =>
    rw [turn]
    cases hcaller : s.caller with
    | nil => exact Nat.zero_add _
    | cons step caller =>
      dsimp only
      rw [(caller_acts (h.caller step (hcaller ▸ List.mem_cons_self))).1]
      split <;> exact Nat.zero_add _
  | vendor =>
    rw [turn]
    split
    · rename_i step vendor _ hvendor
      rw [hvendor]
      cases step with
      | readEntry => simp [vendorStep, acts, Step.on]
      | readHeader => simp [vendorStep, acts, Step.on]
      | checkAndDequeue => simp [vendorStep, hsearch]
      | freeHeader => simp [vendorStep, acts, Step.on, Nat.add_comm]
    · exact Nat.zero_add _
  | enqueue key => exact Nat.zero_add _
  | checkAndDequeue key => exact (congrArg (· + _) (hsearch key)).trans (Nat.zero_add _)

theorem run_frees (h : s.Sound) (turns : List Turn) :
    (acts .header (trace own s turns)).count .free +
        ((system own).run s turns).vendor.count .freeHeader =
      s.vendor.count .freeHeader := by
  induction turns generalizing s with
  | nil => exact Nat.zero_add _
  | cons t turns ih =>
    have hrest := ih (@turn_iff own s h t).1.sound
    rw [trace, acts_append, List.count_append, Nat.add_assoc]
    exact (congrArg _ hrest).trans (turn_frees h t)

/-! ## The end of the turns -/

theorem turn_suffix (t : Turn) :
    (turn own s t).2.caller <:+ s.caller ∧ (turn own s t).2.vendor <:+ s.vendor := by
  cases t with
  | caller =>
    rw [turn]
    cases hcaller : s.caller with
    | nil => simp [hcaller]
    | cons step caller => exact ⟨List.suffix_cons step caller, List.suffix_refl _⟩
  | vendor =>
    rw [turn]
    split
    · rename_i step vendor _ hvendor
      exact ⟨List.suffix_refl _, hvendor ▸ List.suffix_cons step vendor⟩
    · exact ⟨List.suffix_refl _, List.suffix_refl _⟩
  | enqueue key => exact ⟨List.suffix_refl _, List.suffix_refl _⟩
  | checkAndDequeue key => exact ⟨List.suffix_refl _, List.suffix_refl _⟩

theorem run_suffix (s : Phase) (turns : List Turn) :
    ((system own).run s turns).caller <:+ s.caller ∧
      ((system own).run s turns).vendor <:+ s.vendor := by
  induction turns generalizing s with
  | nil => exact ⟨List.suffix_refl _, List.suffix_refl _⟩
  | cons t turns ih =>
    obtain ⟨hcaller, hvendor⟩ := ih (turn own s t).2
    obtain ⟨hcaller', hvendor'⟩ := @turn_suffix own s t
    exact ⟨hcaller.trans hcaller', hvendor.trans hvendor'⟩

theorem run_caller (s : Phase) (n : ℕ) :
    ((system own).run s (List.replicate n .caller)).caller = s.caller.drop n := by
  induction n generalizing s with
  | zero => rfl
  | succ n ih =>
    rw [List.replicate_succ, run_cons, ih]
    change (turn own s .caller).2.caller.drop n = _
    rw [turn]
    cases hcaller : s.caller with
    | nil => simp [hcaller]
    | cons step caller => rfl

theorem run_vendor {s : Phase} (called : s.called = true) (n : ℕ) :
    ((system own).run s (List.replicate n .vendor)).vendor = s.vendor.drop n := by
  induction n generalizing s with
  | zero => rfl
  | succ n ih =>
    rw [List.replicate_succ, run_cons]
    change ((system own).run (turn own s .vendor).2 _).vendor = _
    rw [turn, called]
    cases hvendor : s.vendor with
    | nil => simp [ih called, hvendor]
    | cons step vendor => exact ih rfl

theorem run_schedule (own : Key) (c : Completion) :
    ((system own).run c.start c.schedule).caller = [] ∧
      ((system own).run c.start c.schedule).vendor = [] := by
  have hrun : ∀ s turns turns', (system own).run s (turns ++ turns') =
      (system own).run ((system own).run s turns) turns' := fun _ _ _ => List.foldl_append ..
  rw [Completion.schedule, hrun, hrun]
  generalize hmiddle : (system own).run c.start c.turns = middle
  generalize hlater : (system own).run middle (List.replicate _ .caller) = later
  have hshorter := (@run_suffix own c.start c.turns).1.length_le
  have hcaller : later.caller = [] := by
    rw [← hlater, run_caller, List.drop_eq_nil_iff, ← hmiddle]
    exact hshorter
  have hsuffix : later.vendor <:+ c.start.vendor := by
    rw [← hlater, ← hmiddle]
    exact (run_suffix _ _).2.trans (run_suffix _ _).2
  have hsound : later.Sound := by
    rw [← hlater, ← hmiddle]
    exact run_sound (run_sound c.sound_start _) _
  have hcalled : later.called = true := by
    by_contra hnot
    exact hsound.called (by simpa using hnot) hcaller
  constructor
  · exact List.suffix_nil.mp (hcaller ▸ (run_suffix later _).1)
  · rw [run_vendor hcalled, List.drop_eq_nil_iff]
    exact hsuffix.length_le

end Turns

/-! ## The dispatched request -/

/-- What the turns up to the ends of both threads do with the blocks. -/
theorem completion_acts (own : Key) (c : Completion) :
    acts .payload (trace own c.start c.schedule) = [.use, .free] ∧
      acts .buffer (trace own c.start c.schedule) = [.free] ∧
      acts .command (trace own c.start c.schedule) = [] ∧
      (acts .header (trace own c.start c.schedule)).count .free = 1 := by
  obtain ⟨hcaller, hvendor⟩ := run_schedule own c
  have hother : ∀ b, b ≠ .header → b ≠ .currRequest →
      acts b (trace own c.start c.schedule) = acts b (onRequest ++ freePayloadAndBuffer) := by
    intro b hheader hentry
    have hrun := @run_other own b hheader hentry c.start c.schedule
    rw [hcaller] at hrun
    exact (List.append_nil _).symm.trans hrun
  refine ⟨hother _ (by decide) (by decide), hother _ (by decide) (by decide),
    hother _ (by decide) (by decide), ?_⟩
  have hfrees := @run_frees own c.start c.sound_start c.schedule
  rw [hvendor] at hfrees
  refine hfrees.trans ?_
  rw [Completion.start]
  cases c.payload <;> rfl

theorem forall_owned {P : Block → Prop} :
    (∀ b ∈ owned, P b) ↔ P .header ∧ P .payload ∧ P .buffer ∧ P .command := by
  simp [owned]

/-- What is done with the blocks until the request is in the queue. -/
def enqueued : List SapStep :=
  [.act .alloc .header, .act .use .header, .act .alloc .buffer, .act .use .buffer,
    .act .alloc .payload, .act .use .header, .act .use .payload, .act .use .buffer,
    .act .alloc .currRequest, .act .use .header, .act .use .currRequest]

theorem settles_trace_iff (own : Key) (c : Completion) :
    Settles (enqueued ++ trace own c.start c.schedule) ↔
      (system own).Along (Guard own) c.start c.schedule := by
  obtain ⟨hpayload, hbuffer, hcommand, hfrees⟩ := completion_acts own c
  have hunused : Unused c.start (trace own c.start c.schedule) ↔
      UnusedOnceFreed false (acts .header (trace own c.start c.schedule)) ∧
        UnusedOnceFreed false (acts .currRequest (trace own c.start c.schedule)) := Iff.rfl
  rw [← run_unused_iff c.sound_start, hunused]
  have hheader : Settled (enqueued ++ trace own c.start c.schedule) .header ↔
      UnusedOnceFreed false (acts .header (trace own c.start c.schedule)) := by
    have hcount : (acts .header enqueued ++ acts .header (trace own c.start c.schedule)).count
        .free = 1 := by
      rw [List.count_append, hfrees]
      decide
    rw [Settled, SettledActs, acts_append, pairwise_iff_unused, unusedOnceFreed_append,
      and_iff_right fun _ => hcount]
    exact and_iff_right ⟨rfl, rfl, rfl, trivial⟩
  have hentry : UnusedOnceFreed false (acts .currRequest (enqueued ++ trace own c.start c.schedule)) ↔
      UnusedOnceFreed false (acts .currRequest (trace own c.start c.schedule)) := by
    rw [acts_append, unusedOnceFreed_append]
    exact and_iff_right ⟨rfl, trivial⟩
  constructor
  · intro h
    exact ⟨hheader.mp (h.owned .header (by decide)), hentry.mp h.entry⟩
  · intro h
    refine ⟨forall_owned.mpr ⟨hheader.mpr h.1, ?_, ?_, ?_⟩, hentry.mpr h.2⟩
    · rw [Settled, acts_append, hpayload]
      decide
    · rw [Settled, acts_append, hbuffer]
      decide
    · rw [Settled, acts_append, hcommand]
      decide

/-! ## The exits -/

theorem settles_of_not_encoded (own : Key) {command : List Block}
    (hcommand : command = [] ∨ command = [.command]) {o : Outcome}
    (h : ¬ (o.header ∧ (command ≠ [] → o.command) ∧ o.encodedSize ∧ o.buffer ∧ o.encode)) :
    Settles (request own command o) := by
  cases hheader : o.header with
  | false =>
    simp only [request, hheader]
    exact ⟨of_decide_eq_true rfl, trivial⟩
  | true =>
    by_cases hbytes : command = [] ∨ o.command
    · simp only [request, encodeRequest, hheader, if_pos hbytes, if_true]
      cases hsize : o.encodedSize with
      | false => rcases hcommand with rfl | rfl <;> exact ⟨of_decide_eq_true rfl, trivial⟩
      | true =>
        cases hbuffer : o.buffer with
        | false => rcases hcommand with rfl | rfl <;> exact ⟨of_decide_eq_true rfl, trivial⟩
        | true =>
          cases hencode : o.encode with
          | false => rcases hcommand with rfl | rfl <;> exact ⟨of_decide_eq_true rfl, trivial⟩
          | true =>
            exact absurd ⟨hheader, fun hne => hbytes.resolve_left hne, hsize, hbuffer, hencode⟩ h
    · simp only [request, hheader, if_neg hbytes]
      exact ⟨of_decide_eq_true rfl, trivial⟩

theorem request_encoded (own : Key) {o : Outcome}
    (h : o.header ∧ o.encodedSize ∧ o.buffer ∧ o.encode) :
    request own [] o = [.act .alloc .header, .act .use .header, .act .alloc .buffer,
      .act .use .buffer] ++ addPayloadAndDispatchRequest own o := by
  obtain ⟨hheader, hsize, hbuffer, hencode⟩ := h
  simp only [request, encodeRequest, hheader, hsize, hbuffer, hencode, if_true, true_or]
  rfl

theorem settles_iff_of_encoded (own : Key) {o : Outcome}
    (henc : o.header ∧ o.encodedSize ∧ o.buffer ∧ o.encode) :
    Settles (request own [] o) ↔ (o.payload → o.socket → o.currRequest ∧
      ∃ c ∈ o.uimFuncs, (system own).Along (Guard own) c.start c.schedule) := by
  cases hpayload : o.payload with
  | false =>
    simp only [request_encoded own henc, addPayloadAndDispatchRequest, hpayload]
    exact iff_of_true ⟨of_decide_eq_true rfl, trivial⟩ nofun
  | true =>
    cases hsocket : o.socket with
    | false =>
      simp only [request_encoded own henc, addPayloadAndDispatchRequest, hpayload, hsocket]
      exact iff_of_true ⟨of_decide_eq_true rfl, trivial⟩ nofun
    | true =>
      cases hentry : o.currRequest with
      | false =>
        -- dispatchRequest has freed the header that the caller reads msg->payload from
        simp only [request_encoded own henc, addPayloadAndDispatchRequest, dispatchRequest,
          afterDispatch, hpayload, hsocket, hentry]
        refine iff_of_false (fun h => ?_) fun h => nomatch (h trivial trivial).1
        exact of_decide_eq_false rfl (h.owned .header (by decide))
      | true =>
        cases hvendor : o.uimFuncs with
        | none =>
          -- nobody completes the request, and the header stays
          simp only [request_encoded own henc, addPayloadAndDispatchRequest, dispatchRequest,
            afterDispatch, hpayload, hsocket, hentry, hvendor]
          refine iff_of_false (fun h => ?_) fun h => ?_
          · exact of_decide_eq_false rfl (h.owned .header (by decide))
          · obtain ⟨-, c, hc, -⟩ := h trivial trivial
            cases hc
        | some c =>
          have hrun : request own [] o = enqueued ++ trace own c.start c.schedule := by
            simp only [request_encoded own henc, addPayloadAndDispatchRequest, dispatchRequest,
              afterDispatch, hpayload, hsocket, hentry, hvendor]
            rfl
          rw [hrun, settles_trace_iff]
          simp

theorem acts_command_afterDispatch (own : Key) (o : Outcome) :
    acts .command (afterDispatch own o) = [] := by
  rw [afterDispatch]
  split
  · rename_i c _ _
    exact (completion_acts own c).2.2.1
  · rfl

theorem acts_command_addPayload (own : Key) (o : Outcome) :
    acts .command (addPayloadAndDispatchRequest own o) = [] := by
  rw [addPayloadAndDispatchRequest]
  split
  · split
    · change acts .command (dispatchRequest o ++ afterDispatch own o) = []
      rw [acts_append, acts_command_afterDispatch, List.append_nil, dispatchRequest]
      split <;> rfl
    · rfl
  · rfl

theorem command_leaks (own : Key) {o : Outcome}
    (h : o.header ∧ o.command ∧ o.encodedSize ∧ o.buffer ∧ o.encode) :
    ¬ Settled (request own [.command] o) .command := by
  obtain ⟨hheader, hcommand, hsize, hbuffer, hencode⟩ := h
  have hacts : acts .command (request own [.command] o) =
      [.alloc, .use, .use, .use] ++ acts .command (addPayloadAndDispatchRequest own o) := by
    simp only [request, encodeRequest, hheader, hcommand, hsize, hbuffer, hencode, if_true, or_true]
    rfl
  rw [Settled, hacts, acts_command_addPayload]
  decide

/-- The blocks of a request are freed exactly once each and not used afterwards exactly if it is
not encoded, or it has no byte array and, once it gets to dispatchRequest, its entry is allocated
and the vendor completes it in turns that meet the guard. -/
theorem blocks_settle_iff (h : Handler) (token : ℤ) (o : Outcome) :
    Settles (h.run token o) ↔ SettlesWhen h token o := by
  rcases run_eq h token o with ⟨hnone, hrun⟩ | ⟨hsome, hrun⟩
  · simp only [hrun, SettlesWhen, Encoded, hnone, not_false_eq_true, true_and, false_implies]
    by_cases henc : o.header ∧ o.encodedSize ∧ o.buffer ∧ o.encode
    · rw [settles_iff_of_encoded _ henc]
      exact ⟨fun hsettles _ => hsettles, fun hsettles => hsettles henc⟩
    · refine iff_of_true (settles_of_not_encoded _ (.inl rfl) ?_) fun h => absurd h henc
      rintro ⟨hheader, -, hrest⟩
      exact henc ⟨hheader, hrest⟩
  · simp only [hrun, SettlesWhen, Encoded, hsome, not_true_eq_false, false_and, true_implies]
    by_cases henc : o.header ∧ o.command ∧ o.encodedSize ∧ o.buffer ∧ o.encode
    · refine iff_of_false (fun hall => ?_) fun hnot => hnot henc
      exact command_leaks _ henc (hall.owned .command (by decide))
    · refine iff_of_true (settles_of_not_encoded _ (.inr rfl) ?_) henc
      rintro ⟨hheader, hcommand, hrest⟩
      exact henc ⟨hheader, hcommand (List.cons_ne_nil _ _), hrest⟩

/-- Everything that the outcome of a request is made up of goes well. -/
def completed (c : Completion) : Outcome := ⟨true, true, true, true, true, true, true, true, some c⟩

/-- A vendor that completes the request inside onRequest: msg->payload is read from a header that has
been freed. -/
theorem header_read_after_completion :
    ¬ ∀ (h : Handler) (token : ℤ) (o : Outcome), Settles (h.run token o) := by
  intro hall
  have hheader := (hall .connectReq 1
    (completed ⟨true, [], .caller :: List.replicate 10 .vendor⟩)).owned .header (by decide)
  exact absurd hheader (by decide)

/-- While the request waits another APDU comes with its token. The completion of the request takes
the entry of that one, and the completion of that one reads the header of the request. -/
example : ¬ Settled ((Handler.apduReq 0).run 1 (completed ⟨true, [], [.enqueue ⟨.apdu, 1⟩] ++
    List.replicate 5 .caller ++ List.replicate 10 .vendor ++ [.checkAndDequeue ⟨.apdu, 1⟩]⟩))
      .header := by decide

end SapRequests
