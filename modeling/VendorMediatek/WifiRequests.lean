import Mathlib.Data.List.TakeWhile
import VendorMediatek.LabelledRuns

/-!
# Requests on the command socket of the WiFi HAL

requestResponse, requestEvent and requestVendorEvent of cpp_bindings.cpp, called one after another
on one handle. The answers of the kernel to the requests that have been sent stand in cmd_sock in
the order of the requests, each message under the number of its request. The values of wifi_error
are those of wifi_hal.h, which is not part of the repository.
-/

namespace WifiRequests

open LabelledRuns

universe u

abbrev wifiSuccess : ℤ := 0
abbrev wifiErrorUnknown : ℤ := -1
abbrev wifiErrorNotSupported : ℤ := -3
abbrev wifiErrorNotAvailable : ℤ := -4
abbrev wifiErrorInvalidArgs : ℤ := -5
abbrev wifiErrorTimedOut : ℤ := -7
abbrev wifiErrorOutOfMemory : ℤ := -9
abbrev wifiErrorBusy : ℤ := -10

abbrev eagain : ℤ := 11
abbrev enomem : ℤ := 12
abbrev ebusy : ℤ := 16
abbrev einval : ℤ := 22
abbrev eopnotsupp : ℤ := 95
abbrev etimedout : ℤ := 110

def kernelErrorToWifiHalError (kerr : ℤ) : ℤ :=
  if 0 ≤ kerr then wifiSuccess
  else if kerr = -eopnotsupp then wifiErrorNotSupported
  else if kerr = -eagain then wifiErrorNotAvailable
  else if kerr = -einval then wifiErrorInvalidArgs
  else if kerr = -etimedout then wifiErrorTimedOut
  else if kerr = -enomem then wifiErrorOutOfMemory
  else if kerr = -ebusy then wifiErrorBusy
  else wifiErrorUnknown

/-- What an error message carries. With 0 it would be an ACK. -/
abbrev KernelError := { code : ℤ // code < 0 }

/-- What ends the kernel's answer to a request. -/
inductive Answer where
  | ack
  | error (code : KernelError)
  deriving DecidableEq

/-- What ack_handler and error_handler store. -/
def Answer.err : Answer → ℤ
  | .ack => 0
  | .error code => code.1

inductive Content (β : Type u) where
  | data (attributes : β)
  | answer (a : Answer)

structure Message (β : Type u) where
  request : ℕ
  content : Content β

variable {β : Type u}

def Message.isData (m : Message β) : Bool :=
  match m.content with
  | .data _ => true
  | .answer _ => false

def Message.answer? (m : Message β) : Option Answer :=
  match m.content with
  | .data _ => none
  | .answer a => some a

/-- What nl_send_auto_complete returns for a request, and what the kernel answers if it is sent. -/
structure Exchange (β : Type u) where
  send : ℤ
  data : List β
  answer : Answer

def Exchange.messages (x : Exchange β) (request : ℕ) : List (Message β) :=
  x.data.map (fun b => ⟨request, .data b⟩) ++ [⟨request, .answer x.answer⟩]

structure State (β : Type u) where
  cmdSock : List (Message β)
  sent : ℕ

def initial : State β := ⟨[], 0⟩

def nlSendAutoComplete (s : State β) (x : Exchange β) : State β :=
  { cmdSock := s.cmdSock ++ x.messages s.sent, sent := s.sent + 1 }

/-- What the loop of requestResponse has come to: err, the messages that handleResponse was given
and those that have not been read. -/
structure Received (β : Type u) where
  err : ℤ
  handled : List (Message β)
  unread : List (Message β)

structure Reply (β : Type u) where
  result : ℤ
  handled : List (Message β)

-- WifiEvent::parse, which fails with a negative result where nla_parse does.
variable (parse : β → ℤ)

def Message.parses (m : Message β) : Bool :=
  match m.content with
  | .data b => 0 ≤ parse b
  | .answer _ => false

/-- The messages are read while err is positive; none is a read that does not come back. -/
def waitForReply : List (Message β) → Option (Received β)
  | [] => none
  | m :: unread =>
    match m.content with
    | .answer a => some ⟨a.err, [], unread⟩
    | .data b => (waitForReply unread).map fun r =>
      if parse b < 0 then r else { r with handled := m :: r.handled }

/-- requestResponse of a request. alloc tells whether nl_cb_alloc succeeds. -/
def requestResponseTo (s : State β) (alloc : Bool) (x : Exchange β) :
    Option (Reply β × State β) :=
  if alloc then
    if x.send < 0 then some (⟨kernelErrorToWifiHalError x.send, []⟩, s)
    else
      let s := nlSendAutoComplete s x
      (waitForReply parse s.cmdSock).map fun r =>
        (⟨kernelErrorToWifiHalError r.err, r.handled⟩, { s with cmdSock := r.unread })
  else some (⟨kernelErrorToWifiHalError 0, []⟩, s)

def requestResponse (s : State β) (create : ℤ) (alloc : Bool) (x : Exchange β) :
    Option (Reply β × State β) :=
  if create < 0 then some (⟨create, []⟩, s) else requestResponseTo parse s alloc x

/-- requestEvent and requestVendorEvent; wait is what mCondition.wait returns. -/
def request (s : State β) (register create : ℤ) (x : Exchange β) (wait : ℤ) : ℤ × State β :=
  if register < 0 then (register, s)
  else if create < 0 then (create, s)
  else if x.send < 0 then (kernelErrorToWifiHalError x.send, s)
  else (wait, nlSendAutoComplete s x)

def requestEvent (s : State β) (register create : ℤ) (x : Exchange β) (wait : ℤ) : ℤ × State β :=
  request s register create x wait

def requestVendorEvent (s : State β) (register create : ℤ) (x : Exchange β) (wait : ℤ) :
    ℤ × State β :=
  request s register create x wait

inductive Event (β : Type u) where
  | requestResponse (create : ℤ) (alloc : Bool) (x : Exchange β)
  | requestResponseTo (alloc : Bool) (x : Exchange β)
  | requestEvent (register create : ℤ) (x : Exchange β) (wait : ℤ)
  | requestVendorEvent (register create : ℤ) (x : Exchange β) (wait : ℤ)

/-- What a requestResponse does, none for the other calls. -/
def response (s : State β) : Event β → Option (Option (Reply β × State β))
  | .requestResponse create alloc x => some (requestResponse parse s create alloc x)
  | .requestResponseTo alloc x => some (requestResponseTo parse s alloc x)
  | .requestEvent .. | .requestVendorEvent .. => none

def next (s : State β) : Event β → State β
  | .requestResponse create alloc x => ((requestResponse parse s create alloc x).map (·.2)).getD s
  | .requestResponseTo alloc x => ((requestResponseTo parse s alloc x).map (·.2)).getD s
  | .requestEvent register create x wait => (requestEvent s register create x wait).2
  | .requestVendorEvent register create x wait => (requestVendorEvent s register create x wait).2

def hal : System (State β) (Event β) := ⟨fun _ _ => True, next parse⟩

/-! ## What a call is answered -/

/-- The request of the call is sent, and the kernel acknowledges it. -/
def Acked : Event β → Prop
  | .requestResponse create alloc x => 0 ≤ create ∧ alloc ∧ 0 ≤ x.send ∧ x.answer = .ack
  | .requestResponseTo alloc x => alloc ∧ 0 ≤ x.send ∧ x.answer = .ack
  | .requestEvent .. | .requestVendorEvent .. => False

/-- A requestResponse comes back, with WIFI_SUCCESS exactly if its own request was acknowledged, and
handleResponse is given messages of its own request only. -/
def OwnOutcome (s : State β) (e : Event β) : Prop :=
  ∀ o ∈ response parse s e, ∃ r, o = some r ∧
    (r.1.result = wifiSuccess ↔ Acked e) ∧ ∀ m ∈ r.1.handled, m.request = s.sent

/-- No data that parses is unread in front of the first answer in cmd_sock, and that answer, if
there is one, is an ACK exactly if x is answered with one. -/
def UnreadFits (s : State β) (x : Exchange β) : Prop :=
  (∀ m ∈ s.cmdSock.takeWhile Message.isData, m.parses parse = false) ∧
    ∀ a ∈ s.cmdSock.findSome? Message.answer?, (a = .ack ↔ x.answer = .ack)

/-- The callbacks are allocated, and if the request is sent what is unread fits its answer. -/
def RequestFits (s : State β) (alloc : Bool) (x : Exchange β) : Prop :=
  alloc ∧ (0 ≤ x.send → UnreadFits parse s x)

def Fits (s : State β) : Event β → Prop
  | .requestResponse create alloc x => 0 ≤ create → RequestFits parse s alloc x
  | .requestResponseTo alloc x => RequestFits parse s alloc x
  | .requestEvent .. | .requestVendorEvent .. => True

theorem kernelErrorToWifiHalError_eq_success (kerr : ℤ) :
    kernelErrorToWifiHalError kerr = wifiSuccess ↔ 0 ≤ kerr := by
  simp only [kernelErrorToWifiHalError]
  repeat' split
  all_goals simp_all

theorem Answer.err_nonneg (a : Answer) : 0 ≤ a.err ↔ a = .ack := by
  cases a with
  | ack => simp [Answer.err]
  | error code => simp [Answer.err, code.2]

@[simp] theorem isData_data (n : ℕ) (b : β) : (⟨n, .data b⟩ : Message β).isData = true := rfl
@[simp] theorem isData_answer (n : ℕ) (a : Answer) :
    (⟨n, .answer a⟩ : Message β).isData = false := rfl
@[simp] theorem answer?_data (n : ℕ) (b : β) : (⟨n, .data b⟩ : Message β).answer? = none := rfl
@[simp] theorem answer?_answer (n : ℕ) (a : Answer) :
    (⟨n, .answer a⟩ : Message β).answer? = some a := rfl
@[simp] theorem parses_data (n : ℕ) (b : β) :
    (⟨n, .data b⟩ : Message β).parses parse = decide (0 ≤ parse b) := rfl

/-- The loop stops at the first answer, having handled the data in front of it. -/
theorem waitForReply_eq (l : List (Message β)) :
    waitForReply parse l = (l.findSome? Message.answer?).map fun a =>
      ⟨a.err, (l.takeWhile Message.isData).filter (·.parses parse),
        (l.dropWhile Message.isData).tail⟩ := by
  induction l with
  | nil => rfl
  | cons m l ih =>
    obtain ⟨n, content⟩ := m
    cases content with
    | answer a => simp [waitForReply, List.findSome?_cons, -List.map_findSome?]
    | data b =>
      by_cases hb : parse b < 0
      · have hfail : ¬ 0 ≤ parse b := by omega
        simp [waitForReply, List.findSome?_cons, List.takeWhile_cons, List.dropWhile_cons, ih, hb,
          hfail, -List.map_findSome?, Function.comp_def]
      · have hok : 0 ≤ parse b := by omega
        simp [waitForReply, List.findSome?_cons, List.takeWhile_cons, List.dropWhile_cons, ih, hb,
          hok, -List.map_findSome?, Function.comp_def]

theorem findSome?_messages (x : Exchange β) (n : ℕ) :
    (x.messages n).findSome? Message.answer? = some x.answer := by
  have hdata : (x.data.map fun b => (⟨n, .data b⟩ : Message β)).findSome? Message.answer? = none := by
    simp [List.findSome?_eq_none_iff]
  simp [Exchange.messages, List.findSome?_append, hdata]

/-- What is read after a send: the first answer that was unread, or the request's own. -/
theorem findSome?_nlSendAutoComplete (s : State β) (x : Exchange β) :
    (nlSendAutoComplete s x).cmdSock.findSome? Message.answer? =
      some ((s.cmdSock.findSome? Message.answer?).getD x.answer) := by
  simp only [nlSendAutoComplete, List.findSome?_append, findSome?_messages]
  cases s.cmdSock.findSome? Message.answer? <;> rfl

/-- What is left unread was sent before. -/
def Earlier (s : State β) : Prop := ∀ m ∈ s.cmdSock, m.request < s.sent

theorem request_messages {x : Exchange β} {n : ℕ} {m : Message β} (hm : m ∈ x.messages n) :
    m.request = n := by
  rcases List.mem_append.mp hm with hm | hm
  · obtain ⟨b, -, rfl⟩ := List.mem_map.mp hm
    rfl
  · rw [List.mem_singleton.mp hm]

theorem mem_nlSendAutoComplete {s : State β} {x : Exchange β} {m : Message β}
    (hm : m ∈ (nlSendAutoComplete s x).cmdSock) : m ∈ s.cmdSock ∨ m.request = s.sent := by
  rcases List.mem_append.mp hm with hm | hm
  · exact .inl hm
  · exact .inr (request_messages hm)

theorem earlier_nlSendAutoComplete {s : State β} (h : Earlier s) (x : Exchange β) :
    Earlier (nlSendAutoComplete s x) := by
  intro m hm
  rcases mem_nlSendAutoComplete hm with hm | hm
  · exact Nat.lt_succ_of_lt (h m hm)
  · rw [hm]
    exact Nat.lt_succ_self _

/-- A request that is sent is answered: the loop of requestResponse comes to an end. -/
theorem requestResponseTo_sent (s : State β) {x : Exchange β} (hsend : 0 ≤ x.send) :
    requestResponseTo parse s true x = some
      (⟨kernelErrorToWifiHalError ((s.cmdSock.findSome? Message.answer?).getD x.answer).err,
        ((nlSendAutoComplete s x).cmdSock.takeWhile Message.isData).filter (·.parses parse)⟩,
        ⟨((nlSendAutoComplete s x).cmdSock.dropWhile Message.isData).tail, s.sent + 1⟩) := by
  have hnot : ¬ x.send < 0 := by omega
  simp only [requestResponseTo, if_neg hnot, if_true, waitForReply_eq,
    findSome?_nlSendAutoComplete, Option.map_some]
  rfl

/-- What a requestResponse leaves unread is what was there before, or what is left of it once its
own answer or an earlier one has been read. -/
theorem requestResponseTo_keeps {P : State β → Prop} {s : State β} (h : P s) (alloc : Bool)
    (x : Exchange β) (hsent : 0 ≤ x.send →
      P ⟨((nlSendAutoComplete s x).cmdSock.dropWhile Message.isData).tail, s.sent + 1⟩) :
    ∀ r ∈ requestResponseTo parse s alloc x, P r.2 := by
  intro r hr
  cases alloc with
  | false =>
    obtain rfl := Option.some.inj hr
    exact h
  | true =>
    by_cases hsend : x.send < 0
    · simp only [requestResponseTo, if_true, if_pos hsend, Option.mem_some_iff] at hr
      rw [← hr]
      exact h
    · rw [requestResponseTo_sent parse s (by omega)] at hr
      obtain rfl := Option.some.inj hr
      exact hsent (by omega)

theorem earlier_requestResponseTo {s : State β} (h : Earlier s) (alloc : Bool) (x : Exchange β) :
    ∀ r ∈ requestResponseTo parse s alloc x, Earlier r.2 := by
  apply requestResponseTo_keeps parse h
  intro _ m hm
  apply earlier_nlSendAutoComplete h x m
  exact (List.dropWhile_sublist _).subset (List.mem_of_mem_tail hm)

/-- A requestEvent or requestVendorEvent that gets as far as sending. -/
def SendsUnread : Event β → Prop
  | .requestResponse .. | .requestResponseTo .. => False
  | .requestEvent register create x _ | .requestVendorEvent register create x _ =>
    0 ≤ register ∧ 0 ≤ create ∧ 0 ≤ x.send

theorem request_keeps {P : State β → Prop} {s : State β} (h : P s) {register create : ℤ}
    {x : Exchange β} {wait : ℤ}
    (hsend : 0 ≤ register ∧ 0 ≤ create ∧ 0 ≤ x.send → P (nlSendAutoComplete s x)) :
    P (request s register create x wait).2 := by
  simp only [request]
  split
  · exact h
  split
  · exact h
  split
  · exact h
  · exact hsend ⟨by omega, by omega, by omega⟩

/-- What requestResponse keeps and an event request that sends keeps every call keeps. -/
theorem next_keeps {P : State β → Prop} {s : State β} {e : Event β} (h : P s)
    (hresponse : ∀ alloc x, ∀ r ∈ requestResponseTo parse s alloc x, P r.2)
    (hsend : SendsUnread e → ∀ x, P (nlSendAutoComplete s x)) : P (next parse s e) := by
  have hto : ∀ alloc x, P (((requestResponseTo parse s alloc x).map (·.2)).getD s) := by
    intro alloc x
    cases hr : requestResponseTo parse s alloc x with
    | none => exact h
    | some r => exact hresponse alloc x r hr
  cases e with
  | requestResponse create alloc x =>
    simp only [next, requestResponse]
    split
    · exact h
    · exact hto alloc x
  | requestResponseTo alloc x => exact hto alloc x
  | requestEvent register create x wait => exact request_keeps h fun hs => hsend hs x
  | requestVendorEvent register create x wait => exact request_keeps h fun hs => hsend hs x

theorem earlier_next {s : State β} (h : Earlier s) (e : Event β) : Earlier (next parse s e) :=
  next_keeps parse h (earlier_requestResponseTo parse h) fun _ => earlier_nlSendAutoComplete h

theorem takeWhile_prefix_append (p : Message β → Bool) (l k : List (Message β)) :
    l.takeWhile p <+: (l ++ k).takeWhile p := by
  rw [List.takeWhile_append]
  split
  · exact ((List.takeWhile_prefix p).trans (List.prefix_append _ _))
  · exact List.prefix_refl _

theorem mem_takeWhile_append {p : Message β → Bool} {l k : List (Message β)} {m : Message β}
    (hm : m ∈ (l ++ k).takeWhile p) : m ∈ l.takeWhile p ∨ m ∈ k := by
  rw [List.takeWhile_append] at hm
  split at hm
  · rename_i hall
    rcases List.mem_append.mp hm with hm | hm
    · left
      rwa [(List.takeWhile_prefix p).eq_of_length hall]
    · exact .inr ((List.takeWhile_prefix p).subset hm)
  · exact .inl hm

/-- What handleResponse is given is the request's own exactly if no data in front of the first
unread answer parses. -/
theorem handled_own_iff {s : State β} (h : Earlier s) (x : Exchange β) :
    (∀ m ∈ ((nlSendAutoComplete s x).cmdSock.takeWhile Message.isData).filter (·.parses parse),
      m.request = s.sent) ↔
    ∀ m ∈ s.cmdSock.takeWhile Message.isData, m.parses parse = false := by
  have hstart : s.cmdSock.takeWhile Message.isData <+:
      (nlSendAutoComplete s x).cmdSock.takeWhile Message.isData :=
    takeWhile_prefix_append _ _ _
  constructor
  · intro hown m hm
    have hlt := h m ((List.takeWhile_prefix _).subset hm)
    rw [Bool.eq_false_iff]
    intro hparses
    have hself := hown m (List.mem_filter.mpr ⟨hstart.subset hm, hparses⟩)
    omega
  · intro hstale m hm
    obtain ⟨hm, hparses⟩ := List.mem_filter.mp hm
    rcases mem_takeWhile_append hm with hm | hm
    · rw [hstale m hm] at hparses
      cases hparses
    · exact request_messages hm

theorem result_own_iff (s : State β) (x : Exchange β) :
    (kernelErrorToWifiHalError ((s.cmdSock.findSome? Message.answer?).getD x.answer).err =
      wifiSuccess ↔ x.answer = .ack) ↔
    ∀ a ∈ s.cmdSock.findSome? Message.answer?, (a = .ack ↔ x.answer = .ack) := by
  simp only [kernelErrorToWifiHalError_eq_success, Answer.err_nonneg]
  cases s.cmdSock.findSome? Message.answer? with
  | none => simp
  | some a => simp

/-- Without the callbacks nothing is sent and WIFI_SUCCESS is returned; a send that fails is
reported; a request that is sent is given the first answer of the socket. -/
theorem requestResponseTo_own_iff {s : State β} (h : Earlier s) (alloc : Bool) (x : Exchange β) :
    (∃ r, requestResponseTo parse s alloc x = some r ∧
      (r.1.result = wifiSuccess ↔ alloc ∧ 0 ≤ x.send ∧ x.answer = .ack) ∧
      ∀ m ∈ r.1.handled, m.request = s.sent) ↔ RequestFits parse s alloc x := by
  cases alloc with
  | false =>
    simp [requestResponseTo, RequestFits, kernelErrorToWifiHalError_eq_success]
  | true =>
    by_cases hsend : x.send < 0
    · have hnot : ¬ 0 ≤ x.send := by omega
      simp [requestResponseTo, RequestFits, kernelErrorToWifiHalError_eq_success, hsend, hnot]
    · have hsent : 0 ≤ x.send := by omega
      simp only [requestResponseTo_sent parse s hsent, Option.some.injEq, exists_eq_left',
        RequestFits, UnreadFits, handled_own_iff parse h, hsent, true_and, forall_const,
        result_own_iff]
      exact and_comm

theorem ownOutcome_iff {s : State β} (h : Earlier s) (e : Event β) :
    OwnOutcome parse s e ↔ Fits parse s e := by
  cases e with
  | requestResponse create alloc x =>
    simp only [OwnOutcome, response, Option.mem_some_iff, forall_eq', Fits, Acked, requestResponse]
    by_cases hcreate : create < 0
    · have hne : create ≠ wifiSuccess := by
        rintro rfl
        exact absurd hcreate (by decide)
      have hnot : ¬ 0 ≤ create := by omega
      simp [hcreate, hne, hnot]
    · have hok : 0 ≤ create := by omega
      simp only [if_neg hcreate, hok, true_and, forall_const]
      exact requestResponseTo_own_iff parse h alloc x
  | requestResponseTo alloc x =>
    simp only [OwnOutcome, response, Option.mem_some_iff, forall_eq', Fits, Acked]
    exact requestResponseTo_own_iff parse h alloc x
  | requestEvent | requestVendorEvent => simp [OwnOutcome, response, Fits]

theorem legal (s : State β) (es : List (Event β)) : (hal parse).Legal s es :=
  (along_events _ (fun _ => True) s es).mpr fun _ _ => trivial

/-- Every requestResponse of a run returns the outcome of its own request exactly if each finds its
callbacks allocated and, having sent its request, nothing unread that its answer does not fit. -/
theorem own_outcomes_iff (es : List (Event β)) :
    (hal parse).Along (OwnOutcome parse) initial es ↔ (hal parse).Along (Fits parse) initial es :=
  along_iff_guarded (hal parse) (I := Earlier) (fun _ e h _ _ => earlier_next parse h e)
    (fun _ e h _ => ownOutcome_iff parse h e) (fun _ hm => absurd hm List.not_mem_nil)
    (legal parse initial es)

/-- The ACK of an event request is never read: the request that comes next is refused and its call
returns WIFI_SUCCESS. -/
theorem unread_ack_is_taken : ¬ ∀ (parse : ℕ → ℤ) (es : List (Event ℕ)),
    (hal parse).Along (OwnOutcome parse) initial es := by
  intro h
  obtain ⟨-, hsecond, -⟩ := h (fun _ => 0) [.requestEvent 0 0 ⟨20, [], .ack⟩ 0,
    .requestResponseTo true ⟨20, [], .error ⟨-einval, by decide⟩⟩]
  obtain ⟨r, hr, hresult, -⟩ := hsecond _ rfl
  obtain rfl := Option.some.inj hr
  obtain ⟨-, -, hacked⟩ := hresult.mp rfl
  cases hacked

/-! ## Where unread answers come from -/

theorem cmdSock_requestResponseTo {s : State β} (h : s.cmdSock = []) (alloc : Bool)
    (x : Exchange β) : ∀ r ∈ requestResponseTo parse s alloc x, r.2.cmdSock = [] := by
  apply requestResponseTo_keeps (P := fun s => s.cmdSock = []) parse h
  intro _
  have hdata : ∀ m ∈ x.data.map fun b => (⟨s.sent, .data b⟩ : Message β), m.isData := by
    intro m hm
    obtain ⟨b, -, rfl⟩ := List.mem_map.mp hm
    rfl
  simp [nlSendAutoComplete, h, Exchange.messages, List.dropWhile_append_of_pos hdata]

theorem cmdSock_next {s : State β} (h : s.cmdSock = []) {e : Event β} (he : ¬ SendsUnread e) :
    (next parse s e).cmdSock = [] :=
  next_keeps (P := fun s => s.cmdSock = []) parse h (cmdSock_requestResponseTo parse h)
    fun hs => absurd hs he

/-- As long as only requestResponse sends, the socket is read empty by every call. -/
theorem cmdSock_empty (es : List (Event β)) (h : ∀ e ∈ es, ¬ SendsUnread e) :
    ((hal parse).run initial es).cmdSock = [] :=
  invariant_run (hal parse) (I := fun s => s.cmdSock = []) (fun _ _ hs _ he => cmdSock_next parse hs he)
    rfl (legal parse initial es) ((along_events _ _ _ _).mpr h)

end WifiRequests
