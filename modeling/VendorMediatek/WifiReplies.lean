import VendorMediatek.HeapLedgers
import VendorMediatek.WifiRequests

/-!
# The wait for a reply on the command socket

requestResponse of cpp_bindings.cpp for any behaviour of libnl, which may fail at every call. err is
1 while the loop waits; the callbacks that nl_recvmsgs runs store into it.
-/

namespace WifiReplies

open HeapLedgers
open WifiRequests (kernelErrorToWifiHalError kernelErrorToWifiHalError_eq_success wifiSuccess)

/-- The callbacks that are set, with what error_handler finds in the message. -/
inductive Callback where
  | ack
  | finish
  | error (code : ℤ)
  | valid
  deriving DecidableEq, Repr

def Callback.stored : Callback → Option ℤ
  | .ack => some 0
  | .finish => some 0
  | .error code => some code
  | .valid => none

/-- One nl_recvmsgs: the callbacks it runs, and its result. -/
structure Receive where
  callbacks : List Callback
  res : ℤ
  deriving Repr

structure Libnl where
  cbAlloc : Bool
  send : ℤ
  receive : ℕ → Receive

def nlRecvmsgs (err : ℤ) (r : Receive) : ℤ :=
  r.callbacks.foldl (fun err c => c.stored.getD err) err

/-- The loop before its call number i, with the number of calls at the end. A result other than 0 is
only logged. -/
def waitForReply (receive : ℕ → Receive) : ℕ → ℕ → ℤ → Option (ℤ × ℕ)
  | 0, _, _ => none
  | fuel + 1, i, err =>
    if 0 < err then waitForReply receive fuel (i + 1) (nlRecvmsgs err (receive i))
    else some (err, i)

/-- The only block is the callback set; nl_cb_put takes a null pointer too. -/
def nlCbPut (cb : Bool) : List (Op Unit) := if cb then [.free () 0] else []

structure Outcome where
  result : ℤ
  calls : ℕ
  ledger : List (Op Unit)

def requestResponse (libnl : Libnl) (fuel : ℕ) : Option Outcome :=
  if libnl.cbAlloc = false then some ⟨kernelErrorToWifiHalError 0, 0, nlCbPut false⟩
  else if libnl.send < 0 then
    some ⟨kernelErrorToWifiHalError libnl.send, 0, .alloc () :: nlCbPut true⟩
  else do
    let (err, calls) ← waitForReply libnl.receive fuel 0 1
    return ⟨kernelErrorToWifiHalError err, calls, .alloc () :: nlCbPut true⟩

/-! ## The loop -/

/-- What a call leaves in err; none when it does not write to it. -/
def Receive.status (r : Receive) : Option ℤ := (r.callbacks.filterMap Callback.stored).getLast?

def Receive.Ends (r : Receive) : Prop := ∃ code ∈ r.status, code ≤ 0

theorem nlRecvmsgs_eq (err : ℤ) (r : Receive) : nlRecvmsgs err r = r.status.getD err := by
  rw [nlRecvmsgs, Receive.status]
  induction r.callbacks using List.reverseRecOn with
  | nil => rfl
  | append_singleton callbacks c ih =>
    rw [List.foldl_append, List.foldl_cons, List.foldl_nil, ih, List.filterMap_append]
    rcases hc : c.stored with _ | code
    · simp [hc]
    · simp [hc]

theorem nlRecvmsgs_pos {err : ℤ} {r : Receive} (herr : 0 < err) (h : ¬ r.Ends) :
    0 < nlRecvmsgs err r := by
  rw [nlRecvmsgs_eq]
  rcases hstatus : r.status with _ | code
  · exact herr
  · exact Int.not_le.mp fun hle => h ⟨code, hstatus, hle⟩

/-- Call number j is the first from i on that ends the loop. -/
structure FirstEnd (receive : ℕ → Receive) (i j : ℕ) : Prop where
  le : i ≤ j
  ends : (receive j).Ends
  before : ∀ m, i ≤ m → m < j → ¬ (receive m).Ends

theorem waitForReply_some {receive : ℕ → Receive} {fuel i : ℕ} {err : ℤ} {e : ℤ} {calls : ℕ}
    (herr : 0 < err) (h : waitForReply receive fuel i err = some (e, calls)) :
    ∃ j, calls = j + 1 ∧ FirstEnd receive i j ∧ (receive j).status = some e := by
  induction fuel generalizing i err with
  | zero => cases h
  | succ fuel ih =>
    rw [waitForReply, if_pos herr] at h
    by_cases hends : (receive i).Ends
    · obtain ⟨code, hstatus, hcode⟩ := hends
      have hnext : nlRecvmsgs err (receive i) = code := by
        rw [nlRecvmsgs_eq, hstatus, Option.getD_some]
      cases fuel with
      | zero => cases h
      | succ fuel =>
        rw [waitForReply, hnext, if_neg (Int.not_lt.mpr hcode)] at h
        cases h
        exact ⟨i, rfl, ⟨le_rfl, ⟨e, hstatus, hcode⟩, fun m him hmi => absurd him (by omega)⟩,
          hstatus⟩
    · obtain ⟨j, hcalls, hfirst, hstatus⟩ := ih (nlRecvmsgs_pos herr hends) h
      have hij := hfirst.le
      refine ⟨j, hcalls, ⟨by omega, hfirst.ends, fun m him hmj => ?_⟩, hstatus⟩
      rcases eq_or_lt_of_le him with rfl | hlt
      · exact hends
      · exact hfirst.before m hlt hmj

theorem waitForReply_ends {receive : ℕ → Receive} {n i : ℕ} (hends : (receive (i + n)).Ends)
    (err : ℤ) : ∃ fuel r, waitForReply receive fuel i err = some r := by
  by_cases herr : 0 < err
  · induction n generalizing i err with
    | zero =>
      obtain ⟨code, hstatus, hcode⟩ := hends
      have hnext : nlRecvmsgs err (receive i) = code := by
        rw [nlRecvmsgs_eq, ← Nat.add_zero i, hstatus, Option.getD_some]
      refine ⟨2, (code, i + 1), ?_⟩
      rw [waitForReply, if_pos herr, waitForReply, hnext, if_neg (Int.not_lt.mpr hcode)]
    | succ n ih =>
      by_cases hnext : 0 < nlRecvmsgs err (receive i)
      · have hshift : i + 1 + n = i + (n + 1) := by omega
        rw [← hshift] at hends
        obtain ⟨fuel, r, hr⟩ := ih hends _ hnext
        refine ⟨fuel + 1, r, ?_⟩
        rw [waitForReply, if_pos herr, hr]
      · refine ⟨2, (nlRecvmsgs err (receive i), i + 1), ?_⟩
        rw [waitForReply, if_pos herr, waitForReply, if_neg hnext]
  · refine ⟨1, (err, i), ?_⟩
    rw [waitForReply, if_neg herr]

theorem firstEnd_unique {receive : ℕ → Receive} {i j k : ℕ} (hj : FirstEnd receive i j)
    (hk : FirstEnd receive i k) : j = k := by
  rcases Nat.lt_trichotomy j k with hlt | heq | hlt
  · exact absurd hj.ends (hk.before j hj.le hlt)
  · exact heq
  · exact absurd hk.ends (hj.before k hk.le hlt)

/-! ## What a caller relies on -/

def Receive.Answered (r : Receive) : Prop := .ack ∈ r.callbacks ∨ .finish ∈ r.callbacks

/-- A success is an answer, the callback set does not leak, and the function returns unless
nl_recvmsgs succeeds again and again. -/
structure Meets (libnl : Libnl) : Prop where
  answered : ∀ fuel o, requestResponse libnl fuel = some o → o.result = wifiSuccess →
    ∃ i < o.calls, (libnl.receive i).Answered
  released : ∀ fuel o, requestResponse libnl fuel = some o →
    Balanced o.ledger ∧ (allocations o.ledger ≠ [] ↔ libnl.cbAlloc = true)
  returns : (∃ n, ∀ i, n ≤ i → (libnl.receive i).res ≠ 0) →
    ∃ fuel o, requestResponse libnl fuel = some o

/-- There is memory for the callback set. Behind a message that is sent some call ends the loop, or
calls succeed again and again; and the call that ends it is not the first to store a 0 by an error
callback. -/
def Reliable (libnl : Libnl) : Prop :=
  libnl.cbAlloc = true ∧ (0 ≤ libnl.send →
    ((∃ i, (libnl.receive i).Ends) ∨ ∀ n, ∃ i, n ≤ i ∧ (libnl.receive i).res = 0) ∧
      ∀ i, FirstEnd libnl.receive 0 i → (libnl.receive i).status = some 0 →
        ∃ j ≤ i, (libnl.receive j).Answered)

theorem balanced_put : Balanced (.alloc () :: nlCbPut true) where
  once _ _ := rfl
  whole p hp := by
    obtain rfl := List.mem_singleton.mp hp
    exact ⟨rfl, List.mem_singleton_self _⟩
  settled := settled_append_of_frees_nil (a := [.alloc ()]) rfl (settled_free () 0)

theorem requestResponse_some {libnl : Libnl} {fuel : ℕ} {o : Outcome}
    (h : requestResponse libnl fuel = some o) :
    (libnl.cbAlloc = false ∧ o = ⟨wifiSuccess, 0, []⟩) ∨
      (libnl.cbAlloc = true ∧ o.ledger = .alloc () :: nlCbPut true ∧
        ((libnl.send < 0 ∧ o.result = kernelErrorToWifiHalError libnl.send) ∨
          (0 ≤ libnl.send ∧ ∃ i, FirstEnd libnl.receive 0 i ∧ o.calls = i + 1 ∧
            ∃ err, (libnl.receive i).status = some err ∧
              o.result = kernelErrorToWifiHalError err))) := by
  unfold requestResponse at h
  split_ifs at h with halloc hsend
  · cases h
    exact .inl ⟨halloc, rfl⟩
  · cases h
    exact .inr ⟨by simpa using halloc, rfl, .inl ⟨hsend, rfl⟩⟩
  · obtain ⟨⟨err, calls⟩, hwait, hreturn⟩ := Option.bind_eq_some_iff.mp h
    cases hreturn
    obtain ⟨i, hcalls, hfirst, hstatus⟩ := waitForReply_some Int.one_pos hwait
    exact .inr ⟨by simpa using halloc, rfl,
      .inr ⟨Int.not_lt.mp hsend, i, hfirst, hcalls, err, hstatus, rfl⟩⟩

theorem requestResponse_waits {libnl : Libnl} {fuel : ℕ} {o : Outcome}
    (halloc : libnl.cbAlloc = true) (hsend : 0 ≤ libnl.send)
    (h : requestResponse libnl fuel = some o) :
    ∃ i, FirstEnd libnl.receive 0 i ∧ o.calls = i + 1 ∧ ∃ err,
      (libnl.receive i).status = some err ∧ o.result = kernelErrorToWifiHalError err := by
  rcases requestResponse_some h with ⟨hnone, -⟩ | ⟨-, -, hfail | ⟨-, hwait⟩⟩
  · exact absurd (hnone.symm.trans halloc) Bool.false_ne_true
  · exact absurd hfail.1 (Int.not_lt.mpr hsend)
  · exact hwait

theorem requestResponse_returns {libnl : Libnl} (halloc : libnl.cbAlloc = true)
    (hsend : 0 ≤ libnl.send) {i : ℕ} (hends : (libnl.receive i).Ends) :
    ∃ fuel o, requestResponse libnl fuel = some o := by
  rw [← Nat.zero_add i] at hends
  obtain ⟨fuel, r, hr⟩ := waitForReply_ends hends 1
  refine ⟨fuel, ⟨kernelErrorToWifiHalError r.1, r.2, .alloc () :: nlCbPut true⟩, ?_⟩
  rw [requestResponse, if_neg (by rw [halloc]; decide), if_neg (Int.not_lt.mpr hsend), hr]
  rfl

theorem released_of_some {libnl : Libnl} {fuel : ℕ} {o : Outcome}
    (h : requestResponse libnl fuel = some o) :
    Balanced o.ledger ∧ (allocations o.ledger ≠ [] ↔ libnl.cbAlloc = true) := by
  rcases requestResponse_some h with ⟨hnone, rfl⟩ | ⟨halloc, hledger, -⟩
  · refine ⟨balanced_nil, iff_of_false (fun hne => hne rfl) fun halloc => ?_⟩
    exact Bool.false_ne_true (hnone.symm.trans halloc)
  · rw [hledger]
    exact ⟨balanced_put, iff_of_true (List.cons_ne_nil _ _) halloc⟩

theorem answered_of_success {libnl : Libnl} (h : Reliable libnl) {fuel : ℕ} {o : Outcome}
    (ho : requestResponse libnl fuel = some o) (hresult : o.result = wifiSuccess) :
    ∃ i < o.calls, (libnl.receive i).Answered := by
  obtain ⟨halloc, hreceive⟩ := h
  rcases requestResponse_some ho with ⟨hnone, -⟩ | ⟨-, -, hfail | ⟨hsend, hwait⟩⟩
  · exact absurd (hnone.symm.trans halloc) Bool.false_ne_true
  · rw [hfail.2, kernelErrorToWifiHalError_eq_success] at hresult
    exact absurd hfail.1 (Int.not_lt.mpr hresult)
  · obtain ⟨i, hfirst, hcalls, err, hstatus, hcode⟩ := hwait
    obtain ⟨code, hmem, hle⟩ := hfirst.ends
    obtain rfl : err = code := Option.some.inj (hstatus.symm.trans hmem)
    rw [hcode, kernelErrorToWifiHalError_eq_success] at hresult
    obtain rfl : err = 0 := Int.le_antisymm hle hresult
    obtain ⟨j, hj, hanswered⟩ := (hreceive hsend).2 i hfirst hstatus
    exact ⟨j, by omega, hanswered⟩

theorem returns_of_reliable {libnl : Libnl} (h : Reliable libnl)
    (hfail : ∃ n, ∀ i, n ≤ i → (libnl.receive i).res ≠ 0) :
    ∃ fuel o, requestResponse libnl fuel = some o := by
  obtain ⟨halloc, hreceive⟩ := h
  by_cases hsend : 0 ≤ libnl.send
  · rcases (hreceive hsend).1 with ⟨i, hends⟩ | hsucceed
    · exact requestResponse_returns halloc hsend hends
    · obtain ⟨n, hn⟩ := hfail
      obtain ⟨i, hi, hres⟩ := hsucceed n
      exact absurd hres (hn i hi)
  · refine ⟨0, ⟨kernelErrorToWifiHalError libnl.send, 0, .alloc () :: nlCbPut true⟩, ?_⟩
    rw [requestResponse, if_neg (by rw [halloc]; decide), if_pos (Int.not_le.mp hsend)]

theorem cbAlloc_of_meets {libnl : Libnl} (h : Meets libnl) : libnl.cbAlloc = true := by
  by_contra hnone
  have hreturn : requestResponse libnl 0 = some ⟨wifiSuccess, 0, []⟩ := by
    rw [requestResponse, if_pos (eq_false_of_ne_true hnone)]
    rfl
  obtain ⟨i, hi, -⟩ := h.answered 0 _ hreturn rfl
  exact absurd hi (Nat.not_lt_zero i)

theorem reliable_of_meets {libnl : Libnl} (h : Meets libnl) : Reliable libnl := by
  have halloc := cbAlloc_of_meets h
  refine ⟨halloc, fun hsend => ⟨?_, fun i hfirst hstatus => ?_⟩⟩
  · by_cases hsucceed : ∀ n, ∃ i, n ≤ i ∧ (libnl.receive i).res = 0
    · exact .inr hsucceed
    · push Not at hsucceed
      obtain ⟨fuel, o, ho⟩ := h.returns hsucceed
      obtain ⟨i, hfirst, -⟩ := requestResponse_waits halloc hsend ho
      exact .inl ⟨i, hfirst.ends⟩
  · obtain ⟨fuel, o, ho⟩ := requestResponse_returns halloc hsend hfirst.ends
    obtain ⟨j, hj, hcalls, err, herr, hresult⟩ := requestResponse_waits halloc hsend ho
    obtain rfl := firstEnd_unique hfirst hj
    obtain rfl : 0 = err := Option.some.inj (hstatus.symm.trans herr)
    obtain ⟨m, hm, hanswered⟩ := h.answered fuel o ho hresult
    exact ⟨m, by omega, hanswered⟩

/-- The function keeps what a caller relies on exactly for the behaviours of libnl that are reliable
in this sense. -/
theorem requestResponse_meets_iff (libnl : Libnl) : Meets libnl ↔ Reliable libnl := by
  refine ⟨reliable_of_meets, fun h => ⟨?_, ?_, returns_of_reliable h⟩⟩
  · exact fun fuel o ho hresult => answered_of_success h ho hresult
  · exact fun fuel o ho => released_of_some ho

/-- Without a callback set the request is reported as done. And when every call fails the function
does not return. -/
theorem requestResponse_without_reply :
    (requestResponse ⟨false, 0, fun _ => ⟨[], -1⟩⟩ 0).map Outcome.result = some wifiSuccess ∧
      (∀ fuel, (requestResponse ⟨true, 0, fun _ => ⟨[], -1⟩⟩ fuel).isNone) ∧
      ¬ ∀ libnl, Meets libnl := by
  refine ⟨rfl, fun fuel => ?_, fun h => ?_⟩
  · rw [Option.isNone_iff_eq_none, Option.eq_none_iff_forall_ne_some]
    intro o ho
    obtain ⟨i, hfirst, -⟩ := requestResponse_waits rfl Int.le_rfl ho
    obtain ⟨code, hstatus, -⟩ := hfirst.ends
    cases hstatus
  · obtain ⟨i, hi, -⟩ := (h ⟨false, 0, fun _ => ⟨[], -1⟩⟩).answered 0 _ rfl rfl
    exact absurd hi (Nat.not_lt_zero i)

end WifiReplies
