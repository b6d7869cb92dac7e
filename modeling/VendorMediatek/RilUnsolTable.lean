import Mathlib.Algebra.Order.Ring.Int
import Mathlib.Data.List.Basic
import Mathlib.Tactic.Ring

/-!
# The table of the unsolicited responses

s_unsolResponses of ril.cpp, which ril_unsol_commands.h and mtk_ril_unsol_commands.h make up, the
self-check of RIL_register over it, and the lookup of send_unsolResponse. An int is an Int32: a
subtraction that overflows is undefined in C and wraps here, as the compiled code does.
-/

namespace RilUnsolTable

/-- The response functions of the table, all in the namespace radio. -/
inductive Indication where
  | radioStateChangedInd | callStateChangedInd | networkStateChangedInd | newSmsInd
  | newSmsStatusReportInd | newSmsOnSimInd | onUssdInd | nitzTimeReceivedInd
  | currentSignalStrengthInd | dataCallListChangedInd | suppSvcNotifyInd | stkSessionEndInd
  | stkProactiveCommandInd | stkEventNotifyInd | stkCallSetupInd | simSmsStorageFullInd
  | simRefreshInd | callRingInd | simStatusChangedInd | cdmaNewSmsInd | newBroadcastSmsInd
  | cdmaRuimSmsStorageFullInd | restrictedStateChangedInd | enterEmergencyCallbackModeInd
  | cdmaCallWaitingInd | cdmaOtaProvisionStatusInd | cdmaInfoRecInd | oemHookRawInd
  | indicateRingbackToneInd | resendIncallMuteInd | cdmaSubscriptionSourceChangedInd
  | cdmaPrlChangedInd | exitEmergencyCallbackModeInd | rilConnectedInd | voiceRadioTechChangedInd
  | cellInfoListInd | imsNetworkStateChangedInd | subscriptionStatusChangedInd
  | srvccStateNotifyInd | hardwareConfigChangedInd | radioCapabilityIndicationInd
  | onSupplementaryServiceIndicationInd | stkCallControlAlphaNotifyInd | lceDataInd | pcoDataInd
  | modemResetInd | psNetworkStateChangedInd | registrationSuspendInd | incomingCallInd
  | callInfoInd | setAttachApnInd
  deriving DecidableEq, Repr

inductive WakeType where
  | dontWake | wakePartial
  deriving DecidableEq, Repr

structure UnsolResponseInfo where
  requestNumber : Int32
  responseFunction : Option Indication
  wakeType : WakeType
  deriving DecidableEq, Repr

def rilUnsolResponseBase : Int32 := 1000
def rilUnsolVendorBase : Int32 := 3000

/-- ril_unsol_commands.h, with the numbers that ril.h gives the codes. -/
def rilUnsolCommands : List UnsolResponseInfo := [
  ⟨1000, some .radioStateChangedInd, .wakePartial⟩,
  ⟨1001, some .callStateChangedInd, .wakePartial⟩,
  ⟨1002, some .networkStateChangedInd, .wakePartial⟩, ⟨1003, some .newSmsInd, .wakePartial⟩,
  ⟨1004, some .newSmsStatusReportInd, .wakePartial⟩, ⟨1005, some .newSmsOnSimInd, .wakePartial⟩,
  ⟨1006, some .onUssdInd, .wakePartial⟩, ⟨1007, some .onUssdInd, .dontWake⟩,
  ⟨1008, some .nitzTimeReceivedInd, .wakePartial⟩,
  ⟨1009, some .currentSignalStrengthInd, .dontWake⟩,
  ⟨1010, some .dataCallListChangedInd, .wakePartial⟩,
  ⟨1011, some .suppSvcNotifyInd, .wakePartial⟩, ⟨1012, some .stkSessionEndInd, .wakePartial⟩,
  ⟨1013, some .stkProactiveCommandInd, .wakePartial⟩,
  ⟨1014, some .stkEventNotifyInd, .wakePartial⟩, ⟨1015, some .stkCallSetupInd, .wakePartial⟩,
  ⟨1016, some .simSmsStorageFullInd, .wakePartial⟩, ⟨1017, some .simRefreshInd, .wakePartial⟩,
  ⟨1018, some .callRingInd, .wakePartial⟩, ⟨1019, some .simStatusChangedInd, .wakePartial⟩,
  ⟨1020, some .cdmaNewSmsInd, .wakePartial⟩, ⟨1021, some .newBroadcastSmsInd, .wakePartial⟩,
  ⟨1022, some .cdmaRuimSmsStorageFullInd, .wakePartial⟩,
  ⟨1023, some .restrictedStateChangedInd, .wakePartial⟩,
  ⟨1024, some .enterEmergencyCallbackModeInd, .wakePartial⟩,
  ⟨1025, some .cdmaCallWaitingInd, .wakePartial⟩,
  ⟨1026, some .cdmaOtaProvisionStatusInd, .wakePartial⟩,
  ⟨1027, some .cdmaInfoRecInd, .wakePartial⟩, ⟨1028, some .oemHookRawInd, .wakePartial⟩,
  ⟨1029, some .indicateRingbackToneInd, .wakePartial⟩,
  ⟨1030, some .resendIncallMuteInd, .wakePartial⟩,
  ⟨1031, some .cdmaSubscriptionSourceChangedInd, .wakePartial⟩,
  ⟨1032, some .cdmaPrlChangedInd, .wakePartial⟩,
  ⟨1033, some .exitEmergencyCallbackModeInd, .wakePartial⟩,
  ⟨1034, some .rilConnectedInd, .wakePartial⟩,
  ⟨1035, some .voiceRadioTechChangedInd, .wakePartial⟩,
  ⟨1036, some .cellInfoListInd, .wakePartial⟩,
  ⟨1037, some .imsNetworkStateChangedInd, .wakePartial⟩,
  ⟨1038, some .subscriptionStatusChangedInd, .wakePartial⟩,
  ⟨1039, some .srvccStateNotifyInd, .wakePartial⟩,
  ⟨1040, some .hardwareConfigChangedInd, .wakePartial⟩, ⟨1041, none, .wakePartial⟩,
  ⟨1042, some .radioCapabilityIndicationInd, .wakePartial⟩,
  ⟨1043, some .onSupplementaryServiceIndicationInd, .wakePartial⟩,
  ⟨1044, some .stkCallControlAlphaNotifyInd, .wakePartial⟩,
  ⟨1045, some .lceDataInd, .wakePartial⟩, ⟨1046, some .pcoDataInd, .wakePartial⟩,
  ⟨1047, some .modemResetInd, .wakePartial⟩]

/-- mtk_ril_unsol_commands.h, with the numbers of mtk_ril.h. -/
def mtkRilUnsolCommands : List UnsolResponseInfo := [
  ⟨3000, none, .wakePartial⟩, ⟨3001, none, .wakePartial⟩, ⟨3002, none, .wakePartial⟩,
  ⟨3003, none, .wakePartial⟩, ⟨3004, none, .wakePartial⟩, ⟨3005, none, .wakePartial⟩,
  ⟨3006, none, .wakePartial⟩, ⟨3007, none, .wakePartial⟩, ⟨3008, none, .wakePartial⟩,
  ⟨3009, none, .wakePartial⟩, ⟨3010, none, .wakePartial⟩, ⟨3011, none, .wakePartial⟩,
  ⟨3012, none, .wakePartial⟩, ⟨3013, none, .wakePartial⟩, ⟨3014, none, .wakePartial⟩,
  ⟨3015, some .psNetworkStateChangedInd, .wakePartial⟩, ⟨3016, none, .wakePartial⟩,
  ⟨3017, none, .wakePartial⟩, ⟨3018, none, .wakePartial⟩, ⟨3019, none, .wakePartial⟩,
  ⟨3020, none, .wakePartial⟩, ⟨3021, none, .wakePartial⟩, ⟨3022, none, .wakePartial⟩,
  ⟨3023, none, .wakePartial⟩, ⟨3024, some .registrationSuspendInd, .wakePartial⟩,
  ⟨3025, none, .wakePartial⟩, ⟨3026, none, .wakePartial⟩, ⟨3027, none, .wakePartial⟩,
  ⟨3028, none, .wakePartial⟩, ⟨3029, none, .wakePartial⟩, ⟨3030, none, .wakePartial⟩,
  ⟨3031, none, .wakePartial⟩, ⟨3032, none, .wakePartial⟩, ⟨3033, none, .wakePartial⟩,
  ⟨3034, none, .wakePartial⟩, ⟨3035, none, .wakePartial⟩, ⟨3036, none, .wakePartial⟩,
  ⟨3037, none, .wakePartial⟩, ⟨3038, none, .wakePartial⟩, ⟨3039, none, .wakePartial⟩,
  ⟨3040, none, .wakePartial⟩, ⟨3041, none, .wakePartial⟩,
  ⟨3042, some .incomingCallInd, .wakePartial⟩, ⟨3043, none, .wakePartial⟩,
  ⟨3044, none, .wakePartial⟩, ⟨3045, none, .wakePartial⟩, ⟨3046, none, .wakePartial⟩,
  ⟨3047, none, .wakePartial⟩, ⟨3048, none, .wakePartial⟩, ⟨3049, some .callInfoInd, .wakePartial⟩,
  ⟨3050, none, .wakePartial⟩, ⟨3051, none, .wakePartial⟩, ⟨3052, none, .wakePartial⟩,
  ⟨3053, none, .wakePartial⟩, ⟨3054, none, .wakePartial⟩, ⟨3055, none, .wakePartial⟩,
  ⟨3056, none, .wakePartial⟩, ⟨3057, none, .wakePartial⟩, ⟨3058, none, .wakePartial⟩,
  ⟨3059, none, .wakePartial⟩, ⟨3060, none, .wakePartial⟩, ⟨3061, none, .wakePartial⟩,
  ⟨3062, none, .wakePartial⟩, ⟨3063, none, .wakePartial⟩, ⟨3064, none, .wakePartial⟩,
  ⟨3065, none, .wakePartial⟩, ⟨3066, none, .wakePartial⟩, ⟨3067, none, .wakePartial⟩,
  ⟨3068, none, .wakePartial⟩, ⟨3069, none, .wakePartial⟩, ⟨3070, none, .wakePartial⟩,
  ⟨3071, none, .wakePartial⟩, ⟨3072, none, .wakePartial⟩,
  ⟨3073, some .setAttachApnInd, .wakePartial⟩, ⟨3074, none, .wakePartial⟩,
  ⟨3075, none, .wakePartial⟩, ⟨3076, none, .wakePartial⟩, ⟨3077, none, .wakePartial⟩,
  ⟨3078, none, .wakePartial⟩, ⟨3079, none, .wakePartial⟩, ⟨3080, none, .wakePartial⟩]

def sUnsolResponses : List UnsolResponseInfo := rilUnsolCommands ++ mtkRilUnsolCommands

/-! ## The self-check of RIL_register -/

/-- The loop over the table from row i on. It gives mtk_unsol_start, or none where an assertion
fails. -/
def selfCheck (i mtkUnsolStart : ℕ) : List UnsolResponseInfo → Option ℕ
  | [] => some mtkUnsolStart
  | row :: rows =>
    let r := row.requestNumber
    if r < rilUnsolVendorBase then
      if i + rilUnsolResponseBase.toInt = r.toInt then selfCheck (i + 1) mtkUnsolStart rows
      else none
    else
      let mtkUnsolStart := if mtkUnsolStart = 0 then i else mtkUnsolStart
      if i + rilUnsolVendorBase.toInt - mtkUnsolStart = r.toInt then
        selfCheck (i + 1) mtkUnsolStart rows
      else none

/-! ## The lookup of send_unsolResponse -/

inductive ResponseType where
  | unsolicited | unsolicitedAckExp
  deriving DecidableEq, Repr

/-- What becomes of a code: it is rejected, the code reads outside the table, or a row is taken. -/
inductive Outcome where
  | unsupported
  | outside
  | respond (row : UnsolResponseInfo) (responseType : ResponseType)
  deriving DecidableEq, Repr

def unsolResponseIndex (mtkUnsolStart : ℕ) (unsolResponse : Int32) : Int32 :=
  if unsolResponse < rilUnsolVendorBase then unsolResponse - rilUnsolResponseBase
  else unsolResponse - rilUnsolVendorBase + Int32.ofNat mtkUnsolStart

def sendUnsolResponse (table : List UnsolResponseInfo) (mtkUnsolStart version : ℕ)
    (unsolResponse : Int32) : Outcome :=
  let index := unsolResponseIndex mtkUnsolStart unsolResponse
  if index < 0 then .unsupported
  else if unsolResponse > rilUnsolVendorBase + 80 then .unsupported
  else match table[index.toInt.toNat]? with
    | none => .outside
    | some row =>
      .respond row (if 13 ≤ version ∧ row.wakeType = .wakePartial then .unsolicitedAckExp
        else .unsolicited)

/-- The code is rejected, or a row is taken and it is the row of the code. -/
def Outcome.Selects (unsolResponse : Int32) : Outcome → Prop
  | .unsupported => True
  | .outside => False
  | .respond row _ => row.requestNumber = unsolResponse

/-! ## What a table that passes has where -/

/-- Row k has the number base + k. -/
def NumberedFrom (base : ℤ) (rows : List UnsolResponseInfo) : Prop :=
  ∀ (k : ℕ) row, rows[k]? = some row → row.requestNumber.toInt = base + k

theorem numberedFrom_cons {base : ℤ} {row : UnsolResponseInfo} {rows : List UnsolResponseInfo}
    (hr : row.requestNumber.toInt = base) (hs : NumberedFrom (base + 1) rows) :
    NumberedFrom base (row :: rows) := by
  intro k found hk
  cases k with
  | zero =>
    obtain rfl : row = found := by simpa using hk
    simpa using hr
  | succ k =>
    have hk := hs k found (by simpa using hk)
    push_cast
    omega

theorem selfCheck_append (i start : ℕ) (rows more : List UnsolResponseInfo) :
    selfCheck i start (rows ++ more) =
      (selfCheck i start rows).bind fun start => selfCheck (i + rows.length) start more := by
  induction rows generalizing i start with
  | nil => rfl
  | cons row rows ih =>
    have hi : i + (row :: rows).length = i + 1 + rows.length := by
      rw [List.length_cons]
      omega
    simp only [List.cons_append, selfCheck, ih, hi]
    split_ifs <;> rfl

theorem selfCheck_standard {i start s : ℕ} {rows : List UnsolResponseInfo}
    (h : selfCheck i start rows = some s)
    (hr : ∀ row ∈ rows, row.requestNumber < rilUnsolVendorBase) :
    s = start ∧ NumberedFrom (1000 + i) rows := by
  induction rows generalizing i with
  | nil => exact ⟨(Option.some_inj.mp h).symm, fun k row hk => by simp at hk⟩
  | cons row rows ih =>
    obtain ⟨hrow, hrows⟩ := List.forall_mem_cons.mp hr
    rw [selfCheck, if_pos hrow] at h
    split_ifs at h with hi
    obtain ⟨hs, hn⟩ := ih h hrows
    have hb : rilUnsolResponseBase.toInt = 1000 := rfl
    refine ⟨hs, numberedFrom_cons (by omega) ?_⟩
    push_cast at hn
    rwa [add_assoc]

theorem selfCheck_vendor {i start s : ℕ} {rows : List UnsolResponseInfo}
    (h : selfCheck i start rows = some s) (h0 : start ≠ 0)
    (hr : ∀ row ∈ rows, ¬ row.requestNumber < rilUnsolVendorBase) :
    s = start ∧ NumberedFrom (3000 + i - start) rows := by
  induction rows generalizing i with
  | nil => exact ⟨(Option.some_inj.mp h).symm, fun k row hk => by simp at hk⟩
  | cons row rows ih =>
    obtain ⟨hrow, hrows⟩ := List.forall_mem_cons.mp hr
    rw [selfCheck, if_neg hrow] at h
    simp only [if_neg h0] at h
    split_ifs at h with hi
    obtain ⟨hs, hn⟩ := ih h hrows
    have hb : rilUnsolVendorBase.toInt = 3000 := rfl
    refine ⟨hs, numberedFrom_cons (by omega) ?_⟩
    have he : (3000 : ℤ) + i - start + 1 = 3000 + ((i + 1 : ℕ) : ℤ) - start := by
      push_cast
      omega
    rwa [he]

/-- The first vendor row sets mtk_unsol_start, unless it is the first row of the table. -/
theorem selfCheck_first {i : ℕ} {rows : List UnsolResponseInfo} (hne : rows ≠ [])
    (hr : ∀ row ∈ rows, ¬ row.requestNumber < rilUnsolVendorBase) :
    selfCheck i 0 rows = selfCheck i i rows := by
  obtain ⟨row, rows, rfl⟩ := List.exists_cons_of_ne_nil hne
  have hrow := hr row (List.mem_cons_self ..)
  rw [selfCheck, selfCheck, if_neg hrow, if_neg hrow]
  have hi : (if i = 0 then i else i) = i := ite_self i
  simp only [if_true, hi]

/-- A table of standard rows and then vendor rows. -/
structure Passes (standard vendor : List UnsolResponseInfo) (start : ℕ) : Prop where
  standard_ne : standard ≠ []
  vendor_ne : vendor ≠ []
  standard_lt : ∀ row ∈ standard, row.requestNumber < rilUnsolVendorBase
  vendor_ge : ∀ row ∈ vendor, ¬ row.requestNumber < rilUnsolVendorBase
  passes : selfCheck 0 0 (standard ++ vendor) = some start

theorem Passes.numbered {standard vendor : List UnsolResponseInfo} {start : ℕ}
    (h : Passes standard vendor start) :
    start = standard.length ∧ NumberedFrom 1000 standard ∧ NumberedFrom 3000 vendor := by
  have hp := h.passes
  rw [selfCheck_append] at hp
  obtain ⟨first, hf, hv⟩ := Option.bind_eq_some_iff.mp hp
  obtain ⟨rfl, hs⟩ := selfCheck_standard hf h.standard_lt
  have hl : standard.length ≠ 0 := fun h0 => h.standard_ne (List.length_eq_zero_iff.mp h0)
  rw [zero_add, selfCheck_first h.vendor_ne h.vendor_ge] at hv
  obtain ⟨rfl, hn⟩ := selfCheck_vendor hv hl h.vendor_ge
  refine ⟨rfl, by simpa using hs, ?_⟩
  rwa [add_sub_cancel_right] at hn

theorem toInt_unsolResponseIndex_standard {start : ℕ} {code : Int32} (h : code.toInt < 3000) :
    (unsolResponseIndex start code).toInt =
      if -2147482648 ≤ code.toInt then code.toInt - 1000 else code.toInt - 1000 + 4294967296 := by
  have hlt : code < rilUnsolVendorBase := Int32.lt_iff_toInt_lt.mpr h
  have hb : rilUnsolResponseBase.toInt = 1000 := rfl
  have hmin := code.minValue_le_toInt
  rw [unsolResponseIndex, if_pos hlt, Int32.toInt_sub, hb]
  split_ifs with hc <;> grind [Int.bmod]

theorem toInt_unsolResponseIndex_vendor {start : ℕ} {code : Int32} (hs : start ≤ 2000)
    (h : 3000 ≤ code.toInt) :
    (unsolResponseIndex start code).toInt = code.toInt - 3000 + start := by
  have hlt : ¬ code < rilUnsolVendorBase := fun hc =>
    absurd (Int32.lt_iff_toInt_lt.mp hc) (not_lt.mpr h)
  have hb : rilUnsolVendorBase.toInt = 3000 := rfl
  have hmax := code.toInt_lt
  have hstart : (Int32.ofNat start).toInt = start := Int32.toInt_ofNat_of_lt (by omega)
  rw [unsolResponseIndex, if_neg hlt, Int32.toInt_add, Int32.toInt_sub, hb, hstart]
  grind [Int.bmod]

/-! ## Which codes are served right -/

/-- The rejections and the row of a code, by the value of the index. -/
theorem selects_sendUnsolResponse {table : List UnsolResponseInfo} {start version : ℕ}
    {code : Int32} {index : ℤ} (hi : (unsolResponseIndex start code).toInt = index) :
    (sendUnsolResponse table start version code).Selects code ↔
      index < 0 ∨ 3080 < code.toInt ∨
        ∃ row, table[index.toNat]? = some row ∧ row.requestNumber = code := by
  have h0 : unsolResponseIndex start code < 0 ↔ index < 0 := by
    rw [Int32.lt_iff_toInt_lt, hi]
    rfl
  have h80 : code > rilUnsolVendorBase + 80 ↔ 3080 < code.toInt := Int32.lt_iff_toInt_lt
  simp only [sendUnsolResponse, h0, h80, hi]
  split_ifs with hneg hbeyond
  · simp [Outcome.Selects, hneg]
  · simp [Outcome.Selects, hbeyond]
  · cases table[index.toNat]? with
    | none => simp [Outcome.Selects, hneg, hbeyond]
    | some row => simp [Outcome.Selects, hneg, hbeyond]

theorem NumberedFrom.row_iff {base : ℤ} {rows : List UnsolResponseInfo}
    (h : NumberedFrom base rows) {k : ℕ} {code : Int32} :
    (∃ row, rows[k]? = some row ∧ row.requestNumber = code) ↔
      k < rows.length ∧ code.toInt = base + k := by
  constructor
  · rintro ⟨row, hk, rfl⟩
    exact ⟨(List.getElem?_eq_some_iff.mp hk).1, h k row hk⟩
  · rintro ⟨hk, hc⟩
    have hrow := List.getElem?_eq_getElem hk
    exact ⟨rows[k], hrow, Int32.toInt_inj.mp ((h k _ hrow).trans hc.symm)⟩

theorem Passes.row_iff {standard vendor : List UnsolResponseInfo} {start n : ℕ} {code : Int32}
    (h : Passes standard vendor start) :
    (∃ row, (standard ++ vendor)[n]? = some row ∧ row.requestNumber = code) ↔
      n < standard.length ∧ code.toInt = 1000 + n ∨
        standard.length ≤ n ∧ n < standard.length + vendor.length ∧
          code.toInt = 3000 + n - standard.length := by
  obtain ⟨-, hstandard, hvendor⟩ := h.numbered
  rcases lt_or_ge n standard.length with hn | hn
  · rw [List.getElem?_append_left hn, hstandard.row_iff]
    omega
  · rw [List.getElem?_append_right hn, hvendor.row_iff]
    omega

/-- A table that passes serves its own standard codes, and rejects what is below and above. A code
between its last standard one and the vendor base takes the row of another code or none. -/
theorem Passes.selects_iff {standard vendor : List UnsolResponseInfo} {start version : ℕ}
    (h : Passes standard vendor start) (hs : standard.length ≤ 2000) (hv : vendor.length = 81)
    (code : Int32) :
    (sendUnsolResponse (standard ++ vendor) start version code).Selects code ↔
      -2147482648 ≤ code.toInt ∧ code.toInt < 1000 + standard.length ∨ 3000 ≤ code.toInt := by
  obtain ⟨rfl, -, -⟩ := h.numbered
  by_cases hc : code.toInt < 3000
  · rw [selects_sendUnsolResponse (toInt_unsolResponseIndex_standard hc), h.row_iff]
    have hmin := code.le_toInt
    split_ifs with hw
    · omega
    · -- the subtraction wraps, to an index that no table reaches
      omega
  · rw [selects_sendUnsolResponse (toInt_unsolResponseIndex_vendor hs (not_lt.mp hc)), h.row_iff]
    omega

/-! ## The table of the code -/

theorem standard_requestNumber :
    ∀ row ∈ rilUnsolCommands, row.requestNumber < rilUnsolVendorBase := by decide +kernel

theorem vendor_requestNumber :
    ∀ row ∈ mtkRilUnsolCommands, ¬ row.requestNumber < rilUnsolVendorBase := by decide +kernel

/-- RIL_register finds the table in order, and sets mtk_unsol_start to the count of the standard
rows. -/
theorem passes_sUnsolResponses : Passes rilUnsolCommands mtkRilUnsolCommands 48 where
  standard_ne := List.cons_ne_nil _ _
  vendor_ne := List.cons_ne_nil _ _
  standard_lt := standard_requestNumber
  vendor_ge := vendor_requestNumber
  passes := by decide +kernel

/-- A code is rejected or served by its own row, except between the last standard code and the
vendor base, and where the subtraction of the standard base overflows. -/
theorem sendUnsolResponse_selects_iff (version : ℕ) (code : Int32) :
    ∃ mtkUnsolStart, selfCheck 0 0 sUnsolResponses = some mtkUnsolStart ∧
      ((sendUnsolResponse sUnsolResponses mtkUnsolStart version code).Selects code ↔
        -2147482648 ≤ code.toInt ∧ code.toInt ≤ 1047 ∨ 3000 ≤ code.toInt) := by
  refine ⟨48, passes_sUnsolResponses.passes, ?_⟩
  have hlength : rilUnsolCommands.length = 48 := rfl
  rw [sUnsolResponses, passes_sUnsolResponses.selects_iff (by omega) rfl code]
  omega

/-- The code of the identity certificate's indication, which the table leaves out, is given to the
first vendor row, and 1129 reads behind the table. -/
theorem sendUnsolResponse_gap :
    selfCheck 0 0 sUnsolResponses = some 48 ∧
      sendUnsolResponse sUnsolResponses 48 13 1048 =
        .respond ⟨3000, none, .wakePartial⟩ .unsolicitedAckExp ∧
      sendUnsolResponse sUnsolResponses 48 13 1129 = .outside ∧
      ¬ ∀ code, (sendUnsolResponse sUnsolResponses 48 13 code).Selects code := by
  refine ⟨by decide +kernel, by decide +kernel, by decide +kernel, fun h => ?_⟩
  have houtside : sendUnsolResponse sUnsolResponses 48 13 1129 = .outside := by decide +kernel
  have hselects := h 1129
  rw [houtside] at hselects
  exact hselects

end RilUnsolTable
