import Mathlib.Algebra.Order.Ring.Int
import VendorMediatek.RilChannelQueue

/-!
# The table of the requests

s_commands of ril.cpp, which ril_commands.h makes up alone (mtk_ril_commands.h is commented out),
the self-check of RIL_registerSocket over it, and the entry that addRequestToList takes for a
request code.
-/

namespace RilCommandTable

open RilChannelQueue

/-- The response functions of the table, all in the namespace radio. -/
inductive ResponseFunction where
  | getIccCardStatusResponse | supplyIccPinForAppResponse | supplyIccPukForAppResponse
  | supplyIccPin2ForAppResponse | supplyIccPuk2ForAppResponse | changeIccPinForAppResponse
  | changeIccPin2ForAppResponse | supplyNetworkDepersonalizationResponse
  | getCurrentCallsResponse | dialResponse | getIMSIForAppResponse | hangupConnectionResponse
  | hangupWaitingOrBackgroundResponse | hangupForegroundResumeBackgroundResponse
  | switchWaitingOrHoldingAndActiveResponse | conferenceResponse | rejectCallResponse
  | getLastCallFailCauseResponse | getSignalStrengthResponse | getVoiceRegistrationStateResponse
  | getDataRegistrationStateResponse | getOperatorResponse | setRadioPowerResponse
  | sendDtmfResponse | sendSmsResponse | sendSMSExpectMoreResponse | setupDataCallResponse
  | iccIOForAppResponse | sendUssdResponse | cancelPendingUssdResponse | getClirResponse
  | setClirResponse | getCallForwardStatusResponse | setCallForwardResponse
  | getCallWaitingResponse | setCallWaitingResponse | acknowledgeLastIncomingGsmSmsResponse
  | acceptCallResponse | deactivateDataCallResponse | getFacilityLockForAppResponse
  | setFacilityLockForAppResponse | setBarringPasswordResponse | getNetworkSelectionModeResponse
  | setNetworkSelectionModeAutomaticResponse | setNetworkSelectionModeManualResponse
  | getAvailableNetworksResponse | startDtmfResponse | stopDtmfResponse
  | getBasebandVersionResponse | separateConnectionResponse | setMuteResponse | getMuteResponse
  | getClipResponse | getDataCallListResponse | sendRequestRawResponse
  | sendRequestStringsResponse | sendDeviceStateResponse | setSuppServiceNotificationsResponse
  | writeSmsToSimResponse | deleteSmsOnSimResponse | setBandModeResponse
  | getAvailableBandModesResponse | sendEnvelopeResponse | sendTerminalResponseToSimResponse
  | handleStkCallSetupRequestFromSimResponse | explicitCallTransferResponse
  | setPreferredNetworkTypeResponse | getPreferredNetworkTypeResponse
  | getNeighboringCidsResponse | setLocationUpdatesResponse | setCdmaSubscriptionSourceResponse
  | setCdmaRoamingPreferenceResponse | getCdmaRoamingPreferenceResponse | setTTYModeResponse
  | getTTYModeResponse | setPreferredVoicePrivacyResponse | getPreferredVoicePrivacyResponse
  | sendCDMAFeatureCodeResponse | sendBurstDtmfResponse | sendCdmaSmsResponse
  | acknowledgeLastIncomingCdmaSmsResponse | getGsmBroadcastConfigResponse
  | setGsmBroadcastConfigResponse | setGsmBroadcastActivationResponse
  | getCdmaBroadcastConfigResponse | setCdmaBroadcastConfigResponse
  | setCdmaBroadcastActivationResponse | getCDMASubscriptionResponse | writeSmsToRuimResponse
  | deleteSmsOnRuimResponse | getDeviceIdentityResponse | exitEmergencyCallbackModeResponse
  | getSmscAddressResponse | setSmscAddressResponse | reportSmsMemoryStatusResponse
  | reportStkServiceIsRunningResponse | getCdmaSubscriptionSourceResponse
  | requestIsimAuthenticationResponse | acknowledgeIncomingGsmSmsWithPduResponse
  | sendEnvelopeWithStatusResponse | getVoiceRadioTechnologyResponse | getCellInfoListResponse
  | setCellInfoListRateResponse | setInitialAttachApnResponse | getImsRegistrationStateResponse
  | sendImsSmsResponse | iccTransmitApduBasicChannelResponse | iccOpenLogicalChannelResponse
  | iccCloseLogicalChannelResponse | iccTransmitApduLogicalChannelResponse | nvReadItemResponse
  | nvWriteItemResponse | nvWriteCdmaPrlResponse | nvResetConfigResponse
  | setUiccSubscriptionResponse | setDataAllowedResponse | getHardwareConfigResponse
  | requestIccSimAuthenticationResponse | setDataProfileResponse | requestShutdownResponse
  | getRadioCapabilityResponse | setRadioCapabilityResponse | startLceServiceResponse
  | stopLceServiceResponse | pullLceDataResponse | getModemActivityInfoResponse
  | setAllowedCarriersResponse | getAllowedCarriersResponse | setIndicationFilterResponse
  | setSimCardPowerResponse
  deriving DecidableEq, Repr

structure CommandInfo where
  requestNumber : Int32
  responseFunction : Option ResponseFunction
  proxyId : RILChannelId
  deriving DecidableEq, Repr

def rilRequestVendorBase : Int32 := 2000

/-- ril_commands.h, with the numbers that ril.h gives the codes. -/
def sCommands : List CommandInfo := [
  ⟨0, none, rilCmdProxy3⟩, ⟨1, some .getIccCardStatusResponse, rilCmdProxy1⟩,
  ⟨2, some .supplyIccPinForAppResponse, rilCmdProxy1⟩,
  ⟨3, some .supplyIccPukForAppResponse, rilCmdProxy1⟩,
  ⟨4, some .supplyIccPin2ForAppResponse, rilCmdProxy1⟩,
  ⟨5, some .supplyIccPuk2ForAppResponse, rilCmdProxy1⟩,
  ⟨6, some .changeIccPinForAppResponse, rilCmdProxy1⟩,
  ⟨7, some .changeIccPin2ForAppResponse, rilCmdProxy1⟩,
  ⟨8, some .supplyNetworkDepersonalizationResponse, rilCmdProxy1⟩,
  ⟨9, some .getCurrentCallsResponse, rilCmdProxy2⟩, ⟨10, some .dialResponse, rilCmdProxy2⟩,
  ⟨11, some .getIMSIForAppResponse, rilCmdProxy1⟩,
  ⟨12, some .hangupConnectionResponse, rilCmdProxy4⟩,
  ⟨13, some .hangupWaitingOrBackgroundResponse, rilCmdProxy4⟩,
  ⟨14, some .hangupForegroundResumeBackgroundResponse, rilCmdProxy4⟩,
  ⟨15, some .switchWaitingOrHoldingAndActiveResponse, rilCmdProxy4⟩,
  ⟨16, some .conferenceResponse, rilCmdProxy4⟩, ⟨17, some .rejectCallResponse, rilCmdProxy2⟩,
  ⟨18, some .getLastCallFailCauseResponse, rilCmdProxy2⟩,
  ⟨19, some .getSignalStrengthResponse, rilCmdProxy3⟩,
  ⟨20, some .getVoiceRegistrationStateResponse, rilCmdProxy3⟩,
  ⟨21, some .getDataRegistrationStateResponse, rilCmdProxy3⟩,
  ⟨22, some .getOperatorResponse, rilCmdProxy3⟩, ⟨23, some .setRadioPowerResponse, rilCmdProxy1⟩,
  ⟨24, some .sendDtmfResponse, rilCmdProxy2⟩, ⟨25, some .sendSmsResponse, rilCmdProxy1⟩,
  ⟨26, some .sendSMSExpectMoreResponse, rilCmdProxy1⟩,
  ⟨27, some .setupDataCallResponse, rilCmdProxy5⟩, ⟨28, some .iccIOForAppResponse, rilCmdProxy1⟩,
  ⟨29, some .sendUssdResponse, rilCmdProxy2⟩,
  ⟨30, some .cancelPendingUssdResponse, rilCmdProxy2⟩, ⟨31, some .getClirResponse, rilCmdProxy2⟩,
  ⟨32, some .setClirResponse, rilCmdProxy2⟩,
  ⟨33, some .getCallForwardStatusResponse, rilCmdProxy1⟩,
  ⟨34, some .setCallForwardResponse, rilCmdProxy2⟩,
  ⟨35, some .getCallWaitingResponse, rilCmdProxy1⟩,
  ⟨36, some .setCallWaitingResponse, rilCmdProxy2⟩,
  ⟨37, some .acknowledgeLastIncomingGsmSmsResponse, rilCmdProxy2⟩, ⟨38, none, rilCmdProxy3⟩,
  ⟨39, none, rilCmdProxy3⟩, ⟨40, some .acceptCallResponse, rilCmdProxy2⟩,
  ⟨41, some .deactivateDataCallResponse, rilCmdProxy5⟩,
  ⟨42, some .getFacilityLockForAppResponse, rilCmdProxy1⟩,
  ⟨43, some .setFacilityLockForAppResponse, rilCmdProxy1⟩,
  ⟨44, some .setBarringPasswordResponse, rilCmdProxy2⟩,
  ⟨45, some .getNetworkSelectionModeResponse, rilCmdProxy3⟩,
  ⟨46, some .setNetworkSelectionModeAutomaticResponse, rilCmdProxy3⟩,
  ⟨47, some .setNetworkSelectionModeManualResponse, rilCmdProxy3⟩,
  ⟨48, some .getAvailableNetworksResponse, rilCmdProxy3⟩,
  ⟨49, some .startDtmfResponse, rilCmdProxy2⟩, ⟨50, some .stopDtmfResponse, rilCmdProxy2⟩,
  ⟨51, some .getBasebandVersionResponse, rilCmdProxy3⟩,
  ⟨52, some .separateConnectionResponse, rilCmdProxy4⟩,
  ⟨53, some .setMuteResponse, rilCmdProxy2⟩, ⟨54, some .getMuteResponse, rilCmdProxy2⟩,
  ⟨55, some .getClipResponse, rilCmdProxy2⟩, ⟨56, none, rilCmdProxy5⟩,
  ⟨57, some .getDataCallListResponse, rilCmdProxy5⟩, ⟨58, none, rilCmdProxy1⟩,
  ⟨59, some .sendRequestRawResponse, rilCmdProxy6⟩,
  ⟨60, some .sendRequestStringsResponse, rilCmdProxy3⟩,
  ⟨61, some .sendDeviceStateResponse, rilCmdProxy3⟩,
  ⟨62, some .setSuppServiceNotificationsResponse, rilCmdProxy2⟩,
  ⟨63, some .writeSmsToSimResponse, rilCmdProxy1⟩,
  ⟨64, some .deleteSmsOnSimResponse, rilCmdProxy1⟩,
  ⟨65, some .setBandModeResponse, rilCmdProxy3⟩,
  ⟨66, some .getAvailableBandModesResponse, rilCmdProxy3⟩, ⟨67, none, rilCmdProxy1⟩,
  ⟨68, none, rilCmdProxy1⟩, ⟨69, some .sendEnvelopeResponse, rilCmdProxy1⟩,
  ⟨70, some .sendTerminalResponseToSimResponse, rilCmdProxy1⟩,
  ⟨71, some .handleStkCallSetupRequestFromSimResponse, rilCmdProxy1⟩,
  ⟨72, some .explicitCallTransferResponse, rilCmdProxy2⟩,
  ⟨73, some .setPreferredNetworkTypeResponse, rilCmdProxy1⟩,
  ⟨74, some .getPreferredNetworkTypeResponse, rilCmdProxy1⟩,
  ⟨75, some .getNeighboringCidsResponse, rilCmdProxy4⟩,
  ⟨76, some .setLocationUpdatesResponse, rilCmdProxy3⟩,
  ⟨77, some .setCdmaSubscriptionSourceResponse, rilCmdProxy3⟩,
  ⟨78, some .setCdmaRoamingPreferenceResponse, rilCmdProxy3⟩,
  ⟨79, some .getCdmaRoamingPreferenceResponse, rilCmdProxy3⟩,
  ⟨80, some .setTTYModeResponse, rilCmdProxy3⟩, ⟨81, some .getTTYModeResponse, rilCmdProxy3⟩,
  ⟨82, some .setPreferredVoicePrivacyResponse, rilCmdProxy2⟩,
  ⟨83, some .getPreferredVoicePrivacyResponse, rilCmdProxy2⟩,
  ⟨84, some .sendCDMAFeatureCodeResponse, rilCmdProxy2⟩,
  ⟨85, some .sendBurstDtmfResponse, rilCmdProxy2⟩, ⟨86, none, rilCmdProxy2⟩,
  ⟨87, some .sendCdmaSmsResponse, rilCmdProxy1⟩,
  ⟨88, some .acknowledgeLastIncomingCdmaSmsResponse, rilCmdProxy1⟩,
  ⟨89, some .getGsmBroadcastConfigResponse, rilCmdProxy2⟩,
  ⟨90, some .setGsmBroadcastConfigResponse, rilCmdProxy1⟩,
  ⟨91, some .setGsmBroadcastActivationResponse, rilCmdProxy1⟩,
  ⟨92, some .getCdmaBroadcastConfigResponse, rilCmdProxy1⟩,
  ⟨93, some .setCdmaBroadcastConfigResponse, rilCmdProxy1⟩,
  ⟨94, some .setCdmaBroadcastActivationResponse, rilCmdProxy1⟩,
  ⟨95, some .getCDMASubscriptionResponse, rilCmdProxy1⟩,
  ⟨96, some .writeSmsToRuimResponse, rilCmdProxy1⟩,
  ⟨97, some .deleteSmsOnRuimResponse, rilCmdProxy1⟩,
  ⟨98, some .getDeviceIdentityResponse, rilCmdProxy3⟩,
  ⟨99, some .exitEmergencyCallbackModeResponse, rilCmdProxy2⟩,
  ⟨100, some .getSmscAddressResponse, rilCmdProxy2⟩,
  ⟨101, some .setSmscAddressResponse, rilCmdProxy2⟩,
  ⟨102, some .reportSmsMemoryStatusResponse, rilCmdProxy1⟩,
  ⟨103, some .reportStkServiceIsRunningResponse, rilCmdProxy1⟩,
  ⟨104, some .getCdmaSubscriptionSourceResponse, rilCmdProxy1⟩,
  ⟨105, some .requestIsimAuthenticationResponse, rilCmdProxy1⟩,
  ⟨106, some .acknowledgeIncomingGsmSmsWithPduResponse, rilCmdProxy1⟩,
  ⟨107, some .sendEnvelopeWithStatusResponse, rilCmdProxy2⟩,
  ⟨108, some .getVoiceRadioTechnologyResponse, rilCmdProxy3⟩,
  ⟨109, some .getCellInfoListResponse, rilCmdProxy2⟩,
  ⟨110, some .setCellInfoListRateResponse, rilCmdProxy3⟩,
  ⟨111, some .setInitialAttachApnResponse, rilCmdProxy1⟩,
  ⟨112, some .getImsRegistrationStateResponse, rilCmdProxy3⟩,
  ⟨113, some .sendImsSmsResponse, rilCmdProxy1⟩,
  ⟨114, some .iccTransmitApduBasicChannelResponse, rilCmdProxy1⟩,
  ⟨115, some .iccOpenLogicalChannelResponse, rilCmdProxy1⟩,
  ⟨116, some .iccCloseLogicalChannelResponse, rilCmdProxy1⟩,
  ⟨117, some .iccTransmitApduLogicalChannelResponse, rilCmdProxy1⟩,
  ⟨118, some .nvReadItemResponse, rilCmdProxy4⟩, ⟨119, some .nvWriteItemResponse, rilCmdProxy4⟩,
  ⟨120, some .nvWriteCdmaPrlResponse, rilCmdProxy4⟩,
  ⟨121, some .nvResetConfigResponse, rilCmdProxy4⟩,
  ⟨122, some .setUiccSubscriptionResponse, rilCmdProxy1⟩,
  ⟨123, some .setDataAllowedResponse, rilCmdProxy5⟩,
  ⟨124, some .getHardwareConfigResponse, rilCmdProxy1⟩,
  ⟨125, some .requestIccSimAuthenticationResponse, rilCmdProxy3⟩, ⟨126, none, rilCmdProxy1⟩,
  ⟨127, none, rilCmdProxy1⟩, ⟨128, some .setDataProfileResponse, rilCmdProxy1⟩,
  ⟨129, some .requestShutdownResponse, rilCmdProxy1⟩,
  ⟨130, some .getRadioCapabilityResponse, rilCmdProxy1⟩,
  ⟨131, some .setRadioCapabilityResponse, rilCmdProxy1⟩,
  ⟨132, some .startLceServiceResponse, rilCmdProxy5⟩,
  ⟨133, some .stopLceServiceResponse, rilCmdProxy5⟩,
  ⟨134, some .pullLceDataResponse, rilCmdProxy5⟩,
  ⟨135, some .getModemActivityInfoResponse, rilCmdProxy1⟩,
  ⟨136, some .setAllowedCarriersResponse, rilCmdProxy4⟩,
  ⟨137, some .getAllowedCarriersResponse, rilCmdProxy4⟩,
  ⟨138, some .sendDeviceStateResponse, rilCmdProxy3⟩,
  ⟨139, some .setIndicationFilterResponse, rilCmdProxy3⟩,
  ⟨140, some .setSimCardPowerResponse, rilCmdProxy1⟩]

/-- The codes that the functions of ril_service.cpp dispatch. -/
def dispatchedRequests : List Int32 := [
  1, 2, 3, 4, 5, 6, 7, 8, 9, 10, 11, 12, 13, 14, 15, 16, 17, 18, 19, 20, 21, 22, 23, 24, 25, 26,
  27, 28, 29, 30, 31, 32, 33, 34, 35, 36, 37, 38, 39, 40, 41, 42, 43, 44, 45, 46, 47, 48, 49, 50,
  51, 52, 53, 54, 55, 57, 59, 60, 61, 62, 63, 64, 65, 66, 69, 70, 71, 72, 73, 74, 75, 76, 77, 78,
  79, 80, 81, 82, 83, 84, 85, 87, 88, 89, 90, 91, 92, 93, 94, 95, 96, 97, 98, 99, 100, 101, 102,
  103, 104, 105, 106, 107, 108, 109, 110, 111, 112, 113, 114, 115, 116, 117, 118, 119, 120, 121,
  122, 123, 124, 125, 128, 129, 130, 131, 132, 133, 134, 135, 136, 137, 138, 139, 143, 2010,
  2028, 2065, 2086]

/-! ## The self-check of RIL_registerSocket -/

/-- The loop over the table from row i on. It gives mtk_command_start, or none where an assertion
fails. -/
def selfCheck (i mtkCommandStart : ℕ) : List CommandInfo → Option ℕ
  | [] => some mtkCommandStart
  | row :: rows =>
    let r := row.requestNumber
    if r < rilRequestVendorBase then
      if (i : ℤ) = r.toInt then selfCheck (i + 1) mtkCommandStart rows else none
    else
      let mtkCommandStart := if mtkCommandStart = 0 then i else mtkCommandStart
      if i + rilRequestVendorBase.toInt - mtkCommandStart = r.toInt then
        selfCheck (i + 1) mtkCommandStart rows
      else none

/-! ## addRequestToList -/

structure RequestInfo where
  token : Int32
  isLocal : Bool
  pCI : CommandInfo
  socketId : ℕ
  cid : ℕ
  deriving DecidableEq, Repr

/-- What becomes of a call: nothing is added, the code leads outside the table, or a request is
added. -/
inductive Outcome where
  | null
  | outside
  | added (pRI : RequestInfo)
  deriving DecidableEq, Repr

def channelNumber : RILChannelId → ℕ
  | .urc => 0
  | .cmd1 => 1
  | .cmd2 => 2
  | .cmd3 => 3
  | .cmd4 => 4
  | .atci => 5

def RIL_CHANNEL_OFFSET : ℕ := 6

def cidOf (pCI : CommandInfo) (slotId : ℕ) : ℕ :=
  if 0 < slotId then channelNumber pCI.proxyId + RIL_CHANNEL_OFFSET else channelNumber pCI.proxyId

def commandIndex (mtkCommandStart : ℕ) (request : Int32) : Int32 :=
  if request < rilRequestVendorBase then request
  else request - rilRequestVendorBase + Int32.ofNat mtkCommandStart

def addRequestToList (table : List CommandInfo) (mtkCommandStart : ℕ) (allocated : Bool)
    (serial : Int32) (slotId : ℕ) (request : Int32) : Outcome :=
  if allocated = false then .null
  else
    let ret := commandIndex mtkCommandStart request
    if ret < 0 then .outside
    else match table[ret.toInt.toNat]? with
      | none => .outside
      | some pCI => .added ⟨serial, serial = -1, pCI, slotId, cidOf pCI slotId⟩

/-- Nothing is added, or a request with the table's own entry for the code. -/
def Outcome.HasOwnEntry (table : List CommandInfo) (slotId : ℕ) (request : Int32) : Outcome → Prop
  | .null => True
  | .outside => False
  | .added pRI => pRI.pCI ∈ table ∧ pRI.pCI.requestNumber = request ∧ pRI.cid = cidOf pRI.pCI slotId

/-! ## Where a table that passes has its numbers -/

/-- The number of row k of a table, whose first vendor row is start. -/
def NumberAt (start k : ℕ) (row : CommandInfo) : Prop :=
  row.requestNumber.toInt < 2000 ∧ row.requestNumber.toInt = k ∨
    2000 ≤ row.requestNumber.toInt ∧ start ≠ 0 ∧ row.requestNumber.toInt = 2000 + k - start

theorem lt_vendorBase_iff (r : Int32) : r < rilRequestVendorBase ↔ r.toInt < 2000 :=
  Int32.lt_iff_toInt_lt

/-- One row, where an earlier one has set mtk_command_start or the row is not the first. -/
theorem selfCheck_row {i start final : ℕ} {row : CommandInfo} {rows : List CommandInfo}
    (hi : start ≠ 0 ∨ i ≠ 0) (h : selfCheck i start (row :: rows) = some final) :
    ∃ next, selfCheck (i + 1) next rows = some final ∧ (start ≠ 0 → next = start) ∧
      NumberAt next i row := by
  have hb : rilRequestVendorBase.toInt = 2000 := rfl
  rw [selfCheck] at h
  by_cases hlow : row.requestNumber < rilRequestVendorBase
  · rw [if_pos hlow] at h
    split_ifs at h with hr
    exact ⟨start, h, fun _ => rfl, .inl ⟨(lt_vendorBase_iff _).mp hlow, hr.symm⟩⟩
  · rw [if_neg hlow] at h
    simp only at h
    split_ifs at h with hzero hr hr
    · have hvendor := (lt_vendorBase_iff _).not.mp hlow
      exact ⟨i, h, fun hs => absurd hzero hs,
        .inr ⟨not_lt.mp hvendor, hi.resolve_left (not_not_intro hzero), by omega⟩⟩
    · have hvendor := (lt_vendorBase_iff _).not.mp hlow
      exact ⟨start, h, fun _ => rfl, .inr ⟨not_lt.mp hvendor, hzero, by omega⟩⟩

theorem selfCheck_rows {i start final : ℕ} {rows : List CommandInfo} (hi : start ≠ 0 ∨ i ≠ 0)
    (h : selfCheck i start rows = some final) :
    (start ≠ 0 → final = start) ∧
      ∀ (k : ℕ) row, rows[k]? = some row → NumberAt final (i + k) row := by
  induction rows generalizing i start with
  | nil => exact ⟨fun _ => (Option.some_inj.mp h).symm, fun k row hk => by simp at hk⟩
  | cons first rows ih =>
    rcases selfCheck_row hi h with ⟨next, hnext, hkeeps, hnumber⟩
    rcases ih (.inr (Nat.succ_ne_zero i)) hnext with ⟨hfinal, hrows⟩
    refine ⟨fun hs => (hfinal (hkeeps hs ▸ hs)).trans (hkeeps hs), fun k row hk => ?_⟩
    cases k with
    | zero =>
      obtain rfl : first = row := by simpa using hk
      rcases hnumber with hlow | ⟨hvendor, hset, hr⟩
      · exact .inl hlow
      · exact .inr ⟨hvendor, hfinal hset ▸ hset, hfinal hset ▸ hr⟩
    | succ k =>
      have hrow := hrows k row (by simpa using hk)
      rwa [show i + (k + 1) = i + 1 + k by omega]

/-- A table with the row 0 in front. -/
structure Passes (table : List CommandInfo) (start : ℕ) : Prop where
  first : ∃ row rows, table = row :: rows ∧ row.requestNumber = 0
  check : selfCheck 0 0 table = some start
  length : table.length < 2 ^ 31

theorem Passes.numberAt {table : List CommandInfo} {start : ℕ} (h : Passes table start) {k : ℕ}
    {row : CommandInfo} (hk : table[k]? = some row) : NumberAt start k row := by
  rcases h.first with ⟨first, rows, rfl, hzero⟩
  have hcheck : selfCheck 1 0 rows = some start := by
    have hlow : first.requestNumber < rilRequestVendorBase := by
      rw [hzero]
      decide
    have hr : ((0 : ℕ) : ℤ) = first.requestNumber.toInt := by
      rw [hzero]
      rfl
    have hcheck := h.check
    rwa [selfCheck, if_pos hlow, if_pos hr] at hcheck
  cases k with
  | zero =>
    obtain rfl : first = row := by simpa using hk
    refine .inl ?_
    rw [hzero]
    exact ⟨by decide, rfl⟩
  | succ k =>
    have hrow := (selfCheck_rows (.inr Nat.one_ne_zero) hcheck).2 k row (by simpa using hk)
    rwa [Nat.add_comm 1 k] at hrow

/-! ## Which codes get their own entry -/

theorem commandIndex_low {start : ℕ} {request : Int32} (h : request.toInt < 2000) :
    commandIndex start request = request := if_pos ((lt_vendorBase_iff request).mpr h)

theorem toInt_commandIndex_vendor {start : ℕ} {request : Int32} (h : 2000 ≤ request.toInt)
    (hstart : start < 2 ^ 31) (hfits : request.toInt - 2000 + start < 2 ^ 31) :
    (commandIndex start request).toInt = request.toInt - 2000 + start := by
  have hnot : ¬ request < rilRequestVendorBase := fun hlow =>
    absurd ((lt_vendorBase_iff request).mp hlow) (not_lt.mpr h)
  have hb : rilRequestVendorBase.toInt = 2000 := rfl
  have hs : (Int32.ofNat start).toInt = start := Int32.toInt_ofNat_of_lt hstart
  have hmax := request.toInt_lt
  rw [commandIndex, if_neg hnot, Int32.toInt_add, Int32.toInt_sub, hb, hs]
  grind [Int.bmod]

/-- The index of a number that the table has is the row of that number. -/
theorem Passes.toInt_commandIndex {table : List CommandInfo} {start : ℕ} (h : Passes table start)
    {k : ℕ} {row : CommandInfo} (hk : table[k]? = some row) :
    (commandIndex start row.requestNumber).toInt = k := by
  have hlt : k < table.length := (List.getElem?_eq_some_iff.mp hk).1
  have hlength := h.length
  rcases h.numberAt hk with ⟨hlow, hr⟩ | ⟨hvendor, hset, hr⟩
  · rw [commandIndex_low hlow, hr]
  · rw [toInt_commandIndex_vendor hvendor (by omega) (by omega)]
    omega

/-- A request is added with its own entry exactly when the table has one. -/
theorem Passes.hasOwnEntry_iff {table : List CommandInfo} {start : ℕ} (h : Passes table start)
    (allocated : Bool) (serial : Int32) (slotId : ℕ) (request : Int32) :
    (addRequestToList table start allocated serial slotId request).HasOwnEntry table slotId
        request ↔
      allocated = false ∨ request ∈ table.map CommandInfo.requestNumber := by
  cases allocated with
  | false => exact iff_of_true trivial (.inl rfl)
  | true =>
    rw [addRequestToList, if_neg (by decide)]
    constructor
    · intro hown
      simp only at hown
      split_ifs at hown with hneg
      · exact hown.elim
      · rcases hrow : table[(commandIndex start request).toInt.toNat]? with _ | row
        · rw [hrow] at hown
          exact hown.elim
        · rw [hrow] at hown
          exact .inr (List.mem_map.mpr ⟨row, hown.1, hown.2.1⟩)
    · intro hmem
      rcases List.mem_map.mp (hmem.resolve_left (by decide)) with ⟨row, hrow, rfl⟩
      rcases List.getElem?_of_mem hrow with ⟨k, hk⟩
      have hindex := h.toInt_commandIndex hk
      have hnot : ¬ commandIndex start row.requestNumber < 0 := by
        rw [Int32.lt_iff_toInt_lt, hindex]
        exact not_lt.mpr (Int.natCast_nonneg k)
      simp only
      rw [if_neg hnot, hindex, Int.toNat_natCast, hk]
      exact ⟨hrow, rfl, rfl⟩

/-! ## The table of the code -/

/-- RIL_registerSocket finds the table in order; without vendor rows mtk_command_start stays 0. -/
theorem passes_sCommands : Passes sCommands 0 where
  first := ⟨_, _, rfl, rfl⟩
  check := by decide +kernel
  length := by decide +kernel

theorem sCommands_numbers :
    sCommands.map CommandInfo.requestNumber = (List.range 141).map Int32.ofNat := by
  decide +kernel

theorem mem_sCommands_iff (request : Int32) :
    request ∈ sCommands.map CommandInfo.requestNumber ↔
      0 ≤ request.toInt ∧ request.toInt ≤ 140 := by
  rw [sCommands_numbers, List.mem_map]
  constructor
  · rintro ⟨n, hn, rfl⟩
    have hlt := List.mem_range.mp hn
    rw [Int32.toInt_ofNat_of_lt (by omega)]
    omega
  · rintro ⟨hlow, hhigh⟩
    refine ⟨request.toInt.toNat, List.mem_range.mpr (by omega), ?_⟩
    rw [← Int32.toInt_inj, Int32.toInt_ofNat_of_lt (by omega)]
    omega

/-- A call adds a request with its own entry exactly for the 141 codes of the table. -/
theorem addRequestToList_own_entry_iff (allocated : Bool) (serial : Int32) (slotId : ℕ)
    (request : Int32) :
    ∃ mtkCommandStart, selfCheck 0 0 sCommands = some mtkCommandStart ∧
      ((addRequestToList sCommands mtkCommandStart allocated serial slotId request).HasOwnEntry
          sCommands slotId request ↔
        allocated = false ∨ 0 ≤ request.toInt ∧ request.toInt ≤ 140) := by
  refine ⟨0, passes_sCommands.check, ?_⟩
  rw [passes_sCommands.hasOwnEntry_iff, mem_sCommands_iff]

/-- Of the codes that are dispatched, these have no entry: STOP_NETWORK_SCAN, and the vendor codes
of setSimCardPower, registrationSuspendInd and incomingCallInd. -/
theorem dispatched_without_entry :
    dispatchedRequests.filter (fun request =>
      ¬ request ∈ sCommands.map CommandInfo.requestNumber) = [143, 2010, 2028, 2065, 2086] := by
  simp only [mem_sCommands_iff]
  decide +kernel

/-- RIL_REQUEST_RESUME_REGISTRATION gets the entry of RIL_REQUEST_SET_BAND_MODE, and
RIL_REQUEST_STOP_NETWORK_SCAN an address behind the table. -/
theorem resume_registration_gets_other_entry :
    selfCheck 0 0 sCommands = some 0 ∧
      addRequestToList sCommands 0 true (-1) 0 2065 =
        .added ⟨-1, true, ⟨65, some .setBandModeResponse, .cmd1⟩, 0, 1⟩ ∧
      addRequestToList sCommands 0 true 7 0 143 = .outside ∧
      ¬ ∀ request ∈ dispatchedRequests,
        (addRequestToList sCommands 0 true (-1) 0 request).HasOwnEntry sCommands 0 request := by
  have hother : addRequestToList sCommands 0 true (-1) 0 2065 =
      .added ⟨-1, true, ⟨65, some .setBandModeResponse, .cmd1⟩, 0, 1⟩ := by decide +kernel
  refine ⟨passes_sCommands.check, hother, by decide +kernel, fun h => ?_⟩
  have hown := h 2065 (by decide +kernel)
  rw [hother] at hown
  exact absurd hown.2.1 (by decide)

end RilCommandTable
