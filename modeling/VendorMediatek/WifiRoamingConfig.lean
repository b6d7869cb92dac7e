import VendorMediatek.NetlinkMessages
import VendorMediatek.WifiRequests

/-!
# The roaming configuration request

`wifi_configure_roaming` and ConfigRoamingCommand::createRequest in wifi_hal.cpp. The sizes of
ssid_t and of the local buffer are those of wifi_hal.h, which is not part of the repository.
-/

namespace WifiRoamingConfig

open Faults NetlinkMessages
open WifiRequests (wifiErrorInvalidArgs wifiErrorNotSupported wifiErrorOutOfMemory)

def GOOGLE_OUI : UInt32 := 0x001A11
def WIFI_SUBCMD_CONFIG_ROAMING : UInt32 := 0x000a
def NL80211_ATTR_IFINDEX : ℕ := 3
def NL80211_ATTR_VENDOR_ID : ℕ := 195
def NL80211_ATTR_VENDOR_SUBCMD : ℕ := 196
def NL80211_ATTR_VENDOR_DATA : ℕ := 197
def WIFI_ATTRIBUTE_ROAMING_BLACKLIST_NUM : ℕ := 13
def WIFI_ATTRIBUTE_ROAMING_BLACKLIST_BSSID : ℕ := 14
def WIFI_ATTRIBUTE_ROAMING_WHITELIST_NUM : ℕ := 15
def WIFI_ATTRIBUTE_ROAMING_WHITELIST_SSID : ℕ := 16
def NLE_NOMEM : ℤ := 5

/-- The length is the caller's, whatever the size of ssid_str. -/
structure Ssid where
  length : ℤ
  ssid_str : List UInt8
  deriving DecidableEq, Repr

structure RoamingConfig where
  num_blacklist_bssid : UInt32
  blacklist_bssid : ℕ → Vector UInt8 6
  num_whitelist_ssid : UInt32
  whitelist_ssid : ℕ → Ssid

structure RoamingCapabilities where
  max_blacklist_size : UInt32
  max_whitelist_size : UInt32
  deriving DecidableEq, Repr

/-- Whether nlmsg_alloc gets memory, what it makes room for, and the interface of the request. -/
structure Netlink where
  alloc : Bool
  nm_size : ℕ
  iface : Int32
  deriving DecidableEq, Repr

/-- The request comes to an end before it is complete: a negative result is returned, or there is a
fault. -/
inductive Stop where
  | returned (result : ℤ)
  | fault (f : Fault)
  deriving DecidableEq, Repr

def checked {α : Type} (m : Checked α) : Except Stop α := m.mapError .fault

def noRoom : Stop := .returned (-NLE_NOMEM)

def put (msg : Message) (type : ℕ) (data : List UInt8) : Except Stop Message :=
  msg.put noRoom (.attr type data)

/-- The netlink and the generic netlink header, which the result of genlmsg_put is not asked for. -/
def headerBytes : ℕ := 20

def WifiRequest.create (nl : Netlink) (id subcmd : UInt32) : Except Stop Message := do
  if nl.alloc = false then throw (.returned wifiErrorOutOfMemory)
  let msg ← put ⟨nl.nm_size, headerBytes, []⟩ NL80211_ATTR_VENDOR_ID (u32Bytes id)
  let msg ← put msg NL80211_ATTR_VENDOR_SUBCMD (u32Bytes subcmd)
  if nl.iface ≠ -1 then put msg NL80211_ATTR_IFINDEX (u32Bytes nl.iface.toUInt32)
  else return msg

/-- As a size_t a negative size is larger than any object. -/
def memcpy (dst src : List UInt8) (size : ℤ) : Checked (List UInt8) :=
  if 0 ≤ size ∧ size ≤ dst.length ∧ size ≤ src.length then
    .ok (src.take size.toNat ++ dst.drop size.toNat)
  else .error .outside

def putBssids (config : RoamingConfig) (n : ℕ) (msg : Message) : Except Stop Message :=
  (List.range n).foldlM (fun msg i =>
    put msg WIFI_ATTRIBUTE_ROAMING_BLACKLIST_BSSID (config.blacklist_bssid i).toList) msg

/-- One turn of the loop over the whitelist, with the local buffer. -/
def ssidTurn (config : RoamingConfig) (s : List UInt8 × Message) (i : ℕ) :
    Except Stop (List UInt8 × Message) := do
  let entry := config.whitelist_ssid i
  let ssid ← checked (memcpy s.1 entry.ssid_str entry.length)
  let ssid ← checked (Faults.put ssid entry.length.toNat 0)
  let msg ← put s.2 WIFI_ATTRIBUTE_ROAMING_WHITELIST_SSID (ssid.take (entry.length.toNat + 1))
  return (ssid, msg)

def putSsids (config : RoamingConfig) (n : ℕ) (s : List UInt8 × Message) :
    Except Stop (List UInt8 × Message) :=
  (List.range n).foldlM (ssidTurn config) s

/-- From what is in the local buffer when it is not initialised yet. -/
def createRequest {MAX_SSID_LENGTH : ℕ} (nl : Netlink) (subcmd : UInt32) (config : RoamingConfig)
    (ssid : Vector UInt8 (MAX_SSID_LENGTH + 1)) : Except Stop Message := do
  let msg ← WifiRequest.create nl GOOGLE_OUI subcmd
  let (data, msg) := msg.nestStart NL80211_ATTR_VENDOR_DATA
  let msg ← put msg WIFI_ATTRIBUTE_ROAMING_BLACKLIST_NUM (u32Bytes config.num_blacklist_bssid)
  let msg ← putBssids config config.num_blacklist_bssid.toNat msg
  let msg ← put msg WIFI_ATTRIBUTE_ROAMING_WHITELIST_NUM (u32Bytes config.num_whitelist_ssid)
  let (_, msg) ← putSsids config config.num_whitelist_ssid.toNat (ssid.toList, msg)
  checked (msg.nestEnd data)

/-- The request that is sent, unless the configuration is refused. -/
def wifi_configure_roaming {MAX_SSID_LENGTH : ℕ} (nl : Netlink) (capa : RoamingCapabilities)
    (roaming_config : Option RoamingConfig) (ssid : Vector UInt8 (MAX_SSID_LENGTH + 1)) :
    Except ℤ (Except Stop Message) :=
  match roaming_config with
  | none => .error wifiErrorInvalidArgs
  | some config =>
    if config.num_blacklist_bssid > capa.max_blacklist_size then .error wifiErrorNotSupported
    else if config.num_whitelist_ssid > capa.max_whitelist_size then .error wifiErrorNotSupported
    else .ok (createRequest nl WIFI_SUBCMD_CONFIG_ROAMING config ssid)

/-! ## What the request should be -/

def requestItems (nl : Netlink) : List Item :=
  [.attr NL80211_ATTR_VENDOR_ID (u32Bytes GOOGLE_OUI),
    .attr NL80211_ATTR_VENDOR_SUBCMD (u32Bytes WIFI_SUBCMD_CONFIG_ROAMING)] ++
  if nl.iface ≠ -1 then [.attr NL80211_ATTR_IFINDEX (u32Bytes nl.iface.toUInt32)] else []

def bssidItems (config : RoamingConfig) : List Item :=
  (List.range config.num_blacklist_bssid.toNat).map fun i =>
    .attr WIFI_ATTRIBUTE_ROAMING_BLACKLIST_BSSID (config.blacklist_bssid i).toList

/-- The first SSIDs of the whitelist, each with its terminator. -/
def ssidItems (config : RoamingConfig) (n : ℕ) : List Item :=
  (List.range n).map fun i =>
    let entry := config.whitelist_ssid i
    .attr WIFI_ATTRIBUTE_ROAMING_WHITELIST_SSID (entry.ssid_str.take entry.length.toNat ++ [0])

/-- All that comes in front of SSID number n. -/
def itemsBefore (nl : Netlink) (config : RoamingConfig) (n : ℕ) : List Item :=
  requestItems nl ++
    [.nestStart NL80211_ATTR_VENDOR_DATA,
      .attr WIFI_ATTRIBUTE_ROAMING_BLACKLIST_NUM (u32Bytes config.num_blacklist_bssid)] ++
    bssidItems config ++
    [.attr WIFI_ATTRIBUTE_ROAMING_WHITELIST_NUM (u32Bytes config.num_whitelist_ssid)] ++
    ssidItems config n

/-- No copy goes outside, and a request that is complete has the two lists behind their counts in
the vendor data, which is closed. -/
structure RequestRight (nl : Netlink) (config : RoamingConfig) (r : Except Stop Message) :
    Prop where
  inside : ∀ f, r ≠ .error (.fault f)
  carries : ∀ msg, r = .ok msg →
    msg.items = itemsBefore nl config config.num_whitelist_ssid.toNat ++ [.nestEnd]

/-- An SSID that the buffer has room for with its terminator, and that its ssid_t has. -/
def SsidFits (MAX_SSID_LENGTH : ℕ) (entry : Ssid) : Prop :=
  0 ≤ entry.length ∧ entry.length ≤ MAX_SSID_LENGTH ∧ entry.length ≤ entry.ssid_str.length

/-- The loop comes to SSID number n: the message has room for all that comes before. -/
def Reached (nl : Netlink) (config : RoamingConfig) (n : ℕ) : Prop :=
  nl.alloc ∧ Message.Fits ⟨nl.nm_size, headerBytes, []⟩ (itemsBefore nl config n)

def LetThrough (capa : RoamingCapabilities) (config : RoamingConfig) : Prop :=
  config.num_blacklist_bssid ≤ capa.max_blacklist_size ∧
    config.num_whitelist_ssid ≤ capa.max_whitelist_size

/-! ## The parts in front of the whitelist -/

/-- The message that nlmsg_alloc and genlmsg_put give. -/
def newMessage (nl : Netlink) : Message := ⟨nl.nm_size, headerBytes, []⟩

theorem create_eq {nl : Netlink} (halloc : nl.alloc = true) :
    WifiRequest.create nl GOOGLE_OUI WIFI_SUBCMD_CONFIG_ROAMING =
      (newMessage nl).putAll noRoom (requestItems nl) := by
  have hskip : ¬nl.alloc = false := by simp [halloc]
  rw [WifiRequest.create, if_neg hskip, requestItems, Message.putAll_append]
  by_cases hiface : nl.iface ≠ -1
  · simp only [if_pos hiface, Message.putAll, List.foldlM_cons, List.foldlM_nil, bind_pure]
    simp only [bind_assoc]
    rfl
  · simp only [if_neg hiface, Message.putAll, List.foldlM_cons, List.foldlM_nil, bind_pure]
    rfl

theorem putBssids_eq (config : RoamingConfig) (msg : Message) :
    putBssids config config.num_blacklist_bssid.toNat msg =
      msg.putAll noRoom (bssidItems config) := by
  rw [Message.putAll, bssidItems, List.foldlM_map]
  rfl

theorem nestStart_put (msg : Message) (type attr : ℕ) (data : List UInt8)
    (rest : Option ℕ → Message → Except Stop Message) :
    (put (msg.nestStart type).2 attr data >>= rest (msg.nestStart type).1) =
      (msg.putAll noRoom [.nestStart type, .attr attr data] >>= rest (some msg.used)) := by
  rw [put, Message.put_nestStart]
  by_cases h : msg.Fits [.nestStart type]
  · rw [Message.nestStart, if_pos h]
  · have hput : msg.put noRoom (.nestStart type) = .error noRoom := if_neg h
    rw [Message.putAll, List.foldlM_cons, hput]
    rfl

/-- All that comes before the loop over the whitelist is one put after the other. -/
theorem createRequest_eq {MAX_SSID_LENGTH : ℕ} {nl : Netlink} (halloc : nl.alloc = true)
    (config : RoamingConfig) (ssid : Vector UInt8 (MAX_SSID_LENGTH + 1)) :
    createRequest nl WIFI_SUBCMD_CONFIG_ROAMING config ssid =
      (newMessage nl).putAll noRoom (itemsBefore nl config 0) >>= fun msg =>
        putSsids config config.num_whitelist_ssid.toNat (ssid.toList, msg) >>= fun s =>
          .ok (s.2.append [.nestEnd]) := by
  have hssids : ssidItems config 0 = [] := rfl
  rw [createRequest, create_eq halloc, itemsBefore, hssids, List.append_nil,
    Message.putAll_append, Message.putAll_append, Message.putAll_append]
  simp only [bind_assoc, Message.putAll_singleton]
  refine bind_congr fun msg => ?_
  have hstart := nestStart_put msg NL80211_ATTR_VENDOR_DATA WIFI_ATTRIBUTE_ROAMING_BLACKLIST_NUM
    (u32Bytes config.num_blacklist_bssid) fun data msg => do
      let msg ← putBssids config config.num_blacklist_bssid.toNat msg
      let msg ← put msg WIFI_ATTRIBUTE_ROAMING_WHITELIST_NUM (u32Bytes config.num_whitelist_ssid)
      let s ← putSsids config config.num_whitelist_ssid.toNat (ssid.toList, msg)
      checked (s.2.nestEnd data)
  refine hstart.trans ?_
  simp only [putBssids_eq]
  rfl

/-! ## The whitelist -/

@[simp] theorem checked_ok {α : Type} (a : α) : checked (.ok a) = .ok a := rfl

@[simp] theorem checked_error {α : Type} (f : Fault) :
    checked (.error f : Checked α) = .error (.fault f) := rfl

theorem memcpy_of_fits {dst src : List UInt8} {size : ℤ} (h0 : 0 ≤ size)
    (hdst : size ≤ dst.length) (hsrc : size ≤ src.length) :
    memcpy dst src size = .ok (src.take size.toNat ++ dst.drop size.toNat) :=
  if_pos ⟨h0, hdst, hsrc⟩

/-- A buffer that the first n bytes of src and a terminator have been written to. -/
theorem take_terminated {buffer src : List UInt8} {n : ℕ} (hsrc : n ≤ src.length)
    (hbuffer : n < buffer.length) :
    (src.take n ++ buffer.drop n).length = buffer.length ∧
      ((src.take n ++ buffer.drop n).set n 0).take (n + 1) = src.take n ++ [0] := by
  have hlength : (src.take n).length = n := List.length_take_of_le hsrc
  constructor
  · rw [List.length_append, hlength, List.length_drop]
    omega
  · have hdrop : buffer.drop n ≠ [] := List.drop_eq_nil_iff.not.mpr (by omega)
    obtain ⟨c, rest, hrest⟩ := List.exists_cons_of_ne_nil hdrop
    rw [hrest, List.set_append_right _ _ (by omega), hlength, Nat.sub_self, List.set_cons_zero,
      List.take_append, hlength, List.take_of_length_le (by omega)]
    simp

/-- The buffer keeps its length, and begins with the SSID and its terminator. -/
theorem ssidTurn_of_fits {MAX_SSID_LENGTH : ℕ} {config : RoamingConfig} {i : ℕ}
    (hfits : SsidFits MAX_SSID_LENGTH (config.whitelist_ssid i)) {ssid : List UInt8}
    (hssid : ssid.length = MAX_SSID_LENGTH + 1) (msg : Message) :
    ∃ next : List UInt8, next.length = MAX_SSID_LENGTH + 1 ∧
      ssidTurn config (ssid, msg) i =
        (msg.putAll noRoom [.attr WIFI_ATTRIBUTE_ROAMING_WHITELIST_SSID
          ((config.whitelist_ssid i).ssid_str.take (config.whitelist_ssid i).length.toNat ++
            [0])]).map fun msg => (next, msg) := by
  obtain ⟨h0, hmax, hsrc⟩ := hfits
  generalize hentry : config.whitelist_ssid i = entry at *
  obtain ⟨n, hn⟩ := Int.eq_ofNat_of_zero_le h0
  have hnat : entry.length.toNat = n := by omega
  obtain ⟨hlength, htake⟩ :=
    @take_terminated ssid entry.ssid_str n (by omega) (by omega)
  have hcopied : memcpy ssid entry.ssid_str entry.length =
      .ok (entry.ssid_str.take n ++ ssid.drop n) := by
    rw [memcpy_of_fits h0 (by omega) hsrc, hnat]
  have hset : Faults.put (entry.ssid_str.take n ++ ssid.drop n) n 0 =
      .ok ((entry.ssid_str.take n ++ ssid.drop n).set n 0) := if_pos (by omega)
  have hturn : ssidTurn config (ssid, msg) i =
      (put msg WIFI_ATTRIBUTE_ROAMING_WHITELIST_SSID (entry.ssid_str.take n ++ [0]) >>=
        fun msg => .ok ((entry.ssid_str.take n ++ ssid.drop n).set n 0, msg)) := by
    simp only [ssidTurn, hentry, hcopied, hnat, checked_ok]
    show (checked (Faults.put _ n 0) >>= _) = _
    rw [hset, ← htake]
    rfl
  refine ⟨(entry.ssid_str.take n ++ ssid.drop n).set n 0, ?_, ?_⟩
  · rw [List.length_set, hlength, hssid]
  · have hput : msg.putAll noRoom [.attr WIFI_ATTRIBUTE_ROAMING_WHITELIST_SSID
        (entry.ssid_str.take n ++ [0])] =
        put msg WIFI_ATTRIBUTE_ROAMING_WHITELIST_SSID (entry.ssid_str.take n ++ [0]) :=
      Message.putAll_singleton _
    rw [hturn, hnat, hput]
    cases put msg WIFI_ATTRIBUTE_ROAMING_WHITELIST_SSID (entry.ssid_str.take n ++ [0]) with
    | error e => rfl
    | ok msg => rfl

theorem ssidTurn_of_not_fits {MAX_SSID_LENGTH : ℕ} {config : RoamingConfig} {i : ℕ}
    (hfits : ¬SsidFits MAX_SSID_LENGTH (config.whitelist_ssid i)) {ssid : List UInt8}
    (hssid : ssid.length = MAX_SSID_LENGTH + 1) (msg : Message) :
    ssidTurn config (ssid, msg) i = .error (.fault .outside) := by
  generalize hentry : config.whitelist_ssid i = entry at *
  by_cases hcopy : 0 ≤ entry.length ∧ entry.length ≤ ssid.length ∧
      entry.length ≤ entry.ssid_str.length
  · -- the terminator is one past the buffer
    obtain ⟨h0, hdst, hsrc⟩ := hcopy
    have hlast : entry.length = MAX_SSID_LENGTH + 1 := by
      by_contra hne
      exact hfits ⟨h0, by omega, hsrc⟩
    have hfull : entry.length.toNat = ssid.length := by omega
    have hlength : (entry.ssid_str.take entry.length.toNat ++ ssid.drop entry.length.toNat).length =
        entry.length.toNat := by
      rw [List.length_append, List.length_take_of_le (by omega), List.length_drop]
      omega
    have hput : Faults.put (entry.ssid_str.take entry.length.toNat ++
        ssid.drop entry.length.toNat) entry.length.toNat 0 = .error .outside :=
      if_neg (by omega)
    simp only [ssidTurn, hentry, memcpy_of_fits h0 hdst hsrc, checked_ok]
    show (checked (Faults.put _ _ 0) >>= _) = _
    rw [hput]
    rfl
  · have hmemcpy : memcpy ssid entry.ssid_str entry.length = .error .outside := if_neg hcopy
    simp only [ssidTurn, hentry, hmemcpy]
    rfl

section Whitelist

variable {MAX_SSID_LENGTH : ℕ} {config : RoamingConfig} {msg : Message}

theorem ssidItems_succ (config : RoamingConfig) (n : ℕ) :
    ssidItems config (n + 1) = ssidItems config n ++
      [.attr WIFI_ATTRIBUTE_ROAMING_WHITELIST_SSID ((config.whitelist_ssid n).ssid_str.take
        (config.whitelist_ssid n).length.toNat ++ [0])] := by
  simp [ssidItems, List.range_succ]

theorem putSsids_succ (n : ℕ) (s : List UInt8 × Message) :
    putSsids config (n + 1) s = putSsids config n s >>= (ssidTurn config · n) := by
  rw [putSsids, List.range_succ, List.foldlM_append]
  refine bind_congr fun s => ?_
  rw [List.foldlM_cons]
  exact bind_pure _

/-- Where every SSID that the loop comes to fits, they are put one after the other. -/
theorem putSsids_of_fits {n : ℕ} (hroom : msg.Fits [])
    (hfits : ∀ i < n, msg.Fits (ssidItems config i) →
      SsidFits MAX_SSID_LENGTH (config.whitelist_ssid i))
    {ssid : List UInt8} (hssid : ssid.length = MAX_SSID_LENGTH + 1) :
    ∃ next : List UInt8, next.length = MAX_SSID_LENGTH + 1 ∧
      putSsids config n (ssid, msg) =
        (msg.putAll noRoom (ssidItems config n)).map fun msg => (next, msg) := by
  induction n with
  | zero => exact ⟨ssid, hssid, rfl⟩
  | succ n ih =>
    obtain ⟨next, hnext, hput⟩ := ih fun i hi => hfits i (by omega)
    rw [putSsids_succ, hput, ssidItems_succ, Message.putAll_append]
    by_cases hn : msg.Fits (ssidItems config n)
    · rw [Message.putAll_of_fits hn]
      exact ssidTurn_of_fits (hfits n (Nat.lt_succ_self n) hn) hnext _
    · rw [Message.putAll_of_not_fits (fun _ => hroom) hn]
      exact ⟨next, hnext, rfl⟩

theorem putSsids_of_not_fits {n : ℕ} (hroom : msg.Fits [])
    (hfits : ∃ i < n, msg.Fits (ssidItems config i) ∧
      ¬SsidFits MAX_SSID_LENGTH (config.whitelist_ssid i))
    {ssid : List UInt8} (hssid : ssid.length = MAX_SSID_LENGTH + 1) :
    putSsids config n (ssid, msg) = .error (.fault .outside) := by
  induction n with
  | zero =>
    obtain ⟨i, hi, -⟩ := hfits
    exact absurd hi (Nat.not_lt_zero i)
  | succ n ih =>
    rw [putSsids_succ]
    by_cases hearlier : ∃ i < n, msg.Fits (ssidItems config i) ∧
        ¬SsidFits MAX_SSID_LENGTH (config.whitelist_ssid i)
    · rw [ih hearlier]
      rfl
    · -- the last one is the first that does not fit
      obtain ⟨i, hi, hreached, hnot⟩ := hfits
      obtain rfl : i = n := by
        by_contra hne
        exact hearlier ⟨i, by omega, hreached, hnot⟩
      have hfirst : ∀ j < i, msg.Fits (ssidItems config j) →
          SsidFits MAX_SSID_LENGTH (config.whitelist_ssid j) := fun j hj hjr => by
        by_contra hjn
        exact hearlier ⟨j, hj, hjr, hjn⟩
      obtain ⟨next, hnext, hput⟩ := putSsids_of_fits hroom hfirst hssid
      rw [hput, Message.putAll_of_fits hreached]
      exact ssidTurn_of_not_fits hnot hnext _

end Whitelist

/-! ## The whole request -/

theorem itemsBefore_eq (nl : Netlink) (config : RoamingConfig) (n : ℕ) :
    itemsBefore nl config n = itemsBefore nl config 0 ++ ssidItems config n := by
  simp [itemsBefore, ssidItems]

theorem requestRight_returned (nl : Netlink) (config : RoamingConfig) (result : ℤ) :
    RequestRight nl config (.error (.returned result)) := ⟨nofun, nofun⟩

section Request

variable {MAX_SSID_LENGTH : ℕ} {nl : Netlink} {config : RoamingConfig}
  (ssid : Vector UInt8 (MAX_SSID_LENGTH + 1)) (halloc : nl.alloc = true)

theorem createRequest_of_not_alloc (hnone : nl.alloc = false) :
    createRequest nl WIFI_SUBCMD_CONFIG_ROAMING config ssid =
      .error (.returned wifiErrorOutOfMemory) := by
  simp only [createRequest, WifiRequest.create, if_pos hnone]
  rfl

include halloc

theorem requestRight_of_front_not_fits
    (hfront : ¬(newMessage nl).Fits (itemsBefore nl config 0)) :
    RequestRight nl config (createRequest nl WIFI_SUBCMD_CONFIG_ROAMING config ssid) := by
  have hnonempty : itemsBefore nl config 0 = [] → (newMessage nl).Fits [] := by
    simp [itemsBefore]
  rw [createRequest_eq halloc, Message.putAll_of_not_fits hnonempty hfront]
  exact requestRight_returned nl config (-NLE_NOMEM)

/-- With the front in the message, the loop comes to the SSIDs that still have room behind it. -/
theorem reached_iff (i : ℕ) :
    Reached nl config i ↔
      ((newMessage nl).append (itemsBefore nl config 0)).Fits (ssidItems config i) := by
  rw [Message.append_fits_iff, ← itemsBefore_eq]
  exact and_iff_right halloc

variable (hfront : (newMessage nl).Fits (itemsBefore nl config 0))

include hfront

theorem requestRight_of_ssidsFit
    (hall : ∀ i < config.num_whitelist_ssid.toNat, Reached nl config i →
      SsidFits MAX_SSID_LENGTH (config.whitelist_ssid i)) :
    RequestRight nl config (createRequest nl WIFI_SUBCMD_CONFIG_ROAMING config ssid) := by
  have hroom : ((newMessage nl).append (itemsBefore nl config 0)).Fits [] :=
    Message.append_fits_iff.mpr (by rwa [List.append_nil])
  have hbuffer : ssid.toList.length = MAX_SSID_LENGTH + 1 := Vector.length_toList
  simp only [reached_iff halloc] at hall
  obtain ⟨next, -, hput⟩ := putSsids_of_fits hroom hall hbuffer
  rw [createRequest_eq halloc, Message.putAll_of_fits hfront]
  show RequestRight nl config (putSsids _ _ _ >>= _)
  rw [hput]
  by_cases hlist : ((newMessage nl).append (itemsBefore nl config 0)).Fits
      (ssidItems config config.num_whitelist_ssid.toNat)
  · rw [Message.putAll_of_fits hlist]
    refine ⟨nofun, ?_⟩
    rintro msg ⟨⟩
    rw [itemsBefore_eq nl config config.num_whitelist_ssid.toNat]
    simp [newMessage]
  · rw [Message.putAll_of_not_fits (fun _ => hroom) hlist]
    exact requestRight_returned nl config (-NLE_NOMEM)

theorem createRequest_of_ssid_not_fits {i : ℕ} (hi : i < config.num_whitelist_ssid.toNat)
    (hreached : Reached nl config i)
    (hnot : ¬SsidFits MAX_SSID_LENGTH (config.whitelist_ssid i)) :
    createRequest nl WIFI_SUBCMD_CONFIG_ROAMING config ssid = .error (.fault .outside) := by
  have hroom : ((newMessage nl).append (itemsBefore nl config 0)).Fits [] :=
    Message.append_fits_iff.mpr (by rwa [List.append_nil])
  have hbuffer : ssid.toList.length = MAX_SSID_LENGTH + 1 := Vector.length_toList
  have hfault := putSsids_of_not_fits hroom ⟨i, hi, (reached_iff halloc i).mp hreached, hnot⟩
    hbuffer
  rw [createRequest_eq halloc, Message.putAll_of_fits hfront]
  show putSsids _ _ _ >>= _ = _
  rw [hfault]
  rfl

end Request

/-- A request is right exactly when every SSID that the loop comes to fits. -/
theorem createRequest_right_iff {MAX_SSID_LENGTH : ℕ} (nl : Netlink) (config : RoamingConfig)
    (ssid : Vector UInt8 (MAX_SSID_LENGTH + 1)) :
    RequestRight nl config (createRequest nl WIFI_SUBCMD_CONFIG_ROAMING config ssid) ↔
      ∀ i < config.num_whitelist_ssid.toNat, Reached nl config i →
        SsidFits MAX_SSID_LENGTH (config.whitelist_ssid i) := by
  by_cases halloc : nl.alloc = true
  · by_cases hfront : (newMessage nl).Fits (itemsBefore nl config 0)
    · refine ⟨fun right i hi hreached => ?_, requestRight_of_ssidsFit ssid halloc hfront⟩
      by_contra hnot
      exact right.inside .outside
        (createRequest_of_ssid_not_fits ssid halloc hfront hi hreached hnot)
    · refine iff_of_true (requestRight_of_front_not_fits ssid halloc hfront) fun i _ hreached => ?_
      have hfits := hreached.2
      rw [itemsBefore_eq] at hfits
      exact absurd (Message.fits_of_append hfits) hfront
  · rw [createRequest_of_not_alloc ssid (Bool.eq_false_iff.mpr halloc)]
    exact iff_of_true (requestRight_returned nl config _) fun i _ hreached =>
      absurd hreached.1 halloc

/-- For every configuration that is let through. -/
theorem wifi_configure_roaming_right_iff {MAX_SSID_LENGTH : ℕ} (nl : Netlink)
    (capa : RoamingCapabilities) (config : RoamingConfig)
    (ssid : Vector UInt8 (MAX_SSID_LENGTH + 1)) :
    (∀ r, wifi_configure_roaming nl capa (some config) ssid = .ok r →
        RequestRight nl config r) ↔
      (LetThrough capa config → ∀ i < config.num_whitelist_ssid.toNat, Reached nl config i →
        SsidFits MAX_SSID_LENGTH (config.whitelist_ssid i)) := by
  simp only [wifi_configure_roaming, ← createRequest_right_iff nl config ssid]
  by_cases hblack : config.num_blacklist_bssid > capa.max_blacklist_size
  · rw [if_pos hblack]
    exact iff_of_true nofun fun hlet => absurd hlet.1 (UInt32.not_le.mpr hblack)
  · by_cases hwhite : config.num_whitelist_ssid > capa.max_whitelist_size
    · rw [if_neg hblack, if_pos hwhite]
      exact iff_of_true nofun fun hlet => absurd hlet.2 (UInt32.not_le.mpr hwhite)
    · rw [if_neg hblack, if_neg hwhite]
      constructor
      · intro h _
        exact h _ rfl
      · rintro h r ⟨⟩
        exact h ⟨UInt32.not_lt.mp hblack, UInt32.not_lt.mp hwhite⟩

/-- A whitelist of one SSID that says it is 33 bytes long. -/
def longSsid : RoamingConfig where
  num_blacklist_bssid := 0
  blacklist_bssid _ := Vector.replicate 6 0
  num_whitelist_ssid := 1
  whitelist_ssid _ := ⟨33, List.replicate 32 97⟩

/-- Its terminator goes past the buffer. -/
theorem longSsid_overruns :
    ¬∀ (MAX_SSID_LENGTH : ℕ) (nl : Netlink) (capa : RoamingCapabilities) (config : RoamingConfig)
        (ssid : Vector UInt8 (MAX_SSID_LENGTH + 1)) (r : Except Stop Message),
      wifi_configure_roaming nl capa (some config) ssid = .ok r → RequestRight nl config r := by
  intro right
  have request := right 32 ⟨true, 4096, 7⟩ ⟨16, 8⟩ longSsid (Vector.replicate 33 0) _ rfl
  have fits := (createRequest_right_iff _ _ _).mp request 0 (by decide) ⟨rfl, by decide⟩
  exact absurd fits.2.1 (by decide)

end WifiRoamingConfig
