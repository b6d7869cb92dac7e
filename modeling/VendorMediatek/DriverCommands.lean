import VendorMediatek.DriverTokens
import VendorMediatek.RilDispatch

/-!
# Driver commands

`wpa_driver_nl80211_driver_cmd` tells commands apart by their beginnings; what no test takes is
handed to the driver as it is. The handlers of the other commands are a parameter.
-/

namespace DriverCommands

open CStrings Faults DriverTokens
open RilDispatch (Abi intBytes)

/-- Which parts of the file are compiled. -/
inductive Feature where
  | always | CONFIG_HOTSPOT_MGR_SUPPORT | CONFIG_MTK_LTE_COEX | CONFIG_WAPI_SUPPORT
  | CONFIG_MTK_WFD_SINK | CONFIG_MTK_P2P_SIGMA
  deriving DecidableEq, Repr

abbrev Config := Feature → Bool

/-! ## Test-mode messages -/

inductive Handler where
  | testmode_sta_statistics_handler | testmode_available_channel_handler | none
  deriving DecidableEq, Repr

/-- NL80211_CMD_TESTMODE; a byte that the program never wrote is left open. -/
structure TestmodeMessage where
  ifindex : ℤ
  data : List (Option UInt8)
  handler : Handler
  deriving DecidableEq, Repr

structure PrivCmd where
  buf : List UInt8
  used_len : ℤ
  total_len : ℤ
  deriving DecidableEq, Repr

inductive Sent where
  | testmode (message : TestmodeMessage)
  | ioctl (command : PrivCmd)
  deriving DecidableEq, Repr

/-- What libnl and the kernel answer. -/
structure Netlink where
  nlmsg_alloc : Bool
  putIfindex : Bool
  putData : ℕ → Bool
  send_and_recv_msgs : ℤ

/-- The interface index behind the pointer to the driver. -/
structure I802Bss where
  drv : Option ℤ
  deriving DecidableEq, Repr

structure WpaSupplicant where
  conf : Bool
  drv_priv : Option I802Bss
  deriving DecidableEq, Repr

def ENOBUFS : ℤ := 105

/-- BITS(0, 23) -/
def indexMask : UInt32 := 0xFFFFFF

def headerIndex (data : List (Option UInt8)) : UInt32 :=
  (data.take 4).foldr (fun b rest => (b.getD 0).toUInt32 + 256 * rest) 0

def handlerOf (c : Config) (index : UInt32) : Handler :=
  if index = 0x10 then .testmode_sta_statistics_handler
  else if c .CONFIG_MTK_LTE_COEX ∧ index = 0x30 then .testmode_available_channel_handler
  else .none

def wpa_driver_nl80211_testmode (c : Config) (nl : Netlink) (priv : Option I802Bss)
    (data : List (Option UInt8)) (data_len : ℕ) : Checked (ℤ × List Sent) := do
  let bss ← deref priv
  if nl.nlmsg_alloc = false then pure (-1, [])
  else
    let ifindex ← deref bss.drv
    if nl.putIfindex = false ∨ nl.putData data_len = false then pure (-ENOBUFS, [])
    else if data.length < data_len then .error .outside
    else
      let handler := handlerOf c (headerIndex data &&& indexMask)
      pure (nl.send_and_recv_msgs, [.testmode ⟨ifindex, data.take data_len, handler⟩])

/-! ## P2P power save -/

/-- The version above the command's own number. -/
def version : UInt32 := (0x01 : UInt32) <<< 24

structure NoaParams where
  count : UInt32
  interval : UInt32
  duration : UInt32
  deriving DecidableEq, Repr

/-- struct wpa_driver_p2p_noa_params; idx is 4 and value 0. -/
def NoaParams.bytes (p : NoaParams) : List UInt8 :=
  intBytes (1 ||| version) ++ intBytes 28 ++ intBytes 4 ++ intBytes 0 ++ intBytes p.count ++
    intBytes p.interval ++ intBytes p.duration

/-- struct wpa_driver_p2p_sigma_params -/
def sigmaBytes (idx value : UInt32) : List UInt8 :=
  intBytes (1 ||| version) ++ intBytes 16 ++ intBytes idx ++ intBytes value

/-- atoi of one of the pieces. -/
def argument (abi : Abi) (argv : List ℕ) (memory : List UInt8) (i : ℕ) : Checked Int32 := do
  let offset ← read argv i
  pure (Int32.ofInt (atoi (8 * abi.pointer) (stringAt memory offset)))

def p2p_ctrl_iface_set_noa (abi : Abi) (c : Config) (nl : Netlink)
    (wpa_s : Option WpaSupplicant) (cmd : CString) : Checked (ℤ × List Sent) := do
  let (argv, memory) ← tokenize_space (cmd ++ [0]) 64 cmd.length
  if argv.length ≠ 4 then pure (-1, [])
  else
    let count ← argument abi argv memory 1
    let interval ← argument abi argv memory 2
    let duration ← argument abi argv memory 3
    let noa_param : NoaParams := ⟨count.toUInt32, interval.toUInt32, duration.toUInt32⟩
    let wpa_s ← deref wpa_s
    wpa_driver_nl80211_testmode c nl wpa_s.drv_priv (noa_param.bytes.map some) 28

def p2p_ctrl_iface_set_ps (abi : Abi) (c : Config) (nl : Netlink)
    (wpa_s : Option WpaSupplicant) (cmd : CString) : Checked (ℤ × List Sent) := do
  let (argv, memory) ← tokenize_space (cmd ++ [0]) 64 cmd.length
  if argv.length ≠ 4 then pure (-1, [])
  else
    let enable ← argument abi argv memory 2
    let ctw ← argument abi argv memory 3
    let ctw := if enable ≠ 0 then ctw ||| 0x80 else ctw
    let wpa_s ← deref wpa_s
    wpa_driver_nl80211_testmode c nl wpa_s.drv_priv ((sigmaBytes 107 ctw.toUInt32).map some) 16

/-! ## The transparent branch -/

def NL80211_TESTMODE_STR_CMD : UInt32 := 102

/-- The unsigned 8 + strlen that the header and the length of the payload are taken from. -/
def transparentLen (cmd : CString) : ℕ := (8 + cmd.length) % 2 ^ 32

/-- The 100 bytes of the local buffer: the header, and 92 that strncpy writes. -/
def transparentBuffer (cmd : CString) : List (Option UInt8) :=
  (intBytes (NL80211_TESTMODE_STR_CMD ||| version) ++
    intBytes (UInt32.ofNat (transparentLen cmd)) ++ RilDispatch.strncpy cmd 92).map some

def PRIV_CMD_SIZE : ℕ := 512

/-- The bytes of the command after buf is cleared, when the caller's buf is the command itself. -/
def afterMemset (sameBuf : Bool) (buf_len : ℕ) (cmd : CString) : List UInt8 :=
  let bytes := cmd ++ [0]
  if sameBuf then List.replicate (min buf_len bytes.length) 0 ++ bytes.drop buf_len else bytes

/-- cmd_len, which is an int. -/
def privCmdLen (cmd : CString) : ℤ :=
  if (PRIV_CMD_SIZE : ℤ) ≤ toInt cmd.length then PRIV_CMD_SIZE - 1 else toInt cmd.length

/-- The private command of a command that is not handled. -/
def privateCommand (sameBuf : Bool) (buf_len : ℕ) (cmd : CString) : Checked PrivCmd :=
  let cmd_len := privCmdLen cmd
  let source := afterMemset sameBuf buf_len cmd
  -- a negative size is a huge one for memcpy
  if cmd_len + 1 < 0 ∨ source.length < (cmd_len + 1).toNat then .error .outside
  else
    let copied := source.take (cmd_len + 1).toNat
    pure ⟨copied ++ List.replicate (PRIV_CMD_SIZE - copied.length) 0, cmd_len + 1, PRIV_CMD_SIZE⟩

/-- The last branch and what follows it: first the test-mode message, then the ioctl. Where the
ioctl fails the result is the length of the text FAIL and its line end; otherwise it is 0, which is
also the length of the cleared buf. -/
def transparentCommand (c : Config) (nl : Netlink) (bss : I802Bss) (sameBuf : Bool) (buf_len : ℕ)
    (ioctl : ℤ) (cmd : CString) : Checked (ℤ × List Sent) := do
  let (_, sent) ← wpa_driver_nl80211_testmode c nl (some bss) (transparentBuffer cmd)
    (transparentLen cmd)
  let command ← privateCommand sameBuf buf_len cmd
  pure (if ioctl < 0 then 5 else 0, sent ++ [.ioctl command])

/-! ## Which branch takes a command -/

inductive Test where
  | os_strncmp (text : String) (n : ℕ)
  | os_strncasecmp (text : String) (n : ℕ)
  | os_strcasecmp (text : String)
  deriving Repr

def lower (c : UInt8) : UInt8 := if 65 ≤ c ∧ c ≤ 90 then c + 32 else c

def Test.passes (s : CString) : Test → Bool
  | .os_strncmp text n => strncmpEq s (literal text) n
  | .os_strncasecmp text n => strncmpEq (s.map lower) ((literal text).map lower) n
  | .os_strcasecmp text => s.map lower = (literal text).map lower

inductive Branch where
  | powermode | getStaStatistics | macaddr | country | start | stop | getpower | rxfilterAdd
  | rxfilterRemove | rxfilterStop | rxfilterStart | btcoexscanStart | btcoexscanStop | btcoexmode
  | staBlock | staUnblock | setMaxClient | mtkAcs | setWapiKey | wapiMsgSend | p2pGetCap | p2pSetCap
  | miracast | p2pUseMcc | wfdDataUpdate | mcc | p2pSetOpps | p2pSetPowerSave | p2pSetSleep
  | p2pSetSleepDefault | sigmaMode | p2pSetNoa | p2pSetPs | setsuspendmode | mtkRxPacketFilter
  | transparent
  deriving DecidableEq, Repr

structure Row where
  feature : Feature
  test : Test
  branch : Branch
  deriving Repr

/-- The tests in front of the one for P2P_SET_NOA. -/
def firstRows : List Row :=
  [⟨.always, .os_strncasecmp "POWERMODE " 10, .powermode⟩,
   ⟨.always, .os_strncasecmp "GET_STA_STATISTICS " 19, .getStaStatistics⟩,
   ⟨.always, .os_strncmp "MACADDR" 7, .macaddr⟩,
   ⟨.always, .os_strncasecmp "COUNTRY" 7, .country⟩,
   ⟨.always, .os_strcasecmp "start", .start⟩,
   ⟨.always, .os_strcasecmp "stop", .stop⟩,
   ⟨.always, .os_strncasecmp "getpower" 8, .getpower⟩,
   ⟨.always, .os_strncasecmp "rxfilter-add" 12, .rxfilterAdd⟩,
   ⟨.always, .os_strncasecmp "rxfilter-remove" 15, .rxfilterRemove⟩,
   ⟨.always, .os_strncasecmp "rxfilter-stop" 13, .rxfilterStop⟩,
   ⟨.always, .os_strncasecmp "rxfilter-start" 14, .rxfilterStart⟩,
   ⟨.always, .os_strcasecmp "btcoexscan-start", .btcoexscanStart⟩,
   ⟨.always, .os_strcasecmp "btcoexscan-stop", .btcoexscanStop⟩,
   ⟨.always, .os_strncasecmp "btcoexmode" 10, .btcoexmode⟩,
   ⟨.CONFIG_HOTSPOT_MGR_SUPPORT, .os_strncmp "STA-BLOCK " 10, .staBlock⟩,
   ⟨.CONFIG_HOTSPOT_MGR_SUPPORT, .os_strncmp "STA-UNBLOCK " 12, .staUnblock⟩,
   ⟨.CONFIG_HOTSPOT_MGR_SUPPORT, .os_strncasecmp "set_max_client " 15, .setMaxClient⟩,
   ⟨.CONFIG_MTK_LTE_COEX, .os_strncmp "MTK-ACS" 7, .mtkAcs⟩,
   ⟨.CONFIG_WAPI_SUPPORT, .os_strncasecmp "set-wapi-key" 12, .setWapiKey⟩,
   ⟨.CONFIG_WAPI_SUPPORT, .os_strncasecmp "wapi-msg-send" 13, .wapiMsgSend⟩,
   ⟨.CONFIG_MTK_WFD_SINK, .os_strncmp "p2p_get_cap " 12, .p2pGetCap⟩,
   ⟨.CONFIG_MTK_WFD_SINK, .os_strncmp "p2p_set_cap " 12, .p2pSetCap⟩,
   ⟨.CONFIG_MTK_WFD_SINK, .os_strncmp "MIRACAST " 9, .miracast⟩,
   ⟨.CONFIG_MTK_WFD_SINK, .os_strncasecmp "p2p_use_mcc=" 12, .p2pUseMcc⟩,
   ⟨.CONFIG_MTK_WFD_SINK, .os_strncmp "wfd_data_update" 15, .wfdDataUpdate⟩,
   ⟨.CONFIG_MTK_P2P_SIGMA, .os_strncasecmp "mcc" 3, .mcc⟩,
   ⟨.CONFIG_MTK_P2P_SIGMA, .os_strncmp "p2p_set_opps " 13, .p2pSetOpps⟩,
   ⟨.CONFIG_MTK_P2P_SIGMA, .os_strncmp "p2p_set_power_save " 19, .p2pSetPowerSave⟩,
   ⟨.CONFIG_MTK_P2P_SIGMA, .os_strncmp "p2p_set_sleep " 14, .p2pSetSleep⟩,
   ⟨.CONFIG_MTK_P2P_SIGMA, .os_strncmp "p2p_set_sleep" 13, .p2pSetSleepDefault⟩,
   ⟨.CONFIG_MTK_P2P_SIGMA, .os_strncasecmp "sigma_mode" 10, .sigmaMode⟩]

def rows : List Row :=
  firstRows ++
  [⟨.always, .os_strncmp "P2P_SET_NOA" 11, .p2pSetNoa⟩,
   ⟨.always, .os_strncmp "P2P_SET_PS" 10, .p2pSetPs⟩,
   ⟨.always, .os_strncasecmp "SETSUSPENDMODE " 15, .setsuspendmode⟩,
   ⟨.always, .os_strncasecmp "mtk_rx_packet_filter " 21, .mtkRxPacketFilter⟩]

def Row.takes (c : Config) (cmd : CString) (row : Row) : Bool :=
  (row.feature = .always || c row.feature) && row.test.passes cmd

def branchOf (c : Config) (cmd : CString) : Branch :=
  ((rows.find? (Row.takes c cmd)).map Row.branch).getD .transparent

/-! ## The command -/

/-- The driver of an interface; ctx is the hostapd_data of an access point. -/
structure DriverData where
  ifindex : ℤ
  nlmodeAp : Bool
  ctx : Option WpaSupplicant
  deriving DecidableEq, Repr

/-- What a call finds around it. The pointer wpa_s is never set for an access point; stray is what
it happens to lead to. -/
structure Surroundings where
  abi : Abi
  config : Config
  netlink : Netlink
  drv : Option DriverData
  stray : Option WpaSupplicant
  ioctl : ℤ

def Surroundings.bss (e : Surroundings) : I802Bss := ⟨e.drv.map DriverData.ifindex⟩

def wpa_driver_nl80211_driver_cmd (e : Surroundings)
    (others : Branch → CString → Checked (ℤ × List Sent)) (cmd : CString) (sameBuf : Bool)
    (buf_len : ℕ) : Checked (ℤ × List Sent) :=
  match e.drv with
  | none => pure (-1, [])
  | some drv =>
    match drv.ctx with
    | none => pure (-1, [])
    | some ctx =>
      if drv.nlmodeAp = false ∧ ctx.conf = false then pure (-1, [])
      else
        let wpa_s := if drv.nlmodeAp then e.stray else some ctx
        match branchOf e.config cmd with
        | .p2pSetNoa => p2p_ctrl_iface_set_noa e.abi e.config e.netlink wpa_s cmd
        | .p2pSetPs => p2p_ctrl_iface_set_ps e.abi e.config e.netlink wpa_s cmd
        | .transparent =>
          transparentCommand e.config e.netlink e.bss sameBuf buf_len e.ioctl cmd
        | other => others other cmd

/-- snprintf into a buffer of so many bytes. -/
def snprintf (size : ℕ) (text : CString) : CString := text.take (size - 1)

end DriverCommands
