import VendorMediatek.DriverPowerSave

/-!
# Commands the driver gets as they are

A command that no test takes goes out twice: in a test-mode message from a buffer of 100 bytes, and
as a private command in one of 512.
-/

namespace DriverPrivateCommands

open CStrings DriverCommands DriverPowerSave Faults
open RilDispatch (cString intBytes strncpy)

/-- What is to be sent for a command: its bytes behind the header, and the string in priv_cmd.buf. -/
def CarriesCommand (cmd : CString) : Sent → Prop
  | .testmode message =>
    message.data = (intBytes (NL80211_TESTMODE_STR_CMD ||| version) ++
      intBytes (UInt32.ofNat (8 + cmd.length)) ++ cmd).map some
  | .ioctl command => 0 ∈ command.buf ∧ cString command.buf = cmd

/-- The call stays inside its buffers, and whatever it sends carries the command. -/
def CarriesAll (cmd : CString) (run : Checked (ℤ × List Sent)) : Prop :=
  ∃ ret sent, run = .ok (ret, sent) ∧ ∀ m ∈ sent, CarriesCommand cmd m

/-- libnl builds the test-mode message. -/
def BuildsMessage (nl : Netlink) (cmd : CString) : Prop :=
  nl.nlmsg_alloc = true ∧ nl.putIfindex = true ∧ nl.putData (transparentLen cmd) = true

/-! ## The private command -/

section Private

variable {cmd : CString} {sameBuf : Bool} {buf_len : ℕ}

theorem length_lt_of_terminated {buf : List UInt8} (hzero : 0 ∈ buf) :
    (cString buf).length < buf.length := by
  induction buf with
  | nil => nomatch hzero
  | cons c buf ih =>
    rw [cString, List.takeWhile_cons]
    split_ifs with hc
    · rcases List.mem_cons.mp hzero with rfl | hzero
      · exact absurd rfl (of_decide_eq_true hc)
      · exact Nat.succ_lt_succ (ih hzero)
    · exact Nat.zero_lt_succ _

theorem privCmdLen_le (cmd : CString) : privCmdLen cmd ≤ 511 := by
  unfold privCmdLen PRIV_CMD_SIZE
  split_ifs <;> omega

theorem privateCommand_buf_length {command : PrivCmd}
    (h : privateCommand sameBuf buf_len cmd = .ok command) : command.buf.length = 512 := by
  have hle := privCmdLen_le cmd
  rw [privateCommand] at h
  dsimp only at h
  split_ifs at h with hout
  rw [← Except.ok.inj h]
  show (_ ++ List.replicate (PRIV_CMD_SIZE - _) (0 : UInt8)).length = 512
  rw [List.length_append, List.length_replicate, List.length_take, PRIV_CMD_SIZE]
  omega

theorem length_le_of_private {command : PrivCmd}
    (h : privateCommand sameBuf buf_len cmd = .ok command)
    (hcarries : CarriesCommand cmd (.ioctl command)) : cmd.length ≤ 511 := by
  have hlt := length_lt_of_terminated hcarries.1
  rw [hcarries.2, privateCommand_buf_length h] at hlt
  omega

theorem afterMemset_length : (afterMemset sameBuf buf_len cmd).length = cmd.length + 1 := by
  unfold afterMemset
  split_ifs
  · rw [List.length_append, List.length_replicate, List.length_drop, List.length_append,
      List.length_singleton]
    omega
  · rw [List.length_append, List.length_singleton]

theorem privateCommand_eq (h : cmd.length ≤ 511) :
    privateCommand sameBuf buf_len cmd =
      .ok ⟨afterMemset sameBuf buf_len cmd ++ List.replicate (511 - cmd.length) 0,
        cmd.length + 1, 512⟩ := by
  have hfits : toInt cmd.length = cmd.length := (toInt_natCast_eq_iff _).mpr (by omega)
  have hlen : privCmdLen cmd = cmd.length := by
    rw [privCmdLen, hfits, PRIV_CMD_SIZE, if_neg (by omega)]
  have hsize : ((cmd.length : ℤ) + 1).toNat = cmd.length + 1 := by omega
  have hin : ¬ ((cmd.length : ℤ) + 1 < 0 ∨
      (afterMemset sameBuf buf_len cmd).length < cmd.length + 1) := by
    rw [afterMemset_length]
    omega
  have hall : (afterMemset sameBuf buf_len cmd).take (cmd.length + 1) =
      afterMemset sameBuf buf_len cmd :=
    List.take_of_length_le (Nat.le_of_eq afterMemset_length)
  rw [privateCommand, hlen, hsize]
  dsimp only
  rw [if_neg hin, hall, afterMemset_length, PRIV_CMD_SIZE,
    show 512 - (cmd.length + 1) = 511 - cmd.length by omega]
  rfl

theorem cString_of_notMem (hzero : 0 ∉ cmd) (rest : List UInt8) :
    cString (cmd ++ rest) = cmd ++ cString rest :=
  List.takeWhile_append_of_pos fun _ hc => decide_eq_true fun h => hzero (h ▸ hc)

theorem cString_append_zero (hzero : 0 ∉ cmd) (rest : List UInt8) :
    cString (cmd ++ 0 :: rest) = cmd := by
  rw [cString_of_notMem hzero]
  exact List.append_nil cmd

/-- The string is there unless the caller's buf, cleared before the copy, is the command itself. -/
theorem private_carries_iff (hzero : 0 ∉ cmd) (n : ℕ) (used total : ℤ) :
    CarriesCommand cmd
        (.ioctl ⟨afterMemset sameBuf buf_len cmd ++ List.replicate n 0, used, total⟩) ↔
      (sameBuf = true → buf_len = 0 ∨ cmd = []) := by
  have hkept : ∀ rest : List UInt8, cString (cmd ++ [0] ++ rest) = cmd := fun rest => by
    rw [List.append_assoc]
    exact cString_append_zero hzero rest
  have hends : ∀ rest : List UInt8, (0 : UInt8) ∈ cmd ++ [0] ++ rest := fun rest =>
    List.mem_append_left _ (List.mem_append_right _ (List.mem_singleton_self 0))
  cases sameBuf with
  | false => exact iff_of_true ⟨hends _, hkept _⟩ nofun
  | true =>
    cases buf_len with
    | zero =>
      refine iff_of_true ?_ fun _ => .inl rfl
      rw [afterMemset, if_pos rfl, Nat.zero_min, List.replicate_zero, List.drop_zero,
        List.nil_append]
      exact ⟨hends _, hkept _⟩
    | succ k =>
      -- the first byte of the command has been cleared
      have hcleared : ∃ rest, afterMemset true (k + 1) cmd ++ List.replicate n 0 = 0 :: rest := by
        have hmin : min (k + 1) (cmd ++ [0]).length = min k cmd.length + 1 := by
          rw [List.length_append, List.length_singleton, Nat.add_min_add_right]
        rw [afterMemset, if_pos rfl, hmin, List.replicate_succ]
        exact ⟨_, rfl⟩
      rcases hcleared with ⟨rest, hrest⟩
      rw [hrest]
      constructor
      · rintro ⟨-, hstring⟩ -
        exact .inr hstring.symm
      · intro h
        have hnil := (h rfl).resolve_left (Nat.succ_ne_zero k)
        exact ⟨List.mem_cons_self, hnil.symm⟩

end Private

/-! ## The test-mode message -/

section Testmode

variable {c : Config} {nl : Netlink} {ifindex : ℤ} {cmd : CString}

theorem transparentBuffer_length (cmd : CString) : (transparentBuffer cmd).length = 100 := by
  have hcopy : (strncpy cmd 92).length = 92 := by
    rw [strncpy, List.length_append, List.length_replicate, List.length_take]
    omega
  rw [transparentBuffer, List.length_map, List.length_append, hcopy]
  rfl

theorem transparentBuffer_take (hzero : 0 ∉ cmd) (h : cmd.length ≤ 92) :
    (transparentBuffer cmd).take (transparentLen cmd) =
      (intBytes (NL80211_TESTMODE_STR_CMD ||| version) ++
        intBytes (UInt32.ofNat (8 + cmd.length)) ++ cmd).map some := by
  have hlen : transparentLen cmd = 8 + cmd.length := Nat.mod_eq_of_lt (by omega)
  have hstring : cString cmd = cmd := by
    have hnil := cString_of_notMem hzero []
    rw [List.append_nil] at hnil
    exact hnil.trans (List.append_nil cmd)
  rw [transparentBuffer, hlen, strncpy, hstring, List.take_of_length_le h, ← List.append_assoc,
    List.map_append, List.take_left']
  rw [List.length_map, List.length_append, List.length_append]
  rfl

/-- The message carries the command when the buffer holds all of it, and otherwise the payload
reaches behind the buffer. -/
theorem testmode_carries_iff (hzero : 0 ∉ cmd) (hshort : cmd.length ≤ 511) :
    CarriesAll cmd (wpa_driver_nl80211_testmode c nl (some ⟨some ifindex⟩) (transparentBuffer cmd)
        (transparentLen cmd)) ↔
      (BuildsMessage nl cmd → cmd.length ≤ 92) := by
  have hlen : transparentLen cmd = 8 + cmd.length := Nat.mod_eq_of_lt (by omega)
  have hbuffer := transparentBuffer_length cmd
  have hrun : wpa_driver_nl80211_testmode c nl (some ⟨some ifindex⟩) (transparentBuffer cmd)
      (transparentLen cmd) =
        if nl.nlmsg_alloc = false then .ok (-1, [])
        else if nl.putIfindex = false ∨ nl.putData (transparentLen cmd) = false then
          .ok (-ENOBUFS, [])
        else if (transparentBuffer cmd).length < transparentLen cmd then .error .outside
        else .ok (nl.send_and_recv_msgs,
          [.testmode ⟨ifindex, (transparentBuffer cmd).take (transparentLen cmd),
            handlerOf c (headerIndex (transparentBuffer cmd) &&& indexMask)⟩]) := rfl
  have hnothing : ∀ ret : ℤ, CarriesAll cmd (.ok (ret, [])) := fun ret =>
    ⟨ret, [], rfl, fun _ hm => nomatch hm⟩
  rw [hrun]
  split_ifs with halloc hput hout
  · refine iff_of_true (hnothing _) ?_
    rintro ⟨halloc', -, -⟩
    rw [halloc] at halloc'
    nomatch halloc'
  · refine iff_of_true (hnothing _) ?_
    rintro ⟨-, hindex', hdata'⟩
    rcases hput with hindex | hdata
    · rw [hindex] at hindex'
      nomatch hindex'
    · rw [hdata] at hdata'
      nomatch hdata'
  · rw [not_or, Bool.not_eq_false, Bool.not_eq_false] at hput
    refine iff_of_false (fun h => ?_) fun h => ?_
    · rcases h with ⟨ret, sent, h, -⟩
      nomatch h
    · rw [Bool.not_eq_false] at halloc
      have hfits := h ⟨halloc, hput.1, hput.2⟩
      omega
  · refine iff_of_true ?_ fun _ => by omega
    refine ⟨_, _, rfl, fun m hm => ?_⟩
    rw [List.mem_singleton.mp hm]
    exact transparentBuffer_take hzero (by omega)

end Testmode

/-! ## Both messages -/

theorem transparentCommand_carries_iff {c : Config} {nl : Netlink} {ifindex : ℤ} {sameBuf : Bool}
    {buf_len : ℕ} {ioctl : ℤ} {cmd : CString} (hzero : 0 ∉ cmd) :
    CarriesAll cmd (transparentCommand c nl ⟨some ifindex⟩ sameBuf buf_len ioctl cmd) ↔
      (BuildsMessage nl cmd → cmd.length ≤ 92) ∧ cmd.length ≤ 511 ∧
        (sameBuf = true → buf_len = 0 ∨ cmd = []) := by
  constructor
  · rintro ⟨ret, sent, hrun, hcarries⟩
    rcases bind_eq_ok.mp hrun with ⟨⟨ret', messages⟩, htestmode, hrun⟩
    rcases bind_eq_ok.mp hrun with ⟨command, hprivate, hrun⟩
    cases hrun
    have hioctl := hcarries (.ioctl command) (List.mem_append_right _ (List.mem_singleton_self _))
    have hshort := length_le_of_private hprivate hioctl
    refine ⟨(testmode_carries_iff hzero hshort).mp ⟨ret', messages, htestmode, fun m hm =>
      hcarries m (List.mem_append_left _ hm)⟩, hshort, ?_⟩
    rw [privateCommand_eq hshort] at hprivate
    rw [← Except.ok.inj hprivate] at hioctl
    exact (private_carries_iff hzero _ _ _).mp hioctl
  · rintro ⟨htestmode, hshort, hbuf⟩
    rcases (testmode_carries_iff hzero hshort).mpr htestmode with ⟨ret, messages, hrun, hcarries⟩
    have hboth : transparentCommand c nl ⟨some ifindex⟩ sameBuf buf_len ioctl cmd =
        .ok (if ioctl < 0 then 5 else 0, messages ++ [.ioctl
          ⟨afterMemset sameBuf buf_len cmd ++ List.replicate (511 - cmd.length) 0,
            cmd.length + 1, 512⟩]) := by
      rw [transparentCommand, bind_of_ok hrun]
      dsimp only
      rw [bind_of_ok (privateCommand_eq hshort)]
      rfl
    refine ⟨_, _, hboth, fun m hm => ?_⟩
    rcases List.mem_append.mp hm with hm | hm
    · exact hcarries m hm
    · rw [List.mem_singleton.mp hm]
      exact (private_carries_iff hzero _ _ _).mpr hbuf

/-- Where a command that reaches the last branch goes out as it is. -/
theorem driver_cmd_carries_iff (e : Surroundings)
    (others : Branch → CString → Checked (ℤ × List Sent)) (cmd : CString) (sameBuf : Bool)
    (buf_len : ℕ) {drv : DriverData} {ctx : WpaSupplicant} (hdrv : e.drv = some drv)
    (hctx : drv.ctx = some ctx) (hset : ¬ (drv.nlmodeAp = false ∧ ctx.conf = false))
    (hbranch : branchOf e.config cmd = .transparent) (hzero : 0 ∉ cmd) :
    CarriesAll cmd (wpa_driver_nl80211_driver_cmd e others cmd sameBuf buf_len) ↔
      (BuildsMessage e.netlink cmd → cmd.length ≤ 92) ∧ cmd.length ≤ 511 ∧
        (sameBuf = true → buf_len = 0 ∨ cmd = []) := by
  have hbss : e.bss = ⟨some drv.ifindex⟩ := by
    rw [Surroundings.bss, hdrv]
    rfl
  rw [wpa_driver_nl80211_driver_cmd, hdrv]
  dsimp only
  rw [hctx]
  dsimp only
  rw [if_neg hset, hbranch]
  dsimp only
  rw [hbss]
  exact transparentCommand_carries_iff hzero

theorem driver_cmd_carries_scan :
    CarriesAll (literal "SCAN-ACTIVE") (wpa_driver_nl80211_driver_cmd wlan0
        (fun _ _ => .error .null) (literal "SCAN-ACTIVE") false 4096) ↔
      (BuildsMessage wlan0.netlink (literal "SCAN-ACTIVE") →
          (literal "SCAN-ACTIVE").length ≤ 92) ∧
        (literal "SCAN-ACTIVE").length ≤ 511 ∧
        (false = true → 4096 = 0 ∨ literal "SCAN-ACTIVE" = []) :=
  driver_cmd_carries_iff wlan0 (fun _ _ => .error .null) (literal "SCAN-ACTIVE") false 4096 rfl rfl
    (by decide) (by decide) (by decide)

/-- A command of 93 letters. -/
theorem driver_cmd_reads_past_buffer :
    branchOf wlan0.config (List.replicate 93 65) = .transparent ∧
      ¬ CarriesAll (List.replicate 93 65) (wpa_driver_nl80211_driver_cmd wlan0
        (fun _ _ => .error .null) (List.replicate 93 65) false 4096) := by
  have hbranch : branchOf wlan0.config (List.replicate 93 65) = .transparent := by decide
  refine ⟨hbranch, fun h => ?_⟩
  have hrun : wpa_driver_nl80211_driver_cmd wlan0 (fun _ _ => .error .null)
      (List.replicate 93 65) false 4096 =
        transparentCommand wlan0.config wlan0.netlink wlan0.bss false 4096 0
          (List.replicate 93 65) := by
    rw [wpa_driver_nl80211_driver_cmd, hbranch]
    rfl
  rw [hrun] at h
  have hfits := ((transparentCommand_carries_iff (by decide)).mp h).1 ⟨rfl, rfl, rfl⟩
  exact absurd hfits (by decide)

end DriverPrivateCommands
