import VendorMediatek.DecimalStrings
import VendorMediatek.DriverCommands

/-!
# P2P power save by driver commands

`wpa_driver_set_p2p_noa` and `wpa_driver_set_p2p_ps` write their values into a command, which is
told apart by its beginning, cut into pieces and read back.
-/

namespace DriverPowerSave

open CStrings DecimalStrings DriverCommands DriverTokens Faults
open RilDispatch (Abi intBytes)

/-! ## The callers -/

/-- Four words with a space between them. -/
def fourWords (name a b c : CString) : CString := name ++ 32 :: (a ++ 32 :: (b ++ 32 :: c))

def wpa_driver_set_p2p_noa (e : Surroundings)
    (others : Branch → CString → Checked (ℤ × List Sent)) (MAX_DRV_CMD_SIZE : ℕ) (count : UInt8)
    (start duration : Int32) : Checked (ℤ × List Sent) :=
  let buf := snprintf MAX_DRV_CMD_SIZE (fourWords (literal "P2P_SET_NOA") (printInt count.toNat)
    (printInt start.toInt) (printInt duration.toInt))
  wpa_driver_nl80211_driver_cmd e others buf true (buf.length + 1)

def wpa_driver_set_p2p_ps (e : Surroundings)
    (others : Branch → CString → Checked (ℤ × List Sent)) (MAX_DRV_CMD_SIZE : ℕ)
    (legacy_ps opp_ps ctwindow : Int32) : Checked (ℤ × List Sent) :=
  let buf := snprintf MAX_DRV_CMD_SIZE (fourWords (literal "P2P_SET_PS") (printInt legacy_ps.toInt)
    (printInt opp_ps.toInt) (printInt ctwindow.toInt))
  wpa_driver_nl80211_driver_cmd e others buf true (buf.length + 1)

/-! ## The branch -/

/-- A test that no string with this beginning passes. -/
def Test.excludes (start : CString) : Test → Bool
  | .os_strncmp text n => start.take n ≠ ((literal text).take n).take start.length
  | .os_strncasecmp text n =>
    (start.map lower).take n ≠ (((literal text).map lower).take n).take start.length
  | .os_strcasecmp text => start.map lower ≠ ((literal text).map lower).take start.length

theorem take_of_strncmpEq {start rest t : CString} {n : ℕ}
    (h : strncmpEq (start ++ rest) t n = true) : start.take n = (t.take n).take start.length := by
  have heq : (start ++ rest).take n = t.take n := of_decide_eq_true h
  rw [← heq, List.take_take, Nat.min_comm, ← List.take_take, List.take_left]

theorem not_passes_of_excludes {test : Test} {start : CString} (rest : CString)
    (h : Test.excludes start test = true) : test.passes (start ++ rest) = false := by
  rw [Bool.eq_false_iff]
  intro hpasses
  cases test with
  | os_strncmp text n => exact of_decide_eq_true h (take_of_strncmpEq hpasses)
  | os_strncasecmp text n =>
    rw [Test.passes, List.map_append] at hpasses
    have htake := take_of_strncmpEq hpasses
    rw [List.length_map] at htake
    exact of_decide_eq_true h htake
  | os_strcasecmp text =>
    have heq : (start ++ rest).map lower = (literal text).map lower := of_decide_eq_true hpasses
    refine of_decide_eq_true h ?_
    rw [← heq, List.map_append]
    exact (List.take_left' (List.length_map lower)).symm

theorem find?_of_excludes {c : Config} {start rest : CString} {table : List Row}
    (h : ∀ row ∈ table, Test.excludes start row.test = true) :
    table.find? (Row.takes c (start ++ rest)) = none := by
  rw [List.find?_eq_none]
  intro row hrow htakes
  have hnot := not_passes_of_excludes rest (h row hrow)
  rw [Row.takes, hnot, Bool.and_false] at htakes
  nomatch htakes

theorem takes_beginning (c : Config) (text : String) (branch : Branch) (rest : CString) :
    Row.takes c (literal text ++ rest)
      ⟨.always, .os_strncmp text (literal text).length, branch⟩ = true := by
  have hequal : (literal text ++ rest).take (literal text).length =
      (literal text).take (literal text).length := by
    rw [List.take_left, List.take_length]
  rw [Row.takes, Test.passes, strncmpEq, decide_eq_true hequal]
  rfl

theorem branchOf_of_rows {c : Config} {start rest : CString} {front back : List Row} {row : Row}
    (hrows : rows = front ++ row :: back)
    (hfront : ∀ row ∈ front, Test.excludes start row.test = true)
    (htakes : Row.takes c (start ++ rest) row = true) :
    branchOf c (start ++ rest) = row.branch := by
  rw [branchOf, hrows, List.find?_append, find?_of_excludes hfront, Option.none_or,
    List.find?_cons, htakes]
  rfl

theorem branchOf_noa (c : Config) (rest : CString) :
    branchOf c (literal "P2P_SET_NOA" ++ rest) = .p2pSetNoa :=
  @branchOf_of_rows c _ rest firstRows _ _ rfl (by decide) (takes_beginning c "P2P_SET_NOA" _ rest)

theorem branchOf_ps (c : Config) (rest : CString) :
    branchOf c (literal "P2P_SET_PS" ++ rest) = .p2pSetPs :=
  @branchOf_of_rows c _ rest
    (firstRows ++ [⟨.always, .os_strncmp "P2P_SET_NOA" 11, .p2pSetNoa⟩]) _ _ rfl (by decide)
    (takes_beginning c "P2P_SET_PS" _ rest)

/-! ## The pieces -/

def IsWord (s : CString) : Prop := s ≠ [] ∧ ∀ c ∈ s, c ≠ 0 ∧ c ≠ 10 ∧ c ≠ 32

instance (s : CString) : Decidable (IsWord s) := @instDecidableAnd _ _ _ (List.decidableBAll _ s)

theorem printInt_isWord (x : ℤ) : IsWord (printInt x) := by
  refine ⟨?_, fun c hc => mem_printInt hc⟩
  unfold printInt
  split_ifs
  · exact List.cons_ne_nil _ _
  · exact (decimal_isDecimal _).1

theorem IsWord.not_separator {s : CString} (h : IsWord s) : ∀ c ∈ s, isSeparator c = false := by
  intro c hc
  rcases h.2 c hc with ⟨-, hline, hspace⟩
  exact decide_eq_false (not_or.mpr ⟨hline, hspace⟩)

section Words

variable {name a b c : CString} (hname : IsWord name) (ha : IsWord a) (hb : IsWord b)
  (hc : IsWord c)

include hname ha hb hc

theorem pieces_fourWords : pieces (fourWords name a b c) = [name, a, b, c] := by
  have hspace : isSeparator 32 = true := rfl
  have hne : ∀ s t : CString, s ++ 32 :: t ≠ [] := fun s t =>
    List.append_ne_nil_of_right_ne_nil s (List.cons_ne_nil 32 t)
  rw [fourWords, pieces_of_cons hname.not_separator hspace (hne _ _),
    pieces_of_cons ha.not_separator hspace (hne _ _),
    pieces_of_cons hb.not_separator hspace hc.1, pieces_of_piece hc.not_separator]

theorem zero_notMem_fourWords : 0 ∉ fourWords name a b c := by
  have hword : ∀ {s : CString}, IsWord s → 0 ∉ s := fun hs h => (hs.2 0 h).1 rfl
  simp only [fourWords, List.mem_append, List.mem_cons, not_or]
  exact ⟨hword hname, by decide, hword ha, by decide, hword hb, by decide, hword hc⟩

theorem tokenize_fourWords :
    ∃ argv memory, tokenize_space (fourWords name a b c ++ [0]) 64 (fourWords name a b c).length =
        .ok (argv, memory) ∧ argv.length = 4 ∧
          argv.map (stringAt memory) = [name, a, b, c] := by
  have hpieces := pieces_fourWords hname ha hb hc
  have hroom : (pieces (fourWords name a b c)).length ≤ 64 := by
    rw [hpieces]
    exact (by decide : 4 ≤ 64)
  rcases tokenize_space_eq (zero_notMem_fourWords hname ha hb hc) hroom with ⟨argv, hrun, hstrings⟩
  rw [hpieces] at hstrings
  refine ⟨argv, _, hrun, ?_, hstrings⟩
  rw [← List.length_map, hstrings]
  rfl

end Words

theorem argument_eq {abi : Abi} {argv : List ℕ} {memory : List UInt8} {words : List CString}
    {i : ℕ} {word : CString} (h : argv.map (stringAt memory) = words)
    (hword : words[i]? = some word) :
    argument abi argv memory i = .ok (Int32.ofInt (atoi (8 * abi.pointer) word)) := by
  rw [← h, List.getElem?_map] at hword
  rcases Option.map_eq_some_iff.mp hword with ⟨offset, hoffset, rfl⟩
  rw [argument, bind_of_ok (read_eq_ok.mpr hoffset)]
  rfl

/-! ## The handlers -/

section Handlers

variable {abi : Abi} {c : Config} {nl : Netlink} {wpa_s : Option WpaSupplicant}
  {name x y z : CString} (hname : IsWord name) (hx : IsWord x) (hy : IsWord y) (hz : IsWord z)

/-- What atoi gives as an int. -/
def number (abi : Abi) (word : CString) : Int32 := Int32.ofInt (atoi (8 * abi.pointer) word)

include hname hx hy hz

theorem set_noa_eq :
    p2p_ctrl_iface_set_noa abi c nl wpa_s (fourWords name x y z) = (do
      let wpa_s ← deref wpa_s
      wpa_driver_nl80211_testmode c nl wpa_s.drv_priv
        ((NoaParams.bytes ⟨(number abi x).toUInt32, (number abi y).toUInt32,
          (number abi z).toUInt32⟩).map some) 28) := by
  rcases tokenize_fourWords hname hx hy hz with ⟨argv, memory, hrun, hlength, hstrings⟩
  rw [p2p_ctrl_iface_set_noa, bind_of_ok hrun]
  refine (if_neg (not_not_intro hlength)).trans ?_
  rw [bind_of_ok (argument_eq hstrings (i := 1) rfl),
    bind_of_ok (argument_eq hstrings (i := 2) rfl), bind_of_ok (argument_eq hstrings (i := 3) rfl)]
  rfl

theorem set_ps_eq :
    p2p_ctrl_iface_set_ps abi c nl wpa_s (fourWords name x y z) = (do
      let wpa_s ← deref wpa_s
      wpa_driver_nl80211_testmode c nl wpa_s.drv_priv
        ((sigmaBytes 107 (if number abi y ≠ 0 then number abi z ||| 0x80
          else number abi z).toUInt32).map some) 16) := by
  rcases tokenize_fourWords hname hx hy hz with ⟨argv, memory, hrun, hlength, hstrings⟩
  rw [p2p_ctrl_iface_set_ps, bind_of_ok hrun]
  refine (if_neg (not_not_intro hlength)).trans ?_
  rw [bind_of_ok (argument_eq hstrings (i := 2) rfl),
    bind_of_ok (argument_eq hstrings (i := 3) rfl)]
  rfl

end Handlers

/-! ## The room in argv -/

theorem bind_ne_outside {α β : Type} {m : Checked α} {f : α → Checked β}
    (hm : m ≠ .error .outside) (hf : ∀ a, m = .ok a → f a ≠ .error .outside) :
    (m >>= f) ≠ .error .outside := by
  cases m with
  | error fault => exact fun h => hm (by cases h; rfl)
  | ok a => exact hf a rfl

theorem testmode_ne_outside {c : Config} {nl : Netlink} {priv : Option I802Bss}
    {data : List (Option UInt8)} {data_len : ℕ} (h : data_len ≤ data.length) :
    wpa_driver_nl80211_testmode c nl priv data data_len ≠ .error .outside := by
  have hderef : ∀ {α : Type} (p : Option α), deref p ≠ .error .outside := by
    intro α p
    cases p with
    | none => nofun
    | some a => nofun
  refine bind_ne_outside (hderef priv) fun bss _ => ?_
  split_ifs with halloc hput hlen
  · nofun
  · exact bind_ne_outside (hderef bss.drv) fun _ _ => nofun
  · omega
  · exact bind_ne_outside (hderef bss.drv) fun _ _ => nofun

theorem argument_ne_outside {abi : Abi} {argv : List ℕ} {memory : List UInt8} {i : ℕ}
    (h : i < argv.length) : argument abi argv memory i ≠ .error .outside := by
  refine bind_ne_outside ?_ fun _ _ => nofun
  rw [read_eq_ok.mpr (List.getElem?_eq_getElem h)]
  nofun

section Callers

variable (abi : Abi) (c : Config) (nl : Netlink) (wpa_s : Option WpaSupplicant) {cmd : CString}

/-- A caller leaves its argv exactly when there are more pieces than entries. -/
theorem caller_outside_iff {α : Type} {rest : List ℕ × List UInt8 → Checked α} (hzero : 0 ∉ cmd)
    (hrest : ∀ argv memory, rest (argv, memory) ≠ .error .outside) :
    (tokenize_space (cmd ++ [0]) 64 cmd.length >>= rest) = .error .outside ↔
      64 < (pieces cmd).length := by
  constructor
  · intro h
    by_contra hroom
    rcases tokenize_space_eq hzero (Nat.not_lt.mp hroom) with ⟨argv, hrun, -⟩
    rw [bind_of_ok hrun] at h
    exact hrest argv _ h
  · intro hroom
    rw [tokenize_space_outside hzero hroom]
    rfl

theorem deref_wpa_s_ne_outside {data : List UInt8} :
    (do
      let wpa_s ← deref wpa_s
      wpa_driver_nl80211_testmode c nl wpa_s.drv_priv (data.map some) data.length) ≠
        .error .outside := by
  refine bind_ne_outside ?_ fun _ _ => testmode_ne_outside (by rw [List.length_map])
  cases wpa_s with
  | none => nofun
  | some wpa_s => nofun

theorem set_noa_outside_iff (hzero : 0 ∉ cmd) :
    p2p_ctrl_iface_set_noa abi c nl wpa_s cmd = .error .outside ↔ 64 < (pieces cmd).length := by
  refine caller_outside_iff hzero fun argv memory => ?_
  dsimp only
  split_ifs with h
  · nofun
  · refine bind_ne_outside (argument_ne_outside (by omega)) fun _ _ => ?_
    refine bind_ne_outside (argument_ne_outside (by omega)) fun _ _ => ?_
    refine bind_ne_outside (argument_ne_outside (by omega)) fun _ _ => ?_
    exact deref_wpa_s_ne_outside c nl wpa_s

theorem set_ps_outside_iff (hzero : 0 ∉ cmd) :
    p2p_ctrl_iface_set_ps abi c nl wpa_s cmd = .error .outside ↔ 64 < (pieces cmd).length := by
  refine caller_outside_iff hzero fun argv memory => ?_
  dsimp only
  split_ifs with h
  · nofun
  · refine bind_ne_outside (argument_ne_outside (by omega)) fun _ _ => ?_
    refine bind_ne_outside (argument_ne_outside (by omega)) fun _ _ => ?_
    exact deref_wpa_s_ne_outside c nl wpa_s

/-- With enough room in argv a string is cut into its pieces; the 64 entries of the callers are
enough exactly when there are no more pieces. -/
theorem tokenize_space_in_callers (hzero : 0 ∉ cmd) :
    (∀ entries, (pieces cmd).length ≤ entries → Splits entries cmd) ∧
      (Splits 64 cmd ∧ p2p_ctrl_iface_set_noa abi c nl wpa_s cmd ≠ .error .outside ∧
          p2p_ctrl_iface_set_ps abi c nl wpa_s cmd ≠ .error .outside ↔
        (pieces cmd).length ≤ 64) := by
  refine ⟨fun entries hroom => (splits_iff entries hzero).mpr hroom, ?_⟩
  rw [splits_iff 64 hzero, ne_eq, set_noa_outside_iff abi c nl wpa_s hzero, ne_eq,
    set_ps_outside_iff abi c nl wpa_s hzero, Nat.not_lt, and_self, and_self]

end Callers

theorem tokenize_space_in_callers_of_noa :
    (∀ entries, (pieces (literal "P2P_SET_NOA 1 2 3")).length ≤ entries →
        Splits entries (literal "P2P_SET_NOA 1 2 3")) ∧
      (Splits 64 (literal "P2P_SET_NOA 1 2 3") ∧
          p2p_ctrl_iface_set_noa .lp64 (fun _ => true) ⟨true, true, fun _ => true, 0⟩ none
            (literal "P2P_SET_NOA 1 2 3") ≠ .error .outside ∧
          p2p_ctrl_iface_set_ps .lp64 (fun _ => true) ⟨true, true, fun _ => true, 0⟩ none
            (literal "P2P_SET_NOA 1 2 3") ≠ .error .outside ↔
        (pieces (literal "P2P_SET_NOA 1 2 3")).length ≤ 64) :=
  tokenize_space_in_callers .lp64 (fun _ => true) ⟨true, true, fun _ => true, 0⟩ none (by decide)

/-- P2P_SET_NOA and 64 times one more word. -/
def longCommand : CString := literal "P2P_SET_NOA" ++ (List.replicate 64 [32, 49]).flatten

theorem longCommand_leaves_argv :
    ¬ Splits 64 longCommand ∧
      p2p_ctrl_iface_set_noa .lp64 (fun _ => true) ⟨true, true, fun _ => true, 0⟩ none
        longCommand = .error .outside := by
  have hzero : 0 ∉ longCommand := by decide
  have hpieces : (pieces longCommand).length = 65 := by decide
  rw [splits_iff 64 hzero, set_noa_outside_iff _ _ _ _ hzero, hpieces]
  decide

/-! ## What is sent -/

/-- An interface in station or P2P mode that is set up, with messages that libnl can build. -/
structure Working (e : Surroundings) (ifindex : ℤ) : Prop where
  interface : ∃ drv ctx, e.drv = some drv ∧ drv.nlmodeAp = false ∧ drv.ctx = some ctx ∧
    ctx.conf = true ∧ ctx.drv_priv = some ⟨some ifindex⟩
  message : e.netlink.nlmsg_alloc = true ∧ e.netlink.putIfindex = true ∧
    ∀ data_len, e.netlink.putData data_len = true

/-- Nothing is sent but a test-mode message with this data, and where all is set up it is sent. -/
structure Sends (e : Surroundings) (data : List UInt8) (run : Checked (ℤ × List Sent)) : Prop where
  only : ∀ ret sent, run = .ok (ret, sent) → ∀ m ∈ sent,
    ∃ ifindex, m = .testmode ⟨ifindex, data.map some, .none⟩
  sent : ∀ ifindex, Working e ifindex →
    run = .ok (e.netlink.send_and_recv_msgs, [.testmode ⟨ifindex, data.map some, .none⟩])

theorem testmode_only {c : Config} {nl : Netlink} {priv : Option I802Bss} {data : List UInt8}
    {ret : ℤ} {sent : List Sent}
    (hplain : handlerOf c (headerIndex (data.map some) &&& indexMask) = .none)
    (h : wpa_driver_nl80211_testmode c nl priv (data.map some) data.length = .ok (ret, sent)) :
    ∀ m ∈ sent, ∃ ifindex, m = .testmode ⟨ifindex, data.map some, .none⟩ := by
  rcases bind_eq_ok.mp h with ⟨bss, -, h⟩
  split_ifs at h with halloc hput hlen
  · cases h
    intro m hm
    nomatch hm
  · rcases bind_eq_ok.mp h with ⟨ifindex, -, h⟩
    cases h
    intro m hm
    nomatch hm
  · rw [List.length_map] at hlen
    exact absurd hlen (Nat.lt_irrefl _)
  · rcases bind_eq_ok.mp h with ⟨ifindex, -, h⟩
    cases h
    intro m hm
    rw [List.mem_singleton.mp hm, hplain, List.take_of_length_le (by rw [List.length_map])]
    exact ⟨ifindex, rfl⟩

theorem testmode_sent {c : Config} {nl : Netlink} {ifindex : ℤ} {data : List UInt8}
    (hplain : handlerOf c (headerIndex (data.map some) &&& indexMask) = .none)
    (halloc : nl.nlmsg_alloc = true) (hindex : nl.putIfindex = true)
    (hdata : nl.putData data.length = true) :
    wpa_driver_nl80211_testmode c nl (some ⟨some ifindex⟩) (data.map some) data.length =
      .ok (nl.send_and_recv_msgs, [.testmode ⟨ifindex, data.map some, .none⟩]) := by
  have hput : ¬ (nl.putIfindex = false ∨ nl.putData data.length = false) := by
    rw [hindex, hdata]
    decide
  have hlen : ¬ (data.map some).length < data.length := by
    rw [List.length_map]
    exact Nat.lt_irrefl _
  refine (if_neg (by rw [halloc]; decide)).trans ((if_neg hput).trans ((if_neg hlen).trans ?_))
  rw [hplain, List.take_of_length_le (by rw [List.length_map])]
  rfl

theorem driver_cmd_set_up (e : Surroundings)
    (others : Branch → CString → Checked (ℤ × List Sent)) (cmd : CString) (sameBuf : Bool)
    (buf_len : ℕ) :
    wpa_driver_nl80211_driver_cmd e others cmd sameBuf buf_len = .ok (-1, []) ∨
      ∃ drv ctx, e.drv = some drv ∧ drv.ctx = some ctx ∧
        ¬ (drv.nlmodeAp = false ∧ ctx.conf = false) := by
  rw [wpa_driver_nl80211_driver_cmd]
  cases hdrv : e.drv with
  | none => exact .inl rfl
  | some drv =>
    cases hctx : drv.ctx with
    | none => exact .inl (by dsimp only; rw [hctx]; rfl)
    | some ctx =>
      by_cases hset : drv.nlmodeAp = false ∧ ctx.conf = false
      · exact .inl (by dsimp only; rw [hctx]; exact if_pos hset)
      · exact .inr ⟨drv, ctx, rfl, hctx, hset⟩

/-- The branch of a handled command that hands its data to the test mode of wpa_s. -/
theorem sends_of_branch {e : Surroundings} {others : Branch → CString → Checked (ℤ × List Sent)}
    {cmd : CString} {buf_len : ℕ} {data : List UInt8} {len : ℕ} (hlen : data.length = len)
    (hplain : handlerOf e.config (headerIndex (data.map some) &&& indexMask) = .none)
    (hrun : ∀ drv ctx wpa_s, e.drv = some drv → drv.ctx = some ctx →
      ¬ (drv.nlmodeAp = false ∧ ctx.conf = false) →
      wpa_s = (if drv.nlmodeAp then e.stray else some ctx) →
      wpa_driver_nl80211_driver_cmd e others cmd true buf_len = (do
        let wpa_s ← deref wpa_s
        wpa_driver_nl80211_testmode e.config e.netlink wpa_s.drv_priv (data.map some) len)) :
    Sends e data (wpa_driver_nl80211_driver_cmd e others cmd true buf_len) := by
  subst hlen
  constructor
  · intro ret sent h
    rcases driver_cmd_set_up e others cmd true buf_len with hnone | ⟨drv, ctx, hdrv, hctx, hset⟩
    · rw [hnone] at h
      cases h
      intro m hm
      nomatch hm
    · rw [hrun drv ctx _ hdrv hctx hset rfl] at h
      rcases bind_eq_ok.mp h with ⟨wpa_s, -, h⟩
      exact testmode_only hplain h
  · rintro ifindex ⟨⟨drv, ctx, hdrv, hap, hctx, hconf, hpriv⟩, halloc, hindex, hdata⟩
    have hset : ¬ (drv.nlmodeAp = false ∧ ctx.conf = false) := fun h => by
      rw [hconf] at h
      nomatch h.2
    rw [hrun drv ctx (some ctx) hdrv hctx hset (by rw [hap]; rfl)]
    show wpa_driver_nl80211_testmode _ _ ctx.drv_priv _ _ = _
    rw [hpriv]
    exact testmode_sent hplain halloc hindex (hdata _)

theorem number_printInt (abi : Abi) (x : Int32) : number abi (printInt x.toInt) = x :=
  atoi_printInt (by cases abi <;> decide) x

theorem promoted_byte (count : UInt8) :
    (Int32.ofNat count.toNat).toInt = count.toNat ∧
      (Int32.ofNat count.toNat).toUInt32 = count.toUInt32 :=
  forall_byte (P := fun count => (Int32.ofNat count.toNat).toInt = count.toNat ∧
    (Int32.ofNat count.toNat).toUInt32 = count.toUInt32) (by decide +kernel) count

theorem snprintf_fourWords {size : ℕ} {name x y z : CString}
    (hsize : name.length + x.length + y.length + z.length + 3 < size) :
    snprintf size (fourWords name x y z) = fourWords name x y z := by
  refine List.take_of_length_le ?_
  simp only [fourWords, List.length_append, List.length_cons]
  omega

theorem headerIndex_bytes (rest : List UInt8) :
    headerIndex ((intBytes (1 ||| version) ++ rest).map some) = 1 ||| version := by
  have htake : ((intBytes (1 ||| version) ++ rest).map some).take 4 =
      (intBytes (1 ||| version)).map some := rfl
  rw [headerIndex, htake]
  decide

theorem plain_index (c : Config) (rest : List UInt8) :
    handlerOf c (headerIndex ((intBytes (1 ||| version) ++ rest).map some) &&& indexMask) =
      .none := by
  rw [headerIndex_bytes]
  unfold handlerOf
  rw [if_neg (by decide), if_neg fun h => absurd h.2 (by decide)]

theorem ps_word (opp_ps ctwindow : Int32) :
    (if opp_ps ≠ 0 then ctwindow ||| 0x80 else ctwindow).toUInt32 =
      if opp_ps ≠ 0 then ctwindow.toUInt32 ||| 0x80 else ctwindow.toUInt32 := by
  split_ifs
  · rfl
  · rfl

section SetPowerSave

variable (e : Surroundings) (others : Branch → CString → Checked (ℤ × List Sent))
  {MAX_DRV_CMD_SIZE : ℕ} (hsize : 46 < MAX_DRV_CMD_SIZE)

include hsize

/-- The longest command is "P2P_SET_NOA" with ten digits and twice eleven characters. -/
theorem set_p2p_noa_sends (count : UInt8) (start duration : Int32) :
    Sends e (NoaParams.bytes ⟨count.toUInt32, start.toUInt32, duration.toUInt32⟩)
      (wpa_driver_set_p2p_noa e others MAX_DRV_CMD_SIZE count start duration) := by
  have hstart := printInt_length_le start
  have hduration := printInt_length_le duration
  rcases promoted_byte count with ⟨hint, hword⟩
  have hcount : (printInt count.toNat).length ≤ 10 :=
    decimal_length_le (Nat.lt_trans count.toNat_lt (by decide))
  have hbuf := @snprintf_fourWords MAX_DRV_CMD_SIZE (literal "P2P_SET_NOA") (printInt count.toNat)
    (printInt start.toInt) (printInt duration.toInt)
    (by rw [show (literal "P2P_SET_NOA").length = 11 from rfl]; omega)
  rw [wpa_driver_set_p2p_noa, hbuf]
  refine sends_of_branch rfl (plain_index e.config _) fun drv ctx wpa_s hdrv hctx hset hwpa => ?_
  rw [wpa_driver_nl80211_driver_cmd, hdrv]
  dsimp only
  rw [hctx]
  dsimp only
  rw [if_neg hset, ← hwpa, fourWords, branchOf_noa]
  refine (set_noa_eq (by decide) (printInt_isWord _) (printInt_isWord _)
    (printInt_isWord _)).trans ?_
  rw [number_printInt, number_printInt, ← hint, number_printInt, hword]
  rfl

theorem set_p2p_ps_sends (legacy_ps opp_ps ctwindow : Int32) :
    Sends e (sigmaBytes 107 (if opp_ps ≠ 0 then ctwindow.toUInt32 ||| 0x80 else ctwindow.toUInt32))
      (wpa_driver_set_p2p_ps e others MAX_DRV_CMD_SIZE legacy_ps opp_ps ctwindow) := by
  have hlegacy := printInt_length_le legacy_ps
  have hopp := printInt_length_le opp_ps
  have hwindow := printInt_length_le ctwindow
  have hbuf := @snprintf_fourWords MAX_DRV_CMD_SIZE (literal "P2P_SET_PS")
    (printInt legacy_ps.toInt) (printInt opp_ps.toInt) (printInt ctwindow.toInt)
    (by rw [show (literal "P2P_SET_PS").length = 10 from rfl]; omega)
  rw [wpa_driver_set_p2p_ps, hbuf]
  refine sends_of_branch rfl (plain_index e.config _) fun drv ctx wpa_s hdrv hctx hset hwpa => ?_
  rw [wpa_driver_nl80211_driver_cmd, hdrv]
  dsimp only
  rw [hctx]
  dsimp only
  rw [if_neg hset, ← hwpa, fourWords, branchOf_ps]
  refine (set_ps_eq (by decide) (printInt_isWord _) (printInt_isWord _)
    (printInt_isWord _)).trans ?_
  rw [number_printInt, number_printInt, ps_word]
  rfl

end SetPowerSave

/-- What is printed into a driver command comes out of it again. -/
theorem p2p_power_save_keeps_values (e : Surroundings)
    (others : Branch → CString → Checked (ℤ × List Sent)) (MAX_DRV_CMD_SIZE : ℕ)
    (hsize : 46 < MAX_DRV_CMD_SIZE) (count : UInt8)
    (start duration legacy_ps opp_ps ctwindow : Int32) :
    Sends e (NoaParams.bytes ⟨count.toUInt32, start.toUInt32, duration.toUInt32⟩)
        (wpa_driver_set_p2p_noa e others MAX_DRV_CMD_SIZE count start duration) ∧
      Sends e (sigmaBytes 107
          (if opp_ps ≠ 0 then ctwindow.toUInt32 ||| 0x80 else ctwindow.toUInt32))
        (wpa_driver_set_p2p_ps e others MAX_DRV_CMD_SIZE legacy_ps opp_ps ctwindow) :=
  ⟨set_p2p_noa_sends e others hsize count start duration,
    set_p2p_ps_sends e others hsize legacy_ps opp_ps ctwindow⟩

/-- A station interface that is set up. -/
def wlan0 : Surroundings :=
  ⟨.lp64, fun _ => true, ⟨true, true, fun _ => true, 0⟩,
    some ⟨3, false, some ⟨true, some ⟨some 3⟩⟩⟩, none, 0⟩

theorem p2p_power_save_keeps_extreme_values :
    Sends wlan0 (NoaParams.bytes ⟨(255 : UInt8).toUInt32, (-2147483648 : Int32).toUInt32,
          (2147483647 : Int32).toUInt32⟩)
        (wpa_driver_set_p2p_noa wlan0 (fun _ _ => .error .null) 47 255 (-2147483648) 2147483647) ∧
      Sends wlan0 (sigmaBytes 107 (if (1 : Int32) ≠ 0 then (-1 : Int32).toUInt32 ||| 0x80
          else (-1 : Int32).toUInt32))
        (wpa_driver_set_p2p_ps wlan0 (fun _ _ => .error .null) 47 0 1 (-1)) :=
  p2p_power_save_keeps_values wlan0 _ 47 (by decide) 255 (-2147483648) 2147483647 0 1 (-1)

end DriverPowerSave
