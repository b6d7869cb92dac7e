import Mathlib.Data.List.Range
import VendorMediatek.CStrings
import VendorMediatek.HandleLeaves

/-!
# What the Wi-Fi HAL takes and gives back

wifi_initialize with wifi_init_interfaces, and internal_cleaned_up_handler at the end of
wifi_cleanup: the memory, the sockets and the directory, over a whole life of the HAL.
-/

namespace WifiInitialize

open CStrings Handles

inductive Resource where
  | info
  | cleanup_socks (i : ℕ)
  | cmd_sock
  | event_sock
  | event_cb
  | cmd
  | dir
  | interfaces
  | interface_info (i : ℕ)
  deriving DecidableEq

/-- How far wifi_create_nl_socket gets. -/
inductive NlSocket where
  | noMemory | notConnected | connected
  deriving DecidableEq

/-- What the calls of an initialization return. A scan is what /sys/class/net lists, none where it
cannot be opened. -/
structure Calls where
  info : Bool
  socketpair : Bool
  cmd_sock : NlSocket
  event_sock : NlSocket
  cb : Bool
  event_cb : Bool
  cmd : Bool
  nl80211_family_id : ℤ
  firstScan : Option (List CString)
  interfaces : Bool
  secondScan : Option (List CString)
  memberships : Fin 4 → ℤ

inductive wifi_error where
  | WIFI_SUCCESS | WIFI_ERROR_UNKNOWN | WIFI_ERROR_OUT_OF_MEMORY | WIFI_ERROR_NOT_AVAILABLE
  deriving DecidableEq

def wifi_create_nl_socket (sock : Resource) : NlSocket → Bool × List (Event Resource)
  | .noMemory => (false, [])
  | .notConnected => (false, [.opened sock, .closed sock])
  | .connected => (true, [.opened sock])

def is_wifi_interface (name : CString) : Bool :=
  strncmpEq name (literal "wlan") 4 || strncmpEq name (literal "p2p") 3 ||
    strncmpEq name (literal "ap") 2

def wifiNames (names : List CString) : List CString :=
  names.filter fun name => name.head? ≠ some 46 ∧ is_wifi_interface name

/-- The array has an entry for each name that the first scan has found, and is filled with those that
the second one finds. -/
structure Interfaces where
  num_interfaces : ℕ
  found : List CString

def Interfaces.filled (ifs : Interfaces) : List Resource :=
  (List.range ifs.found.length).map .interface_info

def wifi_init_interfaces (c : Calls) : wifi_error × Option Interfaces × List (Event Resource) :=
  match c.firstScan with
  | none => (.WIFI_ERROR_UNKNOWN, none, [])
  | some names =>
    let scanned := [.opened .dir, .closed .dir]
    let n := (wifiNames names).length
    if n = 0 then (.WIFI_ERROR_NOT_AVAILABLE, none, scanned)
    else
      match c.secondScan with
      | none => (.WIFI_ERROR_UNKNOWN, none, scanned)
      | some names =>
        if c.interfaces then
          let ifs : Interfaces := ⟨n, wifiNames names⟩
          (.WIFI_SUCCESS, some ifs,
            scanned ++ [.opened .dir, .opened .interfaces] ++ ifs.filled.map .opened ++ [.closed .dir])
        else (.WIFI_ERROR_OUT_OF_MEMORY, none, scanned ++ [.opened .dir, .closed .dir])

def freeAll : List (Event Resource) :=
  [.closed .cmd_sock, .closed .event_sock, .closed .event_cb, .closed .cmd, .closed .info]

def wifi_initialize (c : Calls) : wifi_error × Option Interfaces × List (Event Resource) :=
  if !c.info then (.WIFI_ERROR_OUT_OF_MEMORY, none, [])
  else if !c.socketpair then (.WIFI_ERROR_UNKNOWN, none, [.opened .info, .closed .info])
  else
    let log := [.opened .info, .opened (.cleanup_socks 0), .opened (.cleanup_socks 1)]
    let cmd_sock := wifi_create_nl_socket .cmd_sock c.cmd_sock
    let log := log ++ cmd_sock.2
    if !cmd_sock.1 then (.WIFI_ERROR_UNKNOWN, none, log ++ [.closed .info])
    else
      let event_sock := wifi_create_nl_socket .event_sock c.event_sock
      let log := log ++ event_sock.2
      if !event_sock.1 then (.WIFI_ERROR_UNKNOWN, none, log ++ [.closed .cmd_sock, .closed .info])
      else if !c.cb then
        (.WIFI_ERROR_UNKNOWN, none, log ++ [.closed .cmd_sock, .closed .event_sock, .closed .info])
      else if !c.event_cb then
        (.WIFI_ERROR_OUT_OF_MEMORY, none,
          log ++ [.closed .cmd_sock, .closed .event_sock, .closed .info])
      else
        let log := log ++ [.opened .event_cb]
        if !c.cmd then
          (.WIFI_ERROR_OUT_OF_MEMORY, none,
            log ++ [.closed .cmd_sock, .closed .event_sock, .closed .event_cb, .closed .info])
        else
          let log := log ++ [.opened .cmd]
          if c.nl80211_family_id < 0 then (.WIFI_ERROR_UNKNOWN, none, log ++ freeAll)
          else
            match wifi_init_interfaces c with
            | (.WIFI_SUCCESS, some ifs, taken) =>
              let log := log ++ taken
              if ∃ group, c.memberships group < 0 then
                (.WIFI_ERROR_NOT_AVAILABLE, none, log ++ freeAll)
              else (.WIFI_SUCCESS, some ifs, log)
            | (_, _, taken) => (.WIFI_ERROR_NOT_AVAILABLE, none, log ++ taken ++ freeAll)

/-- free does nothing for an entry that has not been filled. -/
def internal_cleaned_up_handler (ifs : Interfaces) : List (Event Resource) :=
  [.closed (.cleanup_socks 0), .closed (.cleanup_socks 1), .closed .cmd_sock, .closed .event_sock] ++
    (ifs.filled.take ifs.num_interfaces).map .closed ++ [.closed .interfaces, .closed .info]

/-- A life of the HAL: an initialization and, where it succeeds, a cleanup. -/
def life (c : Calls) : List (Event Resource) :=
  match wifi_initialize c with
  | (_, some ifs, log) => log ++ internal_cleaned_up_handler ifs
  | (_, none, log) => log

/-- The second scan finds no more than there is room for. -/
def Fits (c : Calls) : Prop :=
  ∀ ifs ∈ (wifi_init_interfaces c).2.1, ifs.found.length ≤ ifs.num_interfaces

/-- Everything that wifi_initialize does before it looks for interfaces has succeeded. -/
def Opened (c : Calls) : Prop :=
  c.info = true ∧ c.socketpair = true ∧ c.cmd_sock = .connected ∧ c.event_sock = .connected ∧
    c.cb = true ∧ c.event_cb = true ∧ c.cmd = true ∧ 0 ≤ c.nl80211_family_id

instance (c : Calls) : Decidable (Opened c) := inferInstanceAs (Decidable (_ ∧ _))

def left (c : Calls) : List Resource :=
  if ( wifi_initialize c).2.1.isSome then [.event_cb, .cmd]
  else if c.info ∧ c.socketpair then
    (if Opened c then (wifi_init_interfaces c).2.1.elim [] fun ifs => .interfaces :: ifs.filled
      else []) ++ [.cleanup_socks 0, .cleanup_socks 1]
  else []

/-! ## What is left -/

theorem leaves_filled (ifs : Interfaces) {log : List (Event Resource)} {held : List Resource}
    (h : Leaves log held) :
    Leaves (log ++ ([.opened .dir, .opened .interfaces] ++ ifs.filled.map .opened ++ [.closed .dir]))
      (.interfaces :: ifs.filled ++ held) := by
  have hopened := (h.opened [.dir, .interfaces]).opened ifs.filled
  have hperm : (ifs.filled ++ ([Resource.dir, .interfaces] ++ held)).Perm
      ([Resource.dir] ++ (.interfaces :: ifs.filled ++ held)) := by
    rw [← List.append_assoc]
    exact List.perm_append_comm.append_right held
  have hclosed := (hopened.perm hperm).closed
  simpa only [List.map_cons, List.map_nil, List.append_assoc] using hclosed

theorem leaves_wifi_init_interfaces (c : Calls) {log : List (Event Resource)} {held : List Resource}
    (h : Leaves log held) :
    Leaves (log ++ (wifi_init_interfaces c).2.2)
      ((wifi_init_interfaces c).2.1.elim [] (fun ifs => .interfaces :: ifs.filled) ++ held) := by
  have hscanned := h.passed .dir
  unfold wifi_init_interfaces
  split
  · rw [List.append_nil]
    exact h
  · next names _ =>
    simp only
    split
    · exact hscanned
    · split
      · exact hscanned
      · next found _ =>
        split
        · have hfilled := leaves_filled ⟨(wifiNames names).length, wifiNames found⟩ hscanned
          rw [List.append_assoc] at hfilled
          exact hfilled
        · have hdir := hscanned.passed .dir
          rw [List.append_assoc] at hdir
          exact hdir

theorem wifi_init_interfaces_cases (c : Calls) :
    (∃ ifs taken, wifi_init_interfaces c = (.WIFI_SUCCESS, some ifs, taken)) ∨
      ∃ error taken, wifi_init_interfaces c = (error, none, taken) ∧ error ≠ .WIFI_SUCCESS := by
  unfold wifi_init_interfaces
  split
  · exact .inr ⟨_, _, rfl, nofun⟩
  · simp only
    split
    · exact .inr ⟨_, _, rfl, nofun⟩
    · split
      · exact .inr ⟨_, _, rfl, nofun⟩
      · split
        · exact .inl ⟨_, _, rfl⟩
        · exact .inr ⟨_, _, rfl, nofun⟩

def openedLog : List (Event Resource) :=
  [.opened .info, .opened (.cleanup_socks 0), .opened (.cleanup_socks 1), .opened .cmd_sock,
    .opened .event_sock, .opened .event_cb, .opened .cmd]

def openedHeld : List Resource :=
  [.cmd_sock, .event_sock, .event_cb, .cmd, .info, .cleanup_socks 0, .cleanup_socks 1]

theorem leaves_openedLog : Leaves openedLog openedHeld := ⟨_, rfl, by decide⟩

theorem wifi_initialize_of_opened {c : Calls} (h : Opened c) :
    wifi_initialize c =
      match wifi_init_interfaces c with
      | (.WIFI_SUCCESS, some ifs, taken) =>
        if ∃ group, c.memberships group < 0 then
          (.WIFI_ERROR_NOT_AVAILABLE, none, openedLog ++ taken ++ freeAll)
        else (.WIFI_SUCCESS, some ifs, openedLog ++ taken)
      | (_, _, taken) => (.WIFI_ERROR_NOT_AVAILABLE, none, openedLog ++ taken ++ freeAll) := by
  obtain ⟨hinfo, hsockets, hcmd_sock, hevent_sock, hcb, hevent_cb, hcmd, hfamily⟩ := h
  simp only [hinfo, hsockets, hcmd_sock, hevent_sock, hcb, hevent_cb, hcmd, wifi_initialize,
    wifi_create_nl_socket, Bool.not_true, Bool.false_eq_true, if_false, Int.not_lt.mpr hfamily]
  rfl

theorem wifi_initialize_of_no_sockets {c : Calls} (h : ¬(c.info = true ∧ c.socketpair = true)) :
    ∃ error log, wifi_initialize c = (error, none, log) ∧ Leaves log [] := by
  unfold wifi_initialize
  cases hinfo : c.info with
  | false => exact ⟨_, _, rfl, leaves_nil⟩
  | true =>
    cases hsockets : c.socketpair with
    | false => exact ⟨_, _, rfl, leaves_nil.passed Resource.info⟩
    | true => exact absurd ⟨hinfo, hsockets⟩ h

theorem wifi_initialize_of_not_opened {c : Calls} (hinfo : c.info = true)
    (hsockets : c.socketpair = true) (h : ¬Opened c) :
    ∃ error log, wifi_initialize c = (error, none, log) ∧
      Leaves log [.cleanup_socks 0, .cleanup_socks 1] := by
  unfold wifi_initialize
  rw [hinfo, hsockets]
  cases hcmd_sock : c.cmd_sock with
  | noMemory => exact ⟨_, _, rfl, _, rfl, by decide⟩
  | notConnected => exact ⟨_, _, rfl, _, rfl, by decide⟩
  | connected =>
    cases hevent_sock : c.event_sock with
    | noMemory => exact ⟨_, _, rfl, _, rfl, by decide⟩
    | notConnected => exact ⟨_, _, rfl, _, rfl, by decide⟩
    | connected =>
      cases hcb : c.cb with
      | false => exact ⟨_, _, rfl, _, rfl, by decide⟩
      | true =>
        cases hevent_cb : c.event_cb with
        | false => exact ⟨_, _, rfl, _, rfl, by decide⟩
        | true =>
          cases hcmd : c.cmd with
          | false => exact ⟨_, _, rfl, _, rfl, by decide⟩
          | true =>
            have hfamily : c.nl80211_family_id < 0 := by
              by_contra hok
              exact h ⟨hinfo, hsockets, hcmd_sock, hevent_sock, hcb, hevent_cb, hcmd,
                Int.not_lt.mp hok⟩
            refine ⟨.WIFI_ERROR_UNKNOWN, openedLog ++ freeAll, ?_, _, rfl, by decide⟩
            simp only [wifi_create_nl_socket, hfamily, if_true]
            rfl

theorem leaves_freeAll {log : List (Event Resource)} {others : List Resource}
    (h : Leaves log (others ++ openedHeld)) :
    Leaves (log ++ freeAll) (others ++ [.cleanup_socks 0, .cleanup_socks 1]) := by
  have hperm : (others ++ openedHeld).Perm
      ([.cmd_sock, .event_sock, .event_cb, .cmd, .info] ++
        (others ++ [.cleanup_socks 0, .cleanup_socks 1])) :=
    List.perm_append_comm_assoc others [.cmd_sock, .event_sock, .event_cb, .cmd, .info]
      [.cleanup_socks 0, .cleanup_socks 1]
  exact (h.perm hperm).closed

theorem leaves_cleaned_up {ifs : Interfaces} (hfits : ifs.found.length ≤ ifs.num_interfaces)
    {log : List (Event Resource)} (h : Leaves log (.interfaces :: ifs.filled ++ openedHeld)) :
    Leaves (log ++ internal_cleaned_up_handler ifs) [.event_cb, .cmd] := by
  have htake : ifs.filled.take ifs.num_interfaces = ifs.filled :=
    List.take_of_length_le (by simpa [Interfaces.filled] using hfits)
  have hperm : (.interfaces :: ifs.filled ++ openedHeld).Perm
      ([.cleanup_socks 0, .cleanup_socks 1, .cmd_sock, .event_sock] ++
        (ifs.filled ++ ([.interfaces, .info] ++ [.event_cb, .cmd]))) := by
    have hheld : (Resource.interfaces :: openedHeld).Perm
        ([.cleanup_socks 0, .cleanup_socks 1, .cmd_sock, .event_sock] ++
          ([.interfaces, .info] ++ [.event_cb, .cmd])) := by decide
    refine List.perm_middle.symm.trans ((hheld.append_left ifs.filled).trans ?_)
    exact List.perm_append_comm_assoc _ _ _
  have hclosed := (((h.perm hperm).closed).closed).closed
  rw [internal_cleaned_up_handler, htake]
  simpa only [List.map_cons, List.map_nil, List.append_assoc] using hclosed

theorem leaves_life {c : Calls} (hfits : Fits c) : Leaves (life c) (left c) := by
  by_cases hsockets : c.info = true ∧ c.socketpair = true
  · by_cases hopened : Opened c
    · have hinterfaces := leaves_wifi_init_interfaces c leaves_openedLog
      rcases wifi_init_interfaces_cases c with ⟨ifs, taken, heq⟩ | ⟨error, taken, heq, herror⟩
      · rw [heq] at hinterfaces
        by_cases hgroups : ∃ group, c.memberships group < 0
        · have hinit : wifi_initialize c =
              (.WIFI_ERROR_NOT_AVAILABLE, none, openedLog ++ taken ++ freeAll) := by
            rw [wifi_initialize_of_opened hopened, heq]
            exact if_pos hgroups
          simp only [life, left, hinit, heq]
          rw [if_neg nofun, if_pos hsockets, if_pos hopened]
          exact leaves_freeAll hinterfaces
        · have hinit : wifi_initialize c = (.WIFI_SUCCESS, some ifs, openedLog ++ taken) := by
            rw [wifi_initialize_of_opened hopened, heq]
            exact if_neg hgroups
          simp only [life, left, hinit]
          rw [if_pos Option.isSome_some]
          exact leaves_cleaned_up (hfits ifs (by rw [heq]; rfl)) hinterfaces
      · rw [heq] at hinterfaces
        have hinit : wifi_initialize c =
            (.WIFI_ERROR_NOT_AVAILABLE, none, openedLog ++ taken ++ freeAll) := by
          rw [wifi_initialize_of_opened hopened, heq]
          cases error <;> rfl
        simp only [life, left, hinit, heq]
        rw [if_neg nofun, if_pos hsockets, if_pos hopened]
        exact leaves_freeAll hinterfaces
    · obtain ⟨error, log, hinit, hleaves⟩ :=
        wifi_initialize_of_not_opened hsockets.1 hsockets.2 hopened
      simp only [life, left, hinit]
      rw [if_neg nofun, if_pos hsockets, if_neg hopened]
      exact hleaves
  · obtain ⟨error, log, hinit, hleaves⟩ := wifi_initialize_of_no_sockets hsockets
    simp only [life, left, hinit]
    rw [if_neg nofun, if_neg hsockets]
    exact hleaves

/-- A life of the Wi-Fi HAL leaves just that, so it gives back all it has taken only when it fails at
once. -/
theorem life_leaves {c : Calls} (hfits : Fits c) :
    Leaves (life c) (left c) ∧ (Settled (life c) ↔ ¬(c.info = true ∧ c.socketpair = true)) := by
  refine ⟨leaves_life hfits, ?_⟩
  rw [(leaves_life hfits).settled_iff_nil, left]
  split
  · next hsome =>
    refine iff_of_false nofun fun hsockets => ?_
    obtain ⟨error, log, hinit, -⟩ := wifi_initialize_of_no_sockets hsockets
    rw [hinit] at hsome
    cases hsome
  · split
    · next hsockets => exact iff_of_false (by simp) fun hnot => hnot hsockets
    · next hsockets => exact iff_of_true rfl hsockets

/-- Two interfaces are found in both scans. -/
def twoInterfaces : Calls where
  info := true
  socketpair := true
  cmd_sock := .connected
  event_sock := .connected
  cb := true
  event_cb := true
  cmd := true
  nl80211_family_id := 26
  firstScan := some [[46], literal "lo", literal "wlan0", literal "p2p0"]
  interfaces := true
  secondScan := some [[46], literal "wlan0", literal "p2p0", literal "lo"]
  memberships := fun _ => 0

theorem life_leaves_twoInterfaces :
    Leaves (life twoInterfaces) (left twoInterfaces) ∧ (Settled (life twoInterfaces) ↔
      ¬(twoInterfaces.info = true ∧ twoInterfaces.socketpair = true)) := by
  refine life_leaves fun ifs hifs => ?_
  cases hifs
  decide

end WifiInitialize
