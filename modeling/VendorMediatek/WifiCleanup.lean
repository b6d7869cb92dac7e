import Mathlib.Data.Int.Notation
import Mathlib.Data.List.Nodup
import Mathlib.Data.List.Perm.Basic

/-!
# The commands that are left at the cleanup of the WiFi HAL

The loop of wifi_cleanup of wifi_hal.cpp, which cancels what is still in the command table, with the
removal from the table by common.cpp. What cancel() does to the table is a parameter.
-/

namespace WifiCleanup

universe u

variable {γ : Type u}

/-- An entry of the table; the pointer to the command may be NULL. -/
structure CmdInfo (γ : Type u) where
  id : ℤ
  cmd : Option γ
  deriving DecidableEq, Repr

inductive Call (γ : Type u) where
  | cancel (cmd : γ)
  | releaseRef (cmd : γ)
  deriving DecidableEq, Repr

def handle (cmd : γ) : List (Call γ) := [.cancel cmd, .releaseRef cmd]

/-- wifi_unregister_cmd of a command: the gap is closed. -/
def wifiUnregisterCmd [DecidableEq γ] (table : List (CmdInfo γ)) (cmd : γ) : List (CmdInfo γ) :=
  table.eraseP fun e => e.cmd = some cmd

/-- The table is as before, or an entry of the command is gone. -/
def OwnEntry (table : List (CmdInfo γ)) (cmd : γ) (after : List (CmdInfo γ)) : Prop :=
  after = table ∨ ∃ i e, table[i]? = some e ∧ e.cmd = some cmd ∧ after = table.eraseIdx i

/-- What cancel() of a command leaves of the table, behind the calls that have been made. -/
structure Canceller (γ : Type u) where
  cancel : List (Call γ) → List (CmdInfo γ) → γ → List (CmdInfo γ)
  own : ∀ calls table cmd, OwnEntry table cmd (cancel calls table cmd)

structure State (γ : Type u) where
  table : List (CmdInfo γ)
  badCommands : ℕ
  calls : List (Call γ)

/-- One turn. A NULL entry is passed over without any progress. -/
def turn (c : Canceller γ) (s : State γ) : State γ :=
  match (s.table[s.badCommands]?).bind CmdInfo.cmd with
  | none => s
  | some cmd =>
    let table := c.cancel s.calls s.table cmd
    { table
      badCommands := if s.table.length = table.length then s.badCommands + 1 else s.badCommands
      calls := s.calls ++ handle cmd }

/-- while (info->num_cmd > bad_commands) -/
def loop (c : Canceller γ) : ℕ → State γ → Option (State γ)
  | 0, _ => none
  | fuel + 1, s => if s.badCommands < s.table.length then loop c fuel (turn c s) else some s

def wifiCleanup (c : Canceller γ) (table : List (CmdInfo γ)) (fuel : ℕ) : Option (State γ) :=
  loop c fuel ⟨table, 0, []⟩

/-! ## What is removed -/

theorem ownEntry_wifiUnregisterCmd [DecidableEq γ] (table : List (CmdInfo γ)) (cmd : γ) :
    OwnEntry table cmd (wifiUnregisterCmd table cmd) := by
  rw [OwnEntry, wifiUnregisterCmd, List.eraseP_eq_eraseIdx]
  rcases hfind : table.findIdx? _ with _ | i
  · exact .inl rfl
  · obtain ⟨hi, hcmd, -⟩ := List.findIdx?_eq_some_iff_getElem.mp hfind
    exact .inr ⟨i, table[i], List.getElem?_eq_getElem hi, of_decide_eq_true hcmd, rfl⟩

theorem drop_eraseIdx_of_lt {α : Type u} {l : List α} {i n : ℕ} (h : i < n) :
    (l.eraseIdx i).drop n = l.drop (n + 1) := by
  refine List.ext_getElem? fun j => ?_
  rw [List.getElem?_drop, List.getElem?_drop, List.getElem?_eraseIdx, if_neg (by omega)]
  congr 1
  omega

theorem drop_eraseIdx_of_le {α : Type u} {l : List α} {i n : ℕ} (h : n ≤ i) :
    (l.eraseIdx i).drop n = (l.drop n).eraseIdx (i - n) := by
  refine List.ext_getElem? fun j => ?_
  rw [List.getElem?_drop, List.getElem?_eraseIdx, List.getElem?_eraseIdx, List.getElem?_drop,
    List.getElem?_drop]
  by_cases hj : n + j < i
  · rw [if_pos hj, if_pos (by omega)]
  · rw [if_neg hj, if_neg (by omega)]
    rfl

def commands (table : List (CmdInfo γ)) : List γ := table.filterMap CmdInfo.cmd

/-- Whichever entry of a command goes, and also if none does, what is left behind the bad commands
has lost the command once. -/
theorem commands_drop_perm {table after : List (CmdInfo γ)} {bad : ℕ} {e : CmdInfo γ} {cmd : γ}
    (he : table[bad]? = some e) (hcmd : e.cmd = some cmd) (hown : OwnEntry table cmd after) :
    (cmd :: commands (after.drop (if table.length = after.length then bad + 1 else bad))).Perm
      (commands (table.drop bad)) := by
  obtain ⟨hbad, rfl⟩ := List.getElem?_eq_some_iff.mp he
  have hdrop : commands (table.drop bad) = cmd :: commands (table.drop (bad + 1)) := by
    rw [List.drop_eq_getElem_cons hbad, commands, List.filterMap_cons_some hcmd, commands]
  rcases hown with rfl | ⟨i, e, hi, hei, rfl⟩
  · rw [if_pos rfl, hdrop]
  · obtain ⟨hlt, rfl⟩ := List.getElem?_eq_some_iff.mp hi
    have hlength : table.length ≠ (table.eraseIdx i).length := by
      rw [List.length_eraseIdx_of_lt hlt]
      omega
    rw [if_neg hlength]
    rcases Nat.lt_or_ge i bad with hbefore | hbehind
    · rw [drop_eraseIdx_of_lt hbefore, hdrop]
    · rw [drop_eraseIdx_of_le hbehind]
      have hrest : i - bad < (table.drop bad).length := by
        rw [List.length_drop]
        omega
      have hentry : (table.drop bad)[i - bad].cmd = some cmd := by
        rw [List.getElem_drop]
        simpa only [Nat.add_sub_cancel' hbehind] using hei
      have hperm := (List.getElem_cons_eraseIdx_perm hrest).filterMap CmdInfo.cmd
      rwa [List.filterMap_cons_some hentry] at hperm

/-! ## The loop -/

def NoNull (table : List (CmdInfo γ)) : Prop := ∀ e ∈ table, e.cmd ≠ none

instance (table : List (CmdInfo γ)) : Decidable (NoNull table) :=
  inferInstanceAs (Decidable (∀ e ∈ table, e.cmd ≠ none))

theorem NoNull.of_own {table after : List (CmdInfo γ)} {cmd : γ} (h : NoNull table)
    (hown : OwnEntry table cmd after) : NoNull after := by
  rcases hown with rfl | ⟨i, e, -, -, rfl⟩
  · exact h
  · exact fun e he => h e (List.mem_of_mem_eraseIdx he)

theorem turn_eq (c : Canceller γ) {s : State γ} {e : CmdInfo γ} {cmd : γ}
    (he : s.table[s.badCommands]? = some e) (hcmd : e.cmd = some cmd) :
    turn c s =
      { table := c.cancel s.calls s.table cmd
        badCommands := if s.table.length = (c.cancel s.calls s.table cmd).length
          then s.badCommands + 1 else s.badCommands
        calls := s.calls ++ handle cmd } := by
  have hentry : (s.table[s.badCommands]?).bind CmdInfo.cmd = some cmd := by
    rw [he, Option.bind_some, hcmd]
  rw [turn, hentry]

theorem left_of_own {table after : List (CmdInfo γ)} {cmd : γ} {bad : ℕ}
    (hown : OwnEntry table cmd after) (hbad : bad < table.length) :
    after.length - (if table.length = after.length then bad + 1 else bad) + 1 =
      table.length - bad := by
  rcases hown with rfl | ⟨i, e, hi, -, rfl⟩
  · rw [if_pos rfl]
    omega
  · obtain ⟨hlt, -⟩ := List.getElem?_eq_some_iff.mp hi
    rw [List.length_eraseIdx_of_lt hlt, if_neg (by omega)]
    omega

/-- A turn cancels and releases one command, and that command is no longer left. -/
theorem turn_handles (c : Canceller γ) {s : State γ} (hnull : NoNull s.table)
    (hmore : s.badCommands < s.table.length) :
    ∃ cmd, (turn c s).calls = s.calls ++ handle cmd ∧ NoNull (turn c s).table ∧
      (cmd :: commands ((turn c s).table.drop (turn c s).badCommands)).Perm
        (commands (s.table.drop s.badCommands)) ∧
      (turn c s).table.length - (turn c s).badCommands + 1 = s.table.length - s.badCommands := by
  have he := List.getElem?_eq_getElem hmore
  obtain ⟨cmd, hcmd⟩ := Option.ne_none_iff_exists'.mp (hnull _ (List.getElem_mem hmore))
  have hown := c.own s.calls s.table cmd
  rw [turn_eq c he hcmd]
  exact ⟨cmd, rfl, hnull.of_own hown, commands_drop_perm he hcmd hown, left_of_own hown hmore⟩

/-- The loop makes one turn for each entry that is left and deals with the commands of these. -/
theorem loop_handles (c : Canceller γ) {n : ℕ} {s : State γ} (hnull : NoNull s.table)
    (hn : s.table.length - s.badCommands = n) :
    ∃ (final : State γ) (handled : List γ), loop c (n + 1) s = some final ∧
      handled.Perm (commands (s.table.drop s.badCommands)) ∧
      final.calls = s.calls ++ handled.flatMap handle := by
  induction n generalizing s with
  | zero =>
    have hdone : ¬ s.badCommands < s.table.length := by omega
    refine ⟨s, [], ?_, ?_, ?_⟩
    · rw [loop, if_neg hdone]
    · rw [List.drop_eq_nil_of_le (Nat.not_lt.mp hdone)]
      exact List.Perm.nil
    · exact (List.append_nil _).symm
  | succ n ih =>
    have hmore : s.badCommands < s.table.length := by omega
    obtain ⟨cmd, hcalls, hkept, hperm, hleft⟩ := turn_handles c hnull hmore
    obtain ⟨final, handled, hfinal, hrest, htrace⟩ := ih hkept (by omega)
    refine ⟨final, cmd :: handled, ?_, (hrest.cons cmd).trans hperm, ?_⟩
    · rw [loop, if_pos hmore, hfinal]
    · rw [htrace, hcalls, List.flatMap_cons, List.append_assoc]

theorem count_handle [DecidableEq γ] (handled : List γ) (cmd : γ) :
    (handled.flatMap handle).count (.cancel cmd) = handled.count cmd ∧
      (handled.flatMap handle).count (.releaseRef cmd) = handled.count cmd := by
  induction handled with
  | nil => exact ⟨rfl, rfl⟩
  | cons c handled ih =>
    have hcancel : (handle c).count (.cancel cmd) = if c = cmd then 1 else 0 := by
      simp [handle, List.count_cons]
    have hrelease : (handle c).count (.releaseRef cmd) = if c = cmd then 1 else 0 := by
      simp [handle, List.count_cons]
    rw [List.flatMap_cons, List.count_append, List.count_append, List.count_cons, ih.1, ih.2,
      hcancel, hrelease, Nat.add_comm]
    simp only [beq_iff_eq, and_self]

theorem loop_null (c : Canceller γ) {s : State γ} {e : CmdInfo γ}
    (he : s.table[s.badCommands]? = some e) (hnone : e.cmd = none) (fuel : ℕ) :
    loop c fuel s = none := by
  have hturn : turn c s = s := by
    have hentry : (s.table[s.badCommands]?).bind CmdInfo.cmd = none := by
      rw [he, Option.bind_some, hnone]
    rw [turn, hentry]
  have hmore := (List.getElem?_eq_some_iff.mp he).1
  induction fuel with
  | zero => rfl
  | succ fuel ih => rw [loop, if_pos hmore, hturn, ih]

/-- The loop ends after one turn for each entry. It calls cancel() and releaseRef() one after the
other on the command of each entry, and on nothing else: once on a command that has one entry. -/
theorem wifiCleanup_cancels [DecidableEq γ] (c : Canceller γ) (table : List (CmdInfo γ))
    (hnull : NoNull table) :
    ∃ (final : State γ) (handled : List γ), wifiCleanup c table (table.length + 1) = some final ∧
      handled.Perm (commands table) ∧ final.calls = handled.flatMap handle ∧
      (∀ cmd, final.calls.count (.cancel cmd) = (commands table).count cmd ∧
        final.calls.count (.releaseRef cmd) = (commands table).count cmd) ∧
      ((commands table).Nodup → ∀ cmd ∈ commands table,
        final.calls.count (.cancel cmd) = 1 ∧ final.calls.count (.releaseRef cmd) = 1) := by
  obtain ⟨final, handled, hfinal, hperm, hcalls⟩ :=
    loop_handles c (s := ⟨table, 0, []⟩) hnull rfl
  have hcount : ∀ cmd, final.calls.count (.cancel cmd) = (commands table).count cmd ∧
      final.calls.count (.releaseRef cmd) = (commands table).count cmd := by
    intro cmd
    obtain ⟨hcancel, hrelease⟩ := count_handle handled cmd
    rw [hcalls, List.nil_append, hcancel, hrelease, hperm.count_eq]
    exact ⟨rfl, rfl⟩
  refine ⟨final, handled, hfinal, hperm, hcalls, hcount, fun hnodup cmd hcmd => ?_⟩
  rw [(hcount cmd).1, (hcount cmd).2, List.count_eq_one_of_mem hnodup hcmd]
  exact ⟨rfl, rfl⟩

/-- Some commands remove their entry, the others leave the table as it is. -/
def unregistering [DecidableEq γ] (p : γ → Bool) : Canceller γ where
  cancel _ table cmd := if p cmd then wifiUnregisterCmd table cmd else table
  own _ table cmd := by
    split_ifs
    · exact ownEntry_wifiUnregisterCmd table cmd
    · exact .inl rfl

/-- The command in the middle removes its entry. -/
theorem wifiCleanup_cancels_three :
    ∃ (final : State ℕ) (handled : List ℕ),
      wifiCleanup (unregistering (· == 20)) [⟨1, some 10⟩, ⟨2, some 20⟩, ⟨3, some 30⟩] 4 =
        some final ∧ handled.Perm [10, 20, 30] ∧ final.calls = handled.flatMap handle := by
  obtain ⟨final, handled, hfinal, hperm, hcalls, -⟩ :=
    wifiCleanup_cancels (unregistering (· == 20)) [⟨1, some 10⟩, ⟨2, some 20⟩, ⟨3, some 30⟩]
      (by decide)
  exact ⟨final, handled, hfinal, hperm, hcalls⟩

end WifiCleanup
