import VendorMediatek.WifiHandlers

/-!
# Who owns an event handler

The tables tell a handler by its event type and a command by its id, never by the owner. As long as
the entry that is found is the command's own, every entry of the callback table refers to a live
command.
-/

namespace WifiHandlers

open LabelledRuns

/-- Of the entries for the type that is unregistered the first, if there is one, is the command's
own; a command found by its id has not been freed; and a handler for NL80211_CMD_VENDOR has not
been registered by requestEvent. -/
def OwnsFirst (s : State) (e : Event) : Prop :=
  ∀ c t, unregisters s e = some (c, t) → (c ≠ s.created → s.Live c) ∧
    t ≠ .plain nl80211CmdVendor ∧ ∀ i ∈ s.eventCb.find? t.removes, i.cbArg = c

instance (s : State) (e : Event) : Decidable (OwnsFirst s e) :=
  decidable_of_iff (∀ p ∈ unregisters s e, (p.1 ≠ s.created → s.Live p.1) ∧
    p.2 ≠ .plain nl80211CmdVendor ∧ ∀ i ∈ s.eventCb.find? p.2.removes, i.cbArg = p.1)
    ⟨fun h c t hc => h (c, t) hc, fun h p hp => h p.1 p.2 hp⟩

/-- A step that unregisters a handler of a command takes all its entries out, and no others. -/
def RemovesOwn (s : State) (e : Event) : Prop :=
  ∀ c t, unregisters s e = some (c, t) →
    (next s e).eventCb = s.eventCb.filter fun i => i.cbArg ≠ c

/-- The handler that an event is given to belongs to a live command. -/
def CallsLive (s : State) : Event → Prop
  | .dispatch cmd vendorId subcmd => ∀ i ∈ findHandler s cmd vendorId subcmd, s.Live i.cbArg
  | _ => True

/-- No entry refers to a freed command or to one that has unregistered its handler. -/
def Sound (s : State) : Prop :=
  ∀ i ∈ s.eventCb, s.Live i.cbArg ∧ s.unregistered i.cbArg = false

/-- The reference that the command was created with, until it is given up. -/
def Role.refs : Role → ℤ
  | .absent | .released => 0
  | _ => 1

/-- The reference that is taken for the call of a handler. -/
def callRefs (dispatching : Option ℕ) (c : ℕ) : ℤ := if dispatching = some c then 1 else 0

theorem callRefs_nonneg (dispatching : Option ℕ) (c : ℕ) : 0 ≤ callRefs dispatching c := by
  simp only [callRefs]
  split <;> omega

theorem callRefs_of_ne {dispatching : Option ℕ} {c : ℕ} (h : dispatching ≠ some c) :
    callRefs dispatching c = 0 := if_neg h

@[simp] theorem callRefs_self (c : ℕ) : callRefs (some c) c = 1 := if_pos rfl
@[simp] theorem callRefs_none (c : ℕ) : callRefs none c = 0 := rfl

structure Owned (s : State) : Prop where
  refs : ∀ c, s.mRefs c = (s.role c).refs + callRefs s.dispatching c
  fresh : ∀ c, s.created ≤ c ↔ s.role c = .absent
  entry : ∀ i ∈ s.eventCb, (∃ t, s.role i.cbArg = .waiting t ∧ i = t.entry i.cbArg) ∨
    s.role i.cbArg = .monitor ∧ i = rssiMonitor.entry i.cbArg
  nodup : (s.eventCb.map CbInfo.cbArg).Nodup
  waiting : ∀ c t, s.role c = .waiting t → t.entry c ∈ s.eventCb
  table : ∀ i ∈ s.cmd, s.role i.cmd = .monitor ∨
    s.role i.cmd = .released ∧ s.dispatching ≠ some i.cmd
  tableNodup : (s.cmd.map CmdInfo.cmd).Nodup
  dispatched : ∀ c, s.dispatching = some c → s.role c ≠ .absent
  silent : ∀ i ∈ s.eventCb, s.unregistered i.cbArg = false

theorem owned_initial : Owned initial := by
  constructor <;> simp [initial, Role.refs]

@[simp] theorem cbArg_entry (t : EventType) (c : ℕ) : (t.entry c).cbArg = c := by
  cases t <;> rfl

theorem removes_entry {t : EventType} (c : ℕ) : t.removes (t.entry c) = true := by
  cases t with
  | plain cmd => simp [EventType.removes, EventType.entry]
  | vendor id subcmd => simp [EventType.removes, EventType.entry]

/-- If the first entry that is found is the owner's, the owner's entry is the one that goes. -/
theorem eraseP_own {l : List CbInfo} {p : CbInfo → Bool} {c : ℕ}
    (hnodup : (l.map CbInfo.cbArg).Nodup) (hown : ∀ i ∈ l, i.cbArg = c → p i = true)
    (hfirst : ∀ i ∈ l.find? p, i.cbArg = c) :
    l.eraseP p = l.filter fun i => i.cbArg ≠ c := by
  induction l with
  | nil => rfl
  | cons i l ih =>
    rw [List.map_cons, List.nodup_cons] at hnodup
    by_cases hp : p i = true
    · have hi : i.cbArg = c := hfirst i (by simp [hp])
      have hrest : ∀ j ∈ l, j.cbArg ≠ c := by
        intro j hj hjc
        apply hnodup.1
        rw [hi, ← hjc]
        exact List.mem_map_of_mem hj
      rw [List.eraseP_cons_of_pos hp, List.filter_cons_of_neg (by simp [hi])]
      exact (List.filter_eq_self.mpr fun j hj => by simpa using hrest j hj).symm
    · have hi : i.cbArg ≠ c := fun h => hp (hown i List.mem_cons_self h)
      rw [List.eraseP_cons_of_neg hp, List.filter_cons_of_pos (by simpa using hi)]
      congr 1
      apply ih hnodup.2
      · intro j hj
        exact hown j (List.mem_cons_of_mem _ hj)
      · intro j hj
        apply hfirst j
        rwa [List.find?_cons_of_neg hp]

theorem wifiUnregister_eq (s : State) {t : EventType} (ht : t ≠ .plain nl80211CmdVendor) (c : ℕ) :
    wifiUnregister s t c = { s with
      eventCb := s.eventCb.eraseP t.removes
      unregistered := Function.update s.unregistered c true } := by
  cases t with
  | plain cmd =>
    have hcmd : cmd ≠ nl80211CmdVendor := fun h => ht (congrArg _ h)
    simp [wifiUnregister, wifiUnregisterHandler, hcmd]
  | vendor id subcmd => rfl

namespace Owned

variable {s : State}

theorem held_of_entry (h : Owned s) {i : CbInfo} (hi : i ∈ s.eventCb) :
    (s.role i.cbArg).refs = 1 := by
  rcases h.entry i hi with ⟨t, hrole, -⟩ | ⟨hrole, -⟩
  · rw [hrole]
    rfl
  · rw [hrole]
    rfl

theorem sound (h : Owned s) : Sound s := by
  intro i hi
  refine ⟨?_, h.silent i hi⟩
  have hheld := h.held_of_entry hi
  have hcall := callRefs_nonneg s.dispatching i.cbArg
  rw [State.Live, h.refs, hheld]
  omega

theorem filter_no_entry (h : Owned s) {c : ℕ} (hwaiting : ∀ t, s.role c ≠ .waiting t)
    (hmonitor : s.role c ≠ .monitor) : (s.eventCb.filter fun i => i.cbArg ≠ c) = s.eventCb := by
  apply List.filter_eq_self.mpr
  intro i hi
  rw [decide_eq_true_eq]
  rintro rfl
  rcases h.entry i hi with ⟨t, hrole, -⟩ | ⟨hrole, -⟩
  · exact hwaiting t hrole
  · exact hmonitor hrole

/-- The entries of a command are for the type it waits for or monitors. -/
theorem eraseP_eq (h : Owned s) {c : ℕ} {t : EventType}
    (hrole : s.role c = .waiting t ∨ t = rssiMonitor ∧ ∀ u, s.role c ≠ .waiting u)
    (hfirst : ∀ i ∈ s.eventCb.find? t.removes, i.cbArg = c) :
    s.eventCb.eraseP t.removes = s.eventCb.filter fun i => i.cbArg ≠ c := by
  apply eraseP_own h.nodup _ hfirst
  rintro i hi rfl
  rcases h.entry i hi with ⟨u, hu, hentry⟩ | ⟨hu, hentry⟩
  · rcases hrole with hrole | ⟨-, hrole⟩
    · obtain rfl : t = u := by
        rw [hrole] at hu
        exact Role.waiting.inj hu
      rw [hentry]
      exact removes_entry _
    · exact absurd hu (hrole u)
  · rcases hrole with hrole | ⟨rfl, -⟩
    · rw [hu] at hrole
      cases hrole
    · rw [hentry]
      exact removes_entry _

end Owned

/-! ## Steps -/

/-- A step that concerns one command: what it leaves to the others, and what entry the command has
afterwards. -/
structure Concerns (s u : State) (c : ℕ) (own : List CbInfo) : Prop where
  role : ∀ d, d ≠ c → u.role d = s.role d
  refs : ∀ d, d ≠ c → u.mRefs d = s.mRefs d
  unregistered : ∀ d, d ≠ c → u.unregistered d = s.unregistered d
  eventCb : u.eventCb = (s.eventCb.filter fun i => i.cbArg ≠ c) ++ own
  dispatching : u.dispatching = s.dispatching

/-- What the command itself is after the step. -/
structure OwnEntry (u : State) (c : ℕ) (own : List CbInfo) : Prop where
  refs : u.mRefs c = (u.role c).refs + callRefs u.dispatching c
  created : u.role c ≠ .absent
  entry : ∀ i ∈ own, i.cbArg = c ∧ u.unregistered c = false ∧
    ((∃ t, u.role c = .waiting t ∧ i = t.entry c) ∨ u.role c = .monitor ∧ i = rssiMonitor.entry c)
  waiting : ∀ t, u.role c = .waiting t → t.entry c ∈ own
  single : own.length ≤ 1

/-- Whose entries there are: those of the other commands as before, and the command's own. -/
theorem Concerns.mem {s u : State} {c : ℕ} {o : List CbInfo} (hc : Concerns s u c o) {i : CbInfo}
    (hi : i ∈ u.eventCb) : i ∈ s.eventCb ∧ i.cbArg ≠ c ∨ i ∈ o := by
  rw [hc.eventCb, List.mem_append, List.mem_filter, decide_eq_true_eq] at hi
  exact hi

theorem nodup_of_concerns {s u : State} {c : ℕ} {o : List CbInfo} (h : Owned s)
    (hc : Concerns s u c o) (ho : OwnEntry u c o) : (u.eventCb.map CbInfo.cbArg).Nodup := by
  rw [hc.eventCb, List.map_append, List.nodup_append]
  refine ⟨?_, ?_, ?_⟩
  · exact h.nodup.sublist (List.filter_sublist.map _)
  · have hsingle := ho.single
    rcases o with _ | ⟨i, rest⟩
    · exact List.nodup_nil
    · rw [List.length_cons] at hsingle
      obtain rfl : rest = [] := List.length_eq_zero_iff.mp (by omega)
      exact List.nodup_singleton _
  · intro d hd e he hde
    obtain ⟨i, hi, rfl⟩ := List.mem_map.mp hd
    obtain ⟨j, hj, rfl⟩ := List.mem_map.mp he
    rw [List.mem_filter, decide_eq_true_eq] at hi
    rw [(ho.entry j hj).1] at hde
    exact hi.2 hde

theorem owned_of_concerns {s u : State} {c : ℕ} {o : List CbInfo} (h : Owned s)
    (hc : Concerns s u c o) (ho : OwnEntry u c o)
    (hfresh : ∀ d, u.created ≤ d ↔ u.role d = .absent)
    (htable : ∀ i ∈ u.cmd, u.role i.cmd = .monitor ∨
      u.role i.cmd = .released ∧ u.dispatching ≠ some i.cmd)
    (hnodup : (u.cmd.map CmdInfo.cmd).Nodup) : Owned u := by
  refine ⟨?_, hfresh, ?_, nodup_of_concerns h hc ho, ?_, htable, hnodup, ?_, ?_⟩
  · intro d
    by_cases hd : d = c
    · rw [hd]
      exact ho.refs
    · rw [hc.refs d hd, hc.role d hd, hc.dispatching]
      exact h.refs d
  · intro i hi
    rcases hc.mem hi with ⟨hold, hne⟩ | hown
    · rw [hc.role _ hne]
      exact h.entry i hold
    · obtain ⟨hi, -, hrole⟩ := ho.entry i hown
      rw [hi]
      exact hrole
  · intro d t hd
    rw [hc.eventCb, List.mem_append, List.mem_filter, decide_eq_true_eq]
    by_cases hdc : d = c
    · rw [hdc] at hd ⊢
      exact .inr (ho.waiting t hd)
    · rw [hc.role d hdc] at hd
      exact .inl ⟨h.waiting d t hd, by rwa [cbArg_entry]⟩
  · intro d hd
    by_cases hdc : d = c
    · rw [hdc]
      exact ho.created
    · rw [hc.dispatching] at hd
      rw [hc.role d hdc]
      exact h.dispatched d hd
  · intro i hi
    rcases hc.mem hi with ⟨hold, hne⟩ | hown
    · rw [hc.unregistered _ hne]
      exact h.silent i hold
    · obtain ⟨hi, hunregistered, -⟩ := ho.entry i hown
      rw [hi]
      exact hunregistered

variable {s : State}

/-- Where the other commands stand is left as it is, and this one has been created. -/
theorem fresh_update (h : Owned s) {c : ℕ} (hc : s.role c ≠ .absent) {r : Role}
    (hr : r ≠ .absent) (d : ℕ) :
    s.created ≤ d ↔ Function.update s.role c r d = .absent := by
  by_cases hd : d = c
  · rw [hd, Function.update_self, h.fresh]
    exact ⟨fun h => absurd h hc, fun h => absurd h hr⟩
  · rw [Function.update_of_ne hd]
    exact h.fresh d

theorem fresh_created (h : Owned s) {r : Role} (hr : r ≠ .absent) (d : ℕ) :
    s.created + 1 ≤ d ↔ Function.update s.role s.created r d = .absent := by
  by_cases hd : d = s.created
  · rw [hd, Function.update_self]
    exact ⟨fun h => absurd h (by omega), fun h => absurd h hr⟩
  · rw [Function.update_of_ne hd, ← h.fresh d]
    omega

theorem table_created (h : Owned s) {i : CmdInfo} (hi : i ∈ s.cmd) : i.cmd ≠ s.created := by
  intro heq
  have habsent := (h.fresh s.created).mp le_rfl
  rcases h.table i hi with hrole | ⟨hrole, -⟩
  · rw [heq, habsent] at hrole
    cases hrole
  · rw [heq, habsent] at hrole
    cases hrole

theorem not_dispatching_created (h : Owned s) : s.dispatching ≠ some s.created :=
  fun hd => h.dispatched _ hd ((h.fresh s.created).mp le_rfl)

theorem filter_created (h : Owned s) :
    (s.eventCb.filter fun i => i.cbArg ≠ s.created) = s.eventCb := by
  have habsent := (h.fresh s.created).mp le_rfl
  apply h.filter_no_entry
  · intro t hrole
    rw [habsent] at hrole
    cases hrole
  · intro hrole
    rw [habsent] at hrole
    cases hrole

/-- The table is left as it is, or loses entries, while one command changes its role. -/
theorem table_update (h : Owned s) {c : ℕ} {r : Role} {l : List CmdInfo} (hl : l ⊆ s.cmd)
    (hc : ∀ i ∈ l, i.cmd ≠ c) (i : CmdInfo) (hi : i ∈ l) :
    Function.update s.role c r i.cmd = .monitor ∨
      Function.update s.role c r i.cmd = .released ∧ s.dispatching ≠ some i.cmd := by
  rw [Function.update_of_ne (hc i hi)]
  exact h.table i (hl hi)

theorem owned_newCommand (h : Owned s) : Owned (newCommand s) := by
  have hnot := not_dispatching_created h
  refine owned_of_concerns (c := s.created) (o := []) h ?_ ?_
    (fresh_created h (by decide)) (table_update h (List.Subset.refl _) fun i => table_created h)
    h.tableNodup
  · exact ⟨fun d hd => Function.update_of_ne hd .., fun d hd => Function.update_of_ne hd ..,
      fun _ _ => rfl, by rw [List.append_nil, filter_created h]; rfl, rfl⟩
  · refine ⟨?_, ?_, by rintro i ⟨⟩, ?_, by simp⟩
    · simp [newCommand, Role.refs, callRefs_of_ne hnot]
    · simp [newCommand]
    · intro t ht
      simp [newCommand] at ht

theorem table_not (h : Owned s) {c : ℕ} (hmonitor : s.role c ≠ .monitor)
    (hreleased : s.role c ≠ .released) : ∀ i ∈ s.cmd, i.cmd ≠ c := by
  rintro i hi rfl
  rcases h.table i hi with hrole | ⟨hrole, -⟩
  · exact hmonitor hrole
  · exact hreleased hrole

theorem owned_request (h : Owned s) {c : ℕ} (hrole : s.role c = .idle) (t : EventType) :
    Owned (request s c t) := by
  simp only [request, wifiRegister]
  split
  · exact h
  · rename_i u hu
    split at hu
    · obtain rfl := Option.some.inj hu
      have hfilter := h.filter_no_entry (c := c) (by simp [hrole]) (by simp [hrole])
      refine owned_of_concerns (c := c) (o := [t.entry c]) h ?_ ?_
        (fresh_update h (by simp [hrole]) (by simp))
        (table_update h (List.Subset.refl _) (table_not h (by simp [hrole]) (by simp [hrole])))
        h.tableNodup
      · exact ⟨fun d hd => Function.update_of_ne hd .., fun _ _ => rfl,
          fun d hd => Function.update_of_ne hd .., by rw [hfilter]; rfl, rfl⟩
      · refine ⟨?_, ?_, ?_, ?_, by simp⟩
        · have hrefs := h.refs c
          rw [hrole] at hrefs
          simpa [State.setRole, Role.refs] using hrefs
        · simp [State.setRole]
        · intro i hi
          rw [List.mem_singleton.mp hi]
          exact ⟨cbArg_entry t c, Function.update_self .., .inl ⟨t, Function.update_self .., rfl⟩⟩
        · intro u hu
          simp only [State.setRole, Function.update_self, Role.waiting.injEq] at hu
          rw [hu]
          exact List.mem_singleton.mpr rfl
    · cases hu

theorem eventCb_requestReturns (h : Owned s) {c : ℕ} {t : EventType} (hrole : s.role c = .waiting t)
    (howns : OwnsFirst s (.requestReturns c)) :
    requestReturns s c = { s with
      eventCb := s.eventCb.filter fun i => i.cbArg ≠ c
      unregistered := Function.update s.unregistered c true
      role := Function.update s.role c .idle } := by
  obtain ⟨-, ht, hfirst⟩ := howns c t (by simp [unregisters, hrole])
  simp only [requestReturns, hrole, wifiUnregister_eq s ht, h.eraseP_eq (.inl hrole) hfirst,
    State.setRole]

theorem owned_requestReturns (h : Owned s) {c : ℕ} {t : EventType} (hrole : s.role c = .waiting t)
    (howns : OwnsFirst s (.requestReturns c)) : Owned (requestReturns s c) := by
  rw [eventCb_requestReturns h hrole howns]
  refine owned_of_concerns (c := c) (o := []) h ?_ ?_ (fresh_update h (by simp [hrole]) (by simp))
    (table_update h (List.Subset.refl _) (table_not h (by simp [hrole]) (by simp [hrole])))
    h.tableNodup
  · exact ⟨fun d hd => Function.update_of_ne hd .., fun _ _ => rfl,
      fun d hd => Function.update_of_ne hd .., (List.append_nil _).symm, rfl⟩
  · refine ⟨?_, by simp, by rintro i ⟨⟩, by simp, by simp⟩
    have hrefs := h.refs c
    simpa [hrole, Role.refs] using hrefs

theorem owned_releaseCommand (h : Owned s) {c : ℕ} (hrole : s.role c = .idle) :
    Owned (dropCommand s c) := by
  have hfilter := h.filter_no_entry (c := c) (by simp [hrole]) (by simp [hrole])
  refine owned_of_concerns (c := c) (o := []) h ?_ ?_ (fresh_update h (by simp [hrole]) (by simp))
    (table_update h (List.Subset.refl _) (table_not h (by simp [hrole]) (by simp [hrole])))
    h.tableNodup
  · exact ⟨fun d hd => Function.update_of_ne hd .., fun d hd => Function.update_of_ne hd ..,
      fun _ _ => rfl, by rw [List.append_nil, hfilter]; rfl, rfl⟩
  · refine ⟨?_, by simp [dropCommand, releaseRef, State.setRole], by rintro i ⟨⟩,
      by simp [dropCommand, releaseRef, State.setRole], by simp⟩
    have hrefs := h.refs c
    simp only [hrole, Role.refs] at hrefs
    simp only [dropCommand, releaseRef, State.setRole, Function.update_self, Role.refs, hrefs]
    omega

theorem nodup_table_created (h : Owned s) (k : ℤ) :
    ((s.cmd ++ [(⟨k, s.created⟩ : CmdInfo)]).map CmdInfo.cmd).Nodup := by
  rw [List.map_append, List.nodup_append]
  refine ⟨h.tableNodup, List.nodup_singleton _, ?_⟩
  intro d hd e he hde
  obtain ⟨i, hi, rfl⟩ := List.mem_map.mp hd
  rw [List.mem_singleton.mp he] at hde
  exact table_created h hi hde

/-- A command that is created and dropped in one step leaves no entry. -/
theorem owned_dropped {u : State} {k : ℤ} (h : Owned s) (hevents : u.eventCb = s.eventCb)
    (hrole : u.role = Function.update s.role s.created .released)
    (hrefs : u.mRefs = Function.update s.mRefs s.created 0) (hcreated : u.created = s.created + 1)
    (hdispatching : u.dispatching = s.dispatching)
    (hunregistered : ∀ d, d ≠ s.created → u.unregistered d = s.unregistered d)
    (htable : u.cmd.Sublist (s.cmd ++ [⟨k, s.created⟩])) : Owned u := by
  have hnot := not_dispatching_created h
  refine owned_of_concerns (c := s.created) (o := []) h ?_ ?_ ?_ ?_ ?_
  · refine ⟨fun d hd => ?_, fun d hd => ?_, hunregistered, ?_, hdispatching⟩
    · rw [hrole, Function.update_of_ne hd]
    · rw [hrefs, Function.update_of_ne hd]
    · rw [hevents, filter_created h, List.append_nil]
  · refine ⟨?_, ?_, by rintro i ⟨⟩, ?_, by simp⟩
    · simp [hrole, hrefs, hdispatching, Role.refs, callRefs_of_ne hnot]
    · simp [hrole]
    · intro t ht
      simp [hrole] at ht
  · rw [hcreated, hrole]
    exact fresh_created h (by decide)
  · intro i hi
    rw [hrole, hdispatching]
    rcases List.mem_append.mp (htable.subset hi) with hi | hi
    · exact table_update h (List.Subset.refl _) (fun i => table_created h) i hi
    · rw [List.mem_singleton.mp hi, Function.update_self]
      exact .inr ⟨rfl, hnot⟩
  · exact (nodup_table_created h k).sublist (htable.map _)

theorem drop_created (s : State) : Function.update (Function.update s.mRefs s.created 1) s.created
    (Function.update s.mRefs s.created 1 s.created - 1) =
      Function.update s.mRefs s.created 0 := by
  rw [Function.update_self, Function.update_idem]
  rfl

theorem owned_monitor (h : Owned s) (id : ℤ) {events o : List CbInfo} {unregistered : ℕ → Bool}
    (hevents : events = s.eventCb ++ o) (hsingle : o.length ≤ 1)
    (hown : ∀ i ∈ o, i = rssiMonitor.entry s.created ∧ unregistered s.created = false)
    (hsame : ∀ d, d ≠ s.created → unregistered d = s.unregistered d) :
    Owned { newCommand s with
      eventCb := events
      unregistered := unregistered
      cmd := s.cmd ++ [⟨id, s.created⟩]
      role := Function.update (newCommand s).role s.created .monitor } := by
  have hnot := not_dispatching_created h
  have hrole : Function.update (newCommand s).role s.created .monitor =
      Function.update s.role s.created .monitor := Function.update_idem ..
  rw [hrole]
  refine owned_of_concerns (c := s.created) (o := o) h ?_ ?_ (fresh_created h (by decide)) ?_
    (nodup_table_created h id)
  · exact ⟨fun d hd => Function.update_of_ne hd .., fun d hd => Function.update_of_ne hd ..,
      hsame, by rw [filter_created h]; exact hevents, rfl⟩
  · refine ⟨?_, by simp, ?_, ?_, hsingle⟩
    · simp [newCommand, Role.refs, callRefs_of_ne hnot]
    · intro i hi
      obtain ⟨hentry, hun⟩ := hown i hi
      refine ⟨by rw [hentry, cbArg_entry], hun, .inr ⟨Function.update_self .., hentry⟩⟩
    · intro t ht
      simp at ht
  · intro i hi
    rcases List.mem_append.mp hi with hi | hi
    · exact table_update h (List.Subset.refl _) (fun i => table_created h) i hi
    · rw [List.mem_singleton.mp hi]
      exact .inl (Function.update_self ..)

theorem owned_start (h : Owned s) (id : ℤ) (started : Bool) :
    Owned (wifiStartRssiMonitoring s id started) := by
  simp only [wifiStartRssiMonitoring, wifiRegisterCmd]
  by_cases hroom : (newCommand s).cmd.length < defaultCmdSize
  · simp only [if_pos hroom]
    cases started with
    | false =>
      refine owned_dropped (k := id) h rfl ?_ (drop_created s) rfl rfl (fun _ _ => rfl)
        (List.eraseP_sublist ..)
      exact Function.update_idem ..
    | true =>
      simp only [if_true, wifiRegister, State.setRole]
      split
      · refine owned_monitor h id (o := [rssiMonitor.entry s.created]) rfl (by simp) ?_ ?_
        · intro i hi
          exact ⟨List.mem_singleton.mp hi, Function.update_self ..⟩
        · intro d hd
          exact Function.update_of_ne hd ..
      · exact owned_monitor h id (List.append_nil _).symm (by simp) (by rintro i ⟨⟩) fun _ _ => rfl
  · simp only [if_neg hroom]
    refine owned_dropped (k := id) h rfl ?_ (drop_created s) rfl rfl (fun _ _ => rfl)
      (List.sublist_append_left ..)
    exact Function.update_idem ..

theorem found_command (h : Owned s) {id : ℤ} {c : ℕ} (hfound : wifiGetCmd s id = some c) :
    (∃ i ∈ s.cmd, i.cmd = c) ∧ ∀ i ∈ s.cmd.eraseP (fun i => i.id = id), i.cmd ≠ c := by
  obtain ⟨i, hfind, rfl⟩ := Option.map_eq_some_iff.mp hfound
  have hmem := List.mem_of_find?_eq_some hfind
  obtain ⟨j, before, after, hbefore, hj, hsplit, herase⟩ :=
    List.exists_of_eraseP hmem (List.find?_some hfind)
  obtain rfl : i = j := by
    rw [hsplit, List.find?_append, List.find?_eq_none.mpr (by simpa using hbefore), Option.none_or,
      List.find?_cons, hj] at hfind
    exact (Option.some.inj hfind).symm
  refine ⟨⟨i, hmem, rfl⟩, ?_⟩
  intro k hk hki
  have hnodup := h.tableNodup
  rw [hsplit, List.map_append, List.map_cons] at hnodup
  have hout := (List.nodup_cons.mp (List.perm_middle.nodup_iff.mp hnodup)).1
  apply hout
  rw [← hki, ← List.map_append]
  rw [herase] at hk
  exact List.mem_map_of_mem hk

theorem monitor_of_found (h : Owned s) {id : ℤ} {c : ℕ} (hfound : wifiGetCmd s id = some c)
    (hlive : c ≠ s.created → s.Live c) : s.role c = .monitor := by
  obtain ⟨⟨i, hi, rfl⟩, -⟩ := found_command h hfound
  rcases h.table i hi with hrole | ⟨hrole, hdispatching⟩
  · exact hrole
  · have hrefs := h.refs i.cmd
    have hpositive := hlive (table_created h hi)
    rw [hrole, callRefs_of_ne hdispatching] at hrefs
    rw [State.Live, hrefs] at hpositive
    exact absurd hpositive (by decide)

theorem stop_found (h : Owned s) {id : ℤ} {c : ℕ} (hid : id ≠ -1)
    (hfound : wifiGetCmd s id = some c) (howns : OwnsFirst s (.wifiStopRssiMonitoring id)) :
    wifiStopRssiMonitoring s id = { s with
      cmd := s.cmd.eraseP fun i => i.id = id
      eventCb := s.eventCb.filter fun i => i.cbArg ≠ c
      unregistered := Function.update s.unregistered c true
      role := Function.update s.role c .released
      mRefs := Function.update s.mRefs c (s.mRefs c - 1) } := by
  obtain ⟨hlive, ht, hfirst⟩ := howns c rssiMonitor (by simp [unregisters, hid, hfound])
  have hrole := monitor_of_found h hfound hlive
  have herase := h.eraseP_eq (.inr ⟨rfl, by simp [hrole]⟩) hfirst
  simp only [wifiStopRssiMonitoring, if_neg hid, wifiCancelCmd, hfound, cancel,
    wifiUnregister_eq _ ht, wifiUnregisterCmd, dropCommand, releaseRef, State.setRole, herase]

theorem stop_all (h : Owned s) (howns : OwnsFirst s (.wifiStopRssiMonitoring (-1))) :
    wifiStopRssiMonitoring s (-1) = { s with
      unregistered := Function.update s.unregistered s.created true
      role := Function.update s.role s.created .released
      created := s.created + 1
      mRefs := Function.update s.mRefs s.created 0 } := by
  obtain ⟨-, ht, hfirst⟩ := howns s.created rssiMonitor (by simp [unregisters])
  have habsent := (h.fresh s.created).mp le_rfl
  have herase := h.eraseP_eq (.inr ⟨rfl, by simp [habsent]⟩) hfirst
  rw [filter_created h] at herase
  simp only [wifiStopRssiMonitoring, if_true, cancel, wifiUnregister_eq _ ht, newCommand,
    dropCommand, releaseRef, State.setRole, herase, Function.update_idem, Function.update_self]
  rfl

theorem owned_stop (h : Owned s) {id : ℤ} (howns : OwnsFirst s (.wifiStopRssiMonitoring id)) :
    Owned (wifiStopRssiMonitoring s id) := by
  by_cases hid : id = -1
  · subst hid
    rw [stop_all h howns]
    exact owned_dropped (k := 0) h rfl rfl rfl rfl rfl (fun d hd => Function.update_of_ne hd ..)
      (List.sublist_append_left ..)
  · cases hfound : wifiGetCmd s id with
    | none => simpa [wifiStopRssiMonitoring, hid, wifiCancelCmd, hfound] using h
    | some c =>
      have hlive := (howns c rssiMonitor (by simp [unregisters, hid, hfound])).1
      have hrole := monitor_of_found h hfound hlive
      rw [stop_found h hid hfound howns]
      refine owned_of_concerns (c := c) (o := []) h ?_ ?_
        (fresh_update h (by simp [hrole]) (by simp))
        (table_update h List.eraseP_subset (found_command h hfound).2)
        (h.tableNodup.sublist ((List.eraseP_sublist ..).map _))
      · exact ⟨fun d hd => Function.update_of_ne hd .., fun d hd => Function.update_of_ne hd ..,
          fun d hd => Function.update_of_ne hd .., (List.append_nil _).symm, rfl⟩
      · refine ⟨?_, by simp, by rintro i ⟨⟩, by simp, by simp⟩
        have hrefs := h.refs c
        simp only [hrole, Role.refs] at hrefs
        simp only [Function.update_self, Role.refs, hrefs]
        omega

theorem owned_dispatch (h : Owned s) (hidle : s.dispatching = none) (cmd : ℤ) (vendorId : ℕ)
    (subcmd : ℤ) : Owned (dispatch s cmd vendorId subcmd) := by
  simp only [dispatch]
  split
  · exact h
  · rename_i i hfind
    have hmem : i ∈ s.eventCb := List.mem_of_find?_eq_some hfind
    have hheld := h.held_of_entry hmem
    refine ⟨?_, h.fresh, h.entry, h.nodup, h.waiting, ?_, h.tableNodup, ?_, h.silent⟩
    · intro c
      have hrefs := h.refs c
      rw [hidle, callRefs_none] at hrefs
      by_cases hc : c = i.cbArg
      · subst hc
        simp only [addRef, Function.update_self, hrefs, callRefs_self]
        omega
      · have hne : some i.cbArg ≠ some c := fun heq => hc (Option.some.inj heq).symm
        simp only [addRef, Function.update_of_ne hc, hrefs, callRefs_of_ne hne]
    · intro j hj
      rcases h.table j hj with hrole | ⟨hrole, -⟩
      · exact .inl hrole
      · refine .inr ⟨hrole, ?_⟩
        intro heq
        rw [Option.some.inj heq, hrole] at hheld
        cases hheld
    · intro c hc
      obtain rfl := Option.some.inj hc
      intro habsent
      rw [show (addRef s i.cbArg).role i.cbArg = s.role i.cbArg from rfl] at habsent
      rw [habsent] at hheld
      cases hheld

theorem owned_dispatchReturns (h : Owned s) : Owned (dispatchReturns s) := by
  simp only [dispatchReturns]
  split
  · exact h
  · rename_i c hdispatching
    refine ⟨?_, h.fresh, h.entry, h.nodup, h.waiting, ?_, h.tableNodup, by rintro d ⟨⟩, h.silent⟩
    · intro d
      have hrefs := h.refs d
      rw [hdispatching] at hrefs
      by_cases hd : d = c
      · subst hd
        simp only [releaseRef, Function.update_self, hrefs, callRefs_self, callRefs_none]
        omega
      · have hne : some c ≠ some d := fun heq => hd (Option.some.inj heq).symm
        simp only [releaseRef, Function.update_of_ne hd, hrefs, callRefs_of_ne hne, callRefs_none]
    · intro i hi
      exact (h.table i hi).imp_right fun hrole => ⟨hrole.1, nofun⟩

theorem owned_next {e : Event} (h : Owned s) (he : Enabled s e) (howns : OwnsFirst s e) :
    Owned (next s e) := by
  cases e with
  | newCommand => exact owned_newCommand h
  | requestEvent c cmd => exact owned_request h he _
  | requestVendorEvent c id subcmd => exact owned_request h he _
  | requestReturns c =>
    obtain ⟨t, hrole⟩ := he
    exact owned_requestReturns h hrole howns
  | releaseCommand c => exact owned_releaseCommand h he
  | wifiStartRssiMonitoring id started => exact owned_start h id started
  | wifiStopRssiMonitoring id => exact owned_stop h howns
  | dispatch cmd vendorId subcmd => exact owned_dispatch h he cmd vendorId subcmd
  | dispatchReturns => exact owned_dispatchReturns h

theorem removesOwn {e : Event} (h : Owned s) (howns : OwnsFirst s e) : RemovesOwn s e := by
  intro c t hc
  cases e with
  | requestReturns d =>
    simp only [unregisters] at hc
    split at hc
    · rename_i u hrole
      obtain ⟨rfl, rfl⟩ := Prod.mk.inj (Option.some.inj hc)
      exact congrArg State.eventCb (eventCb_requestReturns h hrole howns)
    · cases hc
  | wifiStopRssiMonitoring id =>
    simp only [unregisters] at hc
    split at hc
    · rename_i hid
      obtain ⟨rfl, rfl⟩ := Prod.mk.inj (Option.some.inj hc)
      subst hid
      have hstop := congrArg State.eventCb (stop_all h howns)
      exact hstop.trans (filter_created h).symm
    · rename_i hid
      obtain ⟨d, hfound, heq⟩ := Option.map_eq_some_iff.mp hc
      obtain ⟨rfl, rfl⟩ := Prod.mk.inj heq
      exact congrArg State.eventCb (stop_found h hid hfound howns)
  | newCommand | requestEvent | requestVendorEvent | releaseCommand | wifiStartRssiMonitoring
    | dispatch | dispatchReturns => cases hc

theorem callsLive (h : Owned s) (e : Event) : CallsLive s e := by
  cases e with
  | dispatch cmd vendorId subcmd =>
    intro i hi
    exact (h.sound i (List.mem_of_find?_eq_some hi)).1
  | newCommand | requestEvent | requestVendorEvent | requestReturns | releaseCommand
    | wifiStartRssiMonitoring | wifiStopRssiMonitoring | dispatchReturns => trivial

/-- As long as a command that unregisters its handler owns the entry that is found, it takes out
its own entries and no others, no entry refers to a freed or an unregistered command, and no event
is given to a freed one. -/
theorem handlers_stay_owned (es : List Event) (legal : hal.Legal initial es)
    (owns : hal.Along OwnsFirst initial es) :
    hal.Along RemovesOwn initial es ∧ hal.Along CallsLive initial es ∧
      ∀ pre, pre <+: es → Sound (hal.run initial pre) := by
  have hstep : ∀ s e, Owned s → hal.Enabled s e → OwnsFirst s e → Owned (hal.next s e) :=
    fun _ _ h he howns => owned_next h he howns
  refine ⟨?_, ?_, ?_⟩
  · exact along_of_invariant hal hstep owned_initial legal owns fun _ _ h _ howns =>
      removesOwn h howns
  · exact along_of_invariant hal hstep owned_initial legal owns fun _ e h _ _ => callsLive h e
  · intro pre hpre
    exact (invariant_run hal hstep owned_initial (along_of_le hal legal hpre)
      (along_of_le hal owns hpre)).sound

theorem handlers_stay_owned_stop : Sound (hal.run initial [.wifiStartRssiMonitoring 1 true,
    .newCommand, .requestEvent 1 34, .dispatch nl80211CmdVendor googleOui wifiEventRssiMonitor,
    .wifiStopRssiMonitoring 1, .dispatchReturns, .requestReturns 1, .releaseCommand 1]) :=
  (handlers_stay_owned [.wifiStartRssiMonitoring 1 true,
    .newCommand, .requestEvent 1 34, .dispatch nl80211CmdVendor googleOui wifiEventRssiMonitor,
    .wifiStopRssiMonitoring 1, .dispatchReturns, .requestReturns 1, .releaseCommand 1]
    ⟨trivial, trivial, rfl, rfl, trivial, nofun, ⟨_, rfl⟩, rfl, trivial⟩
    (by decide)).2.2 _ (List.prefix_refl _)

/-- With two monitors the one that is stopped takes the other's entry out; its own stays, and the
next event is given to it after it has been freed. -/
theorem other_monitor_removed : ¬ ∀ es, hal.Legal initial es → hal.Along RemovesOwn initial es ∧
    hal.Along CallsLive initial es ∧ ∀ pre, pre <+: es → Sound (hal.run initial pre) := by
  intro h
  have hlive := (h [.wifiStartRssiMonitoring 1 true, .wifiStartRssiMonitoring 2 true,
    .wifiStopRssiMonitoring 2, .dispatch nl80211CmdVendor googleOui wifiEventRssiMonitor]
    ⟨trivial, trivial, trivial, rfl, trivial⟩).2.1
  exact absurd (hlive.2.2.2.1 _ rfl) (by decide)

end WifiHandlers
