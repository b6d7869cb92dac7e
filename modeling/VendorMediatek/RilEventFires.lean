import VendorMediatek.RilEventSteps

/-!
# From ready descriptors to callbacks

Ready events join the expired timers in the pending list, and firePending takes the events off
it one by one. Every step of the loop is one operation of the timer queue.
-/

namespace RilEventLoop

open LabelledRuns CircularList TimerQueue

variable {s : State} {timers pending : List ℕ}

/-! ## processReadReadies -/

theorem number_of_watched (h : Represents s timers pending) {ev : ℕ} (hev : s.InTable ev) :
    s.number ev = none := by
  by_contra hnumber
  exact h.not_watched (h.numbered ev hnumber).2 hev

theorem watched_not_timer (h : Represents s timers pending) {ev : ℕ} (hev : s.InTable ev) :
    ev ∉ timers := fun hmem => h.timer ev hmem (number_of_watched h hev)

theorem append_watched (h : Represents s timers pending) {ev : ℕ} (hev : s.InTable ev)
    (hpending : ev ∉ pending) :
    ∃ links, s.links.addToList (.event ev) .pendingList = some links ∧
      Represents { s with links := links } timers (pending ++ [ev]) ∧
      queue { s with links := links } timers (pending ++ [ev]) = queue s timers pending := by
  have htimers := watched_not_timer h hev
  obtain ⟨links, hadd, hring, hsame⟩ := append_event h.pendingRing Node.noConfusion hpending
  refine ⟨links, hadd, ⟨?_, hring, ?_, ?_, ?_, h.timer, h.index, h.watched⟩, ?_⟩
  · refine frame_events (k := ev :: pending) h.timerRing hsame Node.noConfusion
      (fun _ => ⟨Node.noConfusion, Node.noConfusion⟩) ?_
    intro e he hmem
    rcases List.mem_cons.mp hmem with rfl | hmem
    · exact htimers he
    · exact h.apart e he hmem
  · intro e he hmem
    rcases List.mem_append.mp hmem with hmem | hmem
    · exact h.apart e he hmem
    · rw [List.mem_singleton.mp hmem] at he
      exact htimers he
  · intro e he hmem
    rw [List.mem_append, List.mem_singleton, not_or] at hmem
    refine (hsame (.event e) ?_).1.trans (h.unlinked e he hmem.1)
    simp only [List.map_cons, List.mem_cons, reduceCtorEq, false_or, Node.event.injEq,
      event_mem_map]
    tauto
  · intro e he
    have hold := h.numbered e he
    exact ⟨hold.1.imp_right fun hin => List.mem_append_left _ hin, hold.2⟩
  · have hnone : s.timer ev = none := by
      simp [State.timer, number_of_watched h hev]
    have hdue : (pending ++ [ev]).filterMap s.timer = pending.filterMap s.timer := by
      rw [List.filterMap_append, List.filterMap_cons_none hnone, List.filterMap_nil,
        List.append_nil]
    simp only [queue]
    rw [← hdue]
    rfl

theorem watchTable_removeWatch (s : State) (ev : ℕ) (i j : Fin maxFdEvents) (e : ℕ)
    (h : (removeWatch s ev i).watchTable j = some e) : s.watchTable j = some e := by
  obtain ⟨fds, n, heq⟩ := removeWatch_eq s ev i
  rw [heq] at h
  by_cases hji : j = i
  · rw [hji] at h
    simp at h
  · simpa [hji] using h

/-- What the loop over the watch table leaves. -/
structure Readied (s u : State) (timers pending pending' : List ℕ) : Prop where
  represents : Represents u timers pending'
  queue_eq : queue u timers pending' = queue s timers pending
  table : ∀ ev, u.InTable ev → s.InTable ev
  joined : ∀ ev ∈ pending', ev ∈ pending ∨ s.InTable ev
  deleted : u.deleted = s.deleted

theorem deleted_removeWatch (s : State) (ev : ℕ) (i : Fin maxFdEvents) :
    (removeWatch s ev i).deleted = s.deleted := by
  obtain ⟨fds, n, heq⟩ := removeWatch_eq s ev i
  rw [heq]

theorem Readied.refl (h : Represents s timers pending) : Readied s s timers pending pending :=
  ⟨h, rfl, fun _ hev => hev, fun _ hev => .inl hev, rfl⟩

/-- A ready event is appended and, unless it is persistent, no longer watched. -/
theorem readied_one (h : Represents s timers pending) {ev : ℕ} {i : Fin maxFdEvents}
    (hi : s.watchTable i = some ev) (hpending : ev ∉ pending) :
    ∃ links, s.links.addToList (.event ev) .pendingList = some links ∧
      Readied s (if (s.event ev).persist = false then removeWatch { s with links := links } ev i
        else { s with links := links }) timers pending (pending ++ [ev]) := by
  obtain ⟨links, hadd, hrep, hqueue⟩ := append_watched h ⟨i, hi⟩ hpending
  have hjoined : ∀ e ∈ pending ++ [ev], e ∈ pending ∨ s.InTable e := by
    intro e he
    rcases List.mem_append.mp he with he | he
    · exact .inl he
    · rw [List.mem_singleton.mp he]
      exact .inr ⟨i, hi⟩
  refine ⟨links, hadd, ?_⟩
  split
  · refine ⟨represents_removeWatch hrep hi, ?_, ?_, hjoined, deleted_removeWatch _ _ _⟩
    · rw [queue_removeWatch, hqueue]
    · rintro e ⟨j, hj⟩
      exact ⟨j, watchTable_removeWatch { s with links := links } ev i j e hj⟩
  · exact ⟨hrep, hqueue, fun _ he => he, hjoined, rfl⟩

/-- An event that is put on the pending list is in none of the slots still to come. -/
theorem pending_unwatched (h : Represents s timers pending) {rest : List (Fin maxFdEvents)}
    (hskip : ∀ ev ∈ pending, ∀ j ∈ rest, s.watchTable j ≠ some ev) {rev : ℕ} {i : Fin maxFdEvents}
    (hrev : s.watchTable i = some rev) (hi : i ∉ rest) {t : State}
    (htable : ∀ e, ∀ j ∈ rest, t.watchTable j = some e → s.watchTable j = some e) :
    ∀ e ∈ pending ++ [rev], ∀ j ∈ rest, t.watchTable j ≠ some e := by
  intro e he j hj hej
  have hwas := htable e j hj hej
  rcases List.mem_append.mp he with he | he
  · exact hskip e he j hj hwas
  · rw [List.mem_singleton.mp he] at hwas
    exact hi (slot_unique h.index hrev hwas ▸ hj)

theorem readReadies_eq (rfds : ℤ → Bool) {slots : List (Fin maxFdEvents)} (hslots : slots.Nodup)
    (n : ℤ) (h : Represents s timers pending)
    (hfree : ∀ ev ∈ pending, ∀ i ∈ slots, s.watchTable i ≠ some ev) :
    ∃ u pending', readReadies rfds slots n s = some u ∧ Readied s u timers pending pending' := by
  induction slots generalizing n s pending with
  | nil => exact ⟨s, pending, rfl, .refl h⟩
  | cons i rest ih =>
    obtain ⟨hi, hrest⟩ := List.nodup_cons.mp hslots
    have hskip : ∀ ev ∈ pending, ∀ j ∈ rest, s.watchTable j ≠ some ev :=
      fun ev hev j hj => hfree ev hev j (List.mem_cons_of_mem _ hj)
    simp only [readReadies]
    by_cases hn : 0 < n
    · rw [if_pos hn]
      cases hrev : s.watchTable i with
      | none => exact ih hrest n h hskip
      | some rev =>
        by_cases hready : rfds (s.event rev).fd = true
        · have hnot : rev ∉ pending := fun hmem =>
            hfree rev hmem i List.mem_cons_self hrev
          obtain ⟨links, hadd, hone⟩ := readied_one h hrev hnot
          simp only [hready, if_true, hadd, Option.bind_eq_bind, Option.bind_some]
          set t := if (s.event rev).persist = false then
            removeWatch { s with links := links } rev i else { s with links := links } with ht
          have htable : ∀ e, ∀ j ∈ rest, t.watchTable j = some e → s.watchTable j = some e := by
            intro e j _ hj
            rw [ht] at hj
            split at hj
            · exact watchTable_removeWatch { s with links := links } rev i j e hj
            · exact hj
          have hfree' := pending_unwatched h hskip hrev hi htable
          obtain ⟨u, pending', hu, hreadied⟩ := ih hrest (n - 1) hone.represents hfree'
          refine ⟨u, pending', hu, hreadied.represents, hreadied.queue_eq.trans hone.queue_eq,
            fun e he => hone.table e (hreadied.table e he), ?_,
            hreadied.deleted.trans hone.deleted⟩
          intro e he
          rcases hreadied.joined e he with he | he
          · exact hone.joined e he
          · exact .inr (hone.table e he)
        · simp only [hready]
          exact ih hrest n h hskip
    · rw [if_neg hn]
      exact ⟨s, pending, rfl, .refl h⟩

theorem refines_processReadReadies (h : Represents s timers pending) (hf : Follows s pending)
    (hphase : s.phase = .timedOut) (rfds : ℤ → Bool) (n : ℤ) :
    ∃ u pending', processReadReadies s rfds n = some u ∧ (∀ ev, u.InTable ev → s.InTable ev) ∧
      (∀ ev ∈ pending', ev ∈ pending ∨ s.InTable ev) ∧ u.deleted = s.deleted ∧
      Refines s u timers pending timers pending' .idle := by
  have hfds : ∀ ev ∈ pending, (s.event ev).fd = -1 := by
    unfold Follows at hf
    rw [hphase] at hf
    exact hf
  have hfree : ∀ ev ∈ pending, ∀ i ∈ List.finRange maxFdEvents, s.watchTable i ≠ some ev :=
    fun ev hev i _ hi => h.not_watched (hfds ev hev) ⟨i, hi⟩
  obtain ⟨u, pending', hu, hreadied⟩ :=
    readReadies_eq rfds (List.nodup_finRange maxFdEvents) n h hfree
  have hrep := hreadied.represents
  refine ⟨{ u with phase := .firing ((pending'.map Node.event).headD .pendingList) }, pending',
    ?_, hreadied.table, hreadied.joined, hreadied.deleted, ?_, rfl, ?_⟩
  · simp only [processReadReadies, hu, Option.bind_eq_bind, Option.bind_some,
      hrep.pendingRing.next_head]
  · exact ⟨hrep.timerRing, hrep.pendingRing, hrep.apart, hrep.unlinked, hrep.numbered, hrep.timer,
      hrep.index, hrep.watched⟩
  · exact hreadied.queue_eq

/-! ## firePending -/

/-- The operation of the timer queue that a step stands for. -/
def op (s : State) : Event → Op TimeVal
  | .rilTimerAdd _ (some tv) => .add (timerAdd s.clock tv)
  | .clock now => .advance now
  | .processTimeouts => .expire
  | .firePending ev => if s.number ev = none then .idle else .fire
  | _ => .idle

theorem queue_fired {u : State} {ev : ℕ} {rest : List ℕ} {call : Call}
    (hsame : ∀ e, e ∈ timers ∨ e ∈ rest → u.timer e = s.timer e ∧ u.timerAt e = s.timerAt e)
    (hcalled : u.called = s.called ++ [call]) (htimer : call.timer = s.timer ev)
    (htime : call.time = s.clock) (hcallpass : call.pass = s.pass)
    (hdeadlines : u.deadlines = s.deadlines) (hclock : u.clock = s.clock)
    (hpass : u.pass = s.pass) :
    queue u timers rest = (queue s timers (ev :: rest)).next (op s (.firePending ev)) := by
  have hwaiting : timers.map u.timerAt = timers.map s.timerAt :=
    List.map_congr_left fun e he => (hsame e (.inl he)).2
  have hdue : rest.filterMap u.timer = rest.filterMap s.timer :=
    List.filterMap_congr fun e he => (hsame e (.inr he)).1
  cases hnumber : s.number ev with
  | none =>
    have hnone : s.timer ev = none := by simp [State.timer, hnumber]
    have hfired : call.fired = none := by simp [Call.fired, htimer, hnone]
    simp [queue, op, hnumber, Queue.next, hwaiting, hdue, hcalled, hfired, hnone, hdeadlines,
      hclock, hpass]
  | some n =>
    have hsome : s.timer ev = some ⟨n, (s.event ev).timeout⟩ := by simp [State.timer, hnumber]
    have hfired : call.fired = some ⟨⟨n, (s.event ev).timeout⟩, s.clock, s.pass⟩ := by
      simp [Call.fired, htimer, hsome, htime, hcallpass]
    simp [queue, op, hnumber, Queue.next, hwaiting, hdue, hcalled, hfired, hsome, hdeadlines,
      hclock, hpass]

theorem refines_firePending {ev : ℕ} {rest : List ℕ} (h : Represents s timers (ev :: rest)) :
    ∃ u, firePending s ev = some u ∧ u.watchTable = s.watchTable ∧ u.deleted = s.deleted ∧
      Refines s u timers (ev :: rest) timers rest (op s (.firePending ev)) := by
  have hring := h.pendingRing
  rw [List.map_cons] at hring
  have hnext := hring.next_first
  obtain ⟨links, hremove, hring', hnone, -, hsame⟩ := hring.removeFirst
  have hnodup : (ev :: rest).Nodup := by
    have hcells := (List.nodup_cons.mp h.pendingRing.nodup).2
    exact (List.nodup_map_iff event_injective).mp hcells
  have hrest : ev ∉ rest := (List.nodup_cons.mp hnodup).1
  have htimers : ev ∉ timers := fun hmem => h.apart ev hmem List.mem_cons_self
  have hne : ∀ e, e ∈ timers ∨ e ∈ rest → e ≠ ev := by
    rintro e (he | he) rfl
    · exact htimers he
    · exact hrest he
  have hnumber : ∀ e, e ≠ ev → Function.update s.number ev none e = s.number e :=
    fun e he => Function.update_of_ne he ..
  have hfire : firePending s ev = some { s with
      links := links
      phase := .calling ((rest.map Node.event).headD .pendingList)
      number := Function.update s.number ev none
      called := s.called ++ [⟨ev, (s.event ev).func, (s.event ev).fd, (s.event ev).param,
        s.timer ev, s.clock, s.pass⟩] } := by
    simp only [firePending, hnext, hremove, Option.bind_eq_bind, Option.bind_some]
  refine ⟨_, hfire, rfl, rfl, ⟨?_, hring', ?_, ?_, ?_, ?_, h.index, h.watched⟩, rfl, ?_⟩
  · exact frame_events (k := ev :: rest) h.timerRing hsame Node.noConfusion
      (fun _ => ⟨Node.noConfusion, Node.noConfusion⟩) fun e he hmem => h.apart e he hmem
  · intro e he hmem
    exact h.apart e he (List.mem_cons_of_mem _ hmem)
  · intro e he hmem
    by_cases hev : e = ev
    · rw [hev]
      exact hnone
    · have hold := h.unlinked e he (List.not_mem_cons_of_ne_of_not_mem hev hmem)
      refine (hsame (.event e) ?_).1.trans hold
      simp only [List.mem_cons, reduceCtorEq, false_or, Node.event.injEq,
        event_mem_map]
      tauto
  · intro e he
    by_cases hev : e = ev
    · rw [hev] at he
      exact absurd (Function.update_self ..) he
    · change Function.update s.number ev none e ≠ none at he
      rw [hnumber e hev] at he
      obtain ⟨hmem, hfd⟩ := h.numbered e he
      refine ⟨hmem.imp_right fun hin => ?_, hfd⟩
      exact (List.mem_cons.mp hin).resolve_left hev
  · intro e he
    change Function.update s.number ev none e ≠ none
    rw [hnumber e (hne e (.inl he))]
    exact h.timer e he
  · refine queue_fired ?_ rfl rfl rfl rfl rfl rfl rfl
    intro e he
    simp only [State.timer, State.timerAt, hnumber e (hne e he), and_self]

/-! ## Every step -/

theorem waiting_length {q : Queue TimeVal} (h : Good q) : q.waiting.length ≤ q.added.length := by
  have hlength := h.accounted.length_eq
  rw [List.length_map, List.length_range, Queue.timers, List.length_append,
    List.length_append] at hlength
  omega

/-- What may come into a list or into the watch table, and which events count as deleted. -/
structure Enters (s u : State) (timers pending timers' pending' : List ℕ) (e : Event) :
    Prop where
  listed : ∀ ev, ev ∈ timers' ∨ ev ∈ pending' → (ev ∈ timers ∨ ev ∈ pending) ∨
    (s.InTable ev ∧ e ≠ .rilEventDel ev) ∨ ∃ tv, e = .rilTimerAdd ev (some tv)
  watched : ∀ ev, u.InTable ev → s.InTable ev ∨ e = .rilEventAdd ev
  deleted : ∀ ev, u.deleted ev = true → s.deleted ev = true ∨ e = .rilEventDel ev
  added : ∀ ev, (∃ tv, e = .rilTimerAdd ev (some tv)) ∨ e = .rilEventAdd ev →
    u.deleted ev = false
  removed : ∀ ev, e = .rilEventDel ev → ¬ u.InTable ev

theorem Enters.quiet {u : State} {timers' pending' : List ℕ} {e : Event}
    (hlisted : ∀ ev, ev ∈ timers' ∨ ev ∈ pending' → (ev ∈ timers ∨ ev ∈ pending) ∨ s.InTable ev)
    (hwatched : ∀ ev, u.InTable ev → s.InTable ev) (hdeleted : u.deleted = s.deleted)
    (hadd : ∀ ev, (∀ tv, e ≠ .rilTimerAdd ev (some tv)) ∧ e ≠ .rilEventAdd ev ∧
      e ≠ .rilEventDel ev) : Enters s u timers pending timers' pending' e where
  listed ev hev := by
    rcases hlisted ev hev with h | h
    · exact .inl h
    · exact .inr (.inl ⟨h, (hadd ev).2.2⟩)
  watched ev hev := .inl (hwatched ev hev)
  deleted ev hev := .inl (by rwa [hdeleted] at hev)
  added ev hev := by
    rcases hev with ⟨tv, hev⟩ | hev
    · exact absurd hev ((hadd ev).1 tv)
    · exact absurd hev (hadd ev).2.1
  removed ev hev := absurd hev (hadd ev).2.2

theorem deleted_of_added {deleted : ℕ → Bool} {ev e : ℕ}
    (h : Function.update deleted ev false e = true) : deleted e = true := by
  by_cases hev : e = ev
  · rw [hev, Function.update_self] at h
    cases h
  · rwa [Function.update_of_ne hev] at h

theorem enters_rilEventAdd (s : State) (timers pending : List ℕ) (ev : ℕ) :
    Enters s (rilEventAdd s ev) timers pending timers pending (.rilEventAdd ev) := by
  have hdeleted : (rilEventAdd s ev).deleted = Function.update s.deleted ev false := by
    simp only [rilEventAdd]
    split
    · rfl
    · split <;> rfl
  refine ⟨fun e he => .inl he, ?_, ?_, ?_, ?_⟩
  · intro e he
    by_cases hev : e = ev
    · rw [hev]
      exact .inr rfl
    · refine .inl ?_
      obtain ⟨j, hj⟩ := he
      have htable : ∀ i, Function.update s.watchTable i (some ev) j = some e →
          s.InTable e := by
        intro i hi
        by_cases hji : j = i
        · rw [hji, Function.update_self] at hi
          exact absurd (Option.some.inj hi).symm hev
        · rw [Function.update_of_ne hji] at hi
          exact ⟨j, hi⟩
      simp only [rilEventAdd] at hj
      split at hj
      · exact ⟨j, hj⟩
      · split at hj
        · exact htable _ hj
        · exact htable _ hj
  · intro e he
    rw [hdeleted] at he
    exact .inl (deleted_of_added he)
  · rintro e (⟨tv, ⟨⟩⟩ | he)
    obtain rfl := Event.rilEventAdd.inj he
    rw [hdeleted, Function.update_self]
  · rintro e ⟨⟩

theorem enters_rilEventDel (h : Represents s timers pending) (ev : ℕ) :
    Enters s (rilEventDel s ev) timers pending timers pending (.rilEventDel ev) := by
  have hdeleted : (rilEventDel s ev).deleted = Function.update s.deleted ev true := by
    rcases rilEventDel_cases s ev with ⟨heq, -⟩ | ⟨i, -, heq⟩
    · rw [heq]
    · rw [heq, deleted_removeWatch]
  refine ⟨fun e he => .inl he, ?_, ?_, ?_, ?_⟩
  · rintro e ⟨j, hj⟩
    refine .inl ⟨j, ?_⟩
    rcases rilEventDel_cases s ev with ⟨heq, -⟩ | ⟨i, -, heq⟩
    · rw [heq] at hj
      exact hj
    · rw [heq] at hj
      exact watchTable_removeWatch
        { s with deleted := Function.update s.deleted ev true } ev i j e hj
  · intro e he
    by_cases hev : e = ev
    · rw [hev]
      exact .inr rfl
    · rw [hdeleted, Function.update_of_ne hev] at he
      exact .inl he
  · rintro e (⟨tv, he⟩ | he)
    · cases he
    · cases he
  · intro e he
    obtain rfl := Event.rilEventDel.inj he
    rintro ⟨j, hj⟩
    rcases rilEventDel_cases s ev with ⟨heq, hindex⟩ | ⟨i, hi, heq⟩
    · rw [heq] at hj
      exact hindex j ((h.index ev j).mp hj)
    · rw [heq] at hj
      have hwas := watchTable_removeWatch
        { s with deleted := Function.update s.deleted ev true } ev i j ev hj
      have hji : j = i := slot_unique h.index hwas ((h.index ev i).mpr hi)
      obtain ⟨fds, n, hremove⟩ :=
        removeWatch_eq { s with deleted := Function.update s.deleted ev true } ev i
      rw [hremove, hji] at hj
      simp at hj

theorem enters_rilTimerAdd {u : State} {timers' : List ℕ} {ev : ℕ} {tv : TimeVal}
    (hmem : ∀ e ∈ timers', e = ev ∨ e ∈ timers) (htable : u.watchTable = s.watchTable)
    (hdeleted : u.deleted = Function.update s.deleted ev false) :
    Enters s u timers pending timers' pending (.rilTimerAdd ev (some tv)) := by
  refine ⟨?_, ?_, ?_, ?_, ?_⟩
  · rintro e (he | he)
    · rcases hmem e he with rfl | he
      · exact .inr (.inr ⟨tv, rfl⟩)
      · exact .inl (.inl he)
    · exact .inl (.inr he)
  · exact fun e he => .inl (inTable_of_table htable he)
  · intro e he
    rw [hdeleted] at he
    exact .inl (deleted_of_added he)
  · rintro e (⟨tv', he⟩ | he)
    · obtain ⟨rfl, -⟩ := Event.rilTimerAdd.inj he
      rw [hdeleted, Function.update_self]
    · cases he
  · rintro e ⟨⟩

theorem follows_pending_nil (hf : Follows s pending)
    (hphase : s.phase = .top ∨ ∃ tv, s.phase = .selecting tv) : pending = [] := by
  unfold Follows at hf
  rcases hphase with hphase | ⟨tv, hphase⟩
  · rw [hphase] at hf
    exact hf
  · rw [hphase] at hf
    exact hf

theorem follows_cursor {node : Node} (hf : Follows s pending)
    (hphase : s.phase = .firing node ∨ s.phase = .calling node) :
    node = (pending.map Node.event).headD .pendingList := by
  unfold Follows at hf
  rcases hphase with hphase | hphase
  · rw [hphase] at hf
    exact hf
  · rw [hphase] at hf
    exact hf

theorem Represents.of_phase (h : Represents s timers pending) (phase : Phase) (clock : TimeVal) :
    Represents { s with phase := phase, clock := clock } timers pending :=
  ⟨h.timerRing, h.pendingRing, h.apart, h.unlinked, h.numbered, h.timer, h.index, h.watched⟩

theorem follows_endOfPass (hf : Follows s pending) (hphase : s.phase = .firing .pendingList) :
    pending = [] := by
  have hcursor := follows_cursor hf (.inl hphase)
  cases hpending : pending with
  | nil => rfl
  | cons first rest => simp [hpending] at hcursor

theorem calcNextTimeout_some (h : Represents s timers pending) :
    ∃ tv, calcNextTimeout s = some tv := by
  simp only [calcNextTimeout, h.timerRing.next_head, Option.bind_eq_bind, Option.bind_some]
  split
  · exact ⟨_, rfl⟩
  · split
    · exact ⟨_, rfl⟩
    · exact ⟨_, rfl⟩

theorem refines_phase {e : Event} (h : Represents s timers pending) (phase : Phase)
    (hop : op s e = .idle) (hfollows : Follows { s with phase := phase } pending)
    (hadd : ∀ ev, (∀ tv, e ≠ .rilTimerAdd ev (some tv)) ∧ e ≠ .rilEventAdd ev ∧
      e ≠ .rilEventDel ev) :
    Refines s { s with phase := phase } timers pending timers pending (op s e) ∧
      Enters s { s with phase := phase } timers pending timers pending e := by
  rw [hop]
  exact ⟨⟨h.of_phase phase s.clock, hfollows, rfl⟩,
    .quiet (fun _ hev => .inl hev) (fun _ hev => hev) rfl hadd⟩

theorem step_rilTimerAdd (h : Represents s timers pending) (hf : Follows s pending) {ev : ℕ}
    (tv : TimeVal) (hused : ¬ s.InTable ev ∧ ¬ s.Linked ev)
    (hlength : timers.length ≤ s.deadlines.length) :
    ∃ u timers', rilTimerAdd s ev (some tv) = some u ∧
      Refines s u timers pending timers' pending (.add (timerAdd s.clock tv)) ∧
      Enters s u timers pending timers' pending (.rilTimerAdd ev (some tv)) := by
  obtain ⟨u, hstep, htable, hdeleted, hrefines⟩ := refines_rilTimerAdd h hf tv hused hlength
  refine ⟨u, _, hstep, hrefines, enters_rilTimerAdd ?_ htable hdeleted⟩
  intro e hmem
  rcases List.mem_append.mp hmem with hmem | hmem
  · exact .inr ((List.takeWhile_sublist _).subset hmem)
  · rcases List.mem_cons.mp hmem with rfl | hmem
    · exact .inl rfl
    · exact .inr ((List.dropWhile_sublist _).subset hmem)

theorem step_processTimeouts (h : Represents s timers pending) (hempty : pending = [])
    (hlength : timers.length ≤ s.deadlines.length) :
    ∃ u timers' pending', processTimeouts s = some u ∧
      Refines s u timers pending timers' pending' .expire ∧
      Enters s u timers pending timers' pending' .processTimeouts := by
  obtain ⟨u, hstep, htable, hdeleted, hrefines⟩ := refines_processTimeouts h hempty hlength
  refine ⟨u, _, _, hstep, hrefines, .quiet ?_ ?_ hdeleted fun _ => ⟨nofun, nofun, nofun⟩⟩
  · rintro ev (hmem | hmem)
    · exact .inl (.inl ((List.dropWhile_sublist _).subset hmem))
    · rw [hempty, List.nil_append] at hmem
      exact .inl (.inl ((List.takeWhile_sublist _).subset hmem))
  · exact fun ev hev => inTable_of_table htable hev

theorem refines_step {e : Event} (h : Represents s timers pending) (hf : Follows s pending)
    (hg : Good (queue s timers pending)) (he : Enabled s e) (hu : WellUsed s e) :
    ∃ u timers' pending', step s e = some u ∧
      Refines s u timers pending timers' pending' (op s e) ∧
      Enters s u timers pending timers' pending' e := by
  have hlength : timers.length ≤ s.deadlines.length := by
    have hwaiting := waiting_length hg
    simpa [queue] using hwaiting
  cases e with
  | rilEventSet ev fd persist func param =>
    exact ⟨_, _, _, rfl, refines_rilEventSet h hf hu fd persist func param,
      .quiet (fun _ hev => .inl hev) (fun _ hev => hev) rfl (by simp)⟩
  | rilEventAdd ev => exact ⟨_, _, _, rfl, refines_rilEventAdd h hf hu, enters_rilEventAdd ..⟩
  | rilTimerAdd ev tv =>
    cases tv with
    | none =>
      exact ⟨s, _, _, rfl, ⟨h, hf, rfl⟩,
        .quiet (fun _ hev => .inl hev) (fun _ hev => hev) rfl (by simp)⟩
    | some tv =>
      obtain ⟨u, _, hstep⟩ := step_rilTimerAdd h hf tv (hu (Option.some_ne_none _)) hlength
      exact ⟨u, _, _, hstep⟩
  | rilEventDel ev => exact ⟨_, _, _, rfl, refines_rilEventDel h hf ev, enters_rilEventDel h ev⟩
  | clock now =>
    exact ⟨_, _, _, rfl, ⟨h.of_phase s.phase now, hf, rfl⟩,
      .quiet (fun _ hev => .inl hev) (fun _ hev => hev) rfl (by simp)⟩
  | calcNextTimeout =>
    have hempty := follows_pending_nil hf (.inl he)
    obtain ⟨tv, hcalc⟩ := calcNextTimeout_some h
    refine ⟨{ s with phase := .selecting tv }, _, _, ?_,
      refines_phase h (.selecting tv) rfl hempty (by simp)⟩
    simp only [step, hcalc, Option.map_some]
  | interrupted =>
    have hempty := follows_pending_nil hf (.inr he)
    exact ⟨_, _, _, rfl, refines_phase h .top rfl hempty (by simp)⟩
  | processTimeouts =>
    exact step_processTimeouts h (follows_pending_nil hf (.inr he)) hlength
  | processReadReadies rfds n =>
    obtain ⟨u, pending', hstep, htable, hjoined, hdeleted, hrefines⟩ :=
      refines_processReadReadies h hf he rfds n
    refine ⟨u, _, _, hstep, hrefines, .quiet ?_ htable hdeleted (by simp)⟩
    rintro ev (hmem | hmem)
    · exact .inl (.inl hmem)
    · exact (hjoined ev hmem).imp_left .inr
  | firePending ev =>
    have hcursor := follows_cursor hf (.inl he)
    cases hpending : pending with
    | nil => simp [hpending] at hcursor
    | cons first rest =>
      subst hpending
      obtain rfl : ev = first := by simpa using hcursor
      obtain ⟨u, hstep, htable, hdeleted, hrefines⟩ := refines_firePending h
      refine ⟨u, _, _, hstep, hrefines, .quiet ?_ ?_ hdeleted (by simp)⟩
      · rintro e (hmem | hmem)
        · exact .inl (.inl hmem)
        · exact .inl (.inr (List.mem_cons_of_mem _ hmem))
      · exact fun e he => inTable_of_table htable he
  | callbackReturns =>
    obtain ⟨node, hphase⟩ := he
    have hcursor := follows_cursor hf (.inr hphase)
    refine ⟨{ s with phase := .firing node }, _, _, ?_,
      refines_phase h (.firing node) rfl hcursor (by simp)⟩
    simp only [step, hphase]
  | endOfPass =>
    have hempty := follows_endOfPass hf he
    exact ⟨_, _, _, rfl, refines_phase h .top rfl hempty (by simp)⟩

end RilEventLoop
