import VendorMediatek.RilEventShape

/-!
# The steps of the event loop

What each call and each step of the loop does to the two lists and to the timer queue behind them.
-/

namespace RilEventLoop

open LabelledRuns CircularList TimerQueue

theorem queue_congr {s u : State} {timers pending : List ℕ}
    (htimer : ∀ ev, ev ∈ timers ∨ ev ∈ pending →
      u.number ev = s.number ev ∧ (u.event ev).timeout = (s.event ev).timeout)
    (hcalled : u.called = s.called) (hdeadlines : u.deadlines = s.deadlines)
    (hclock : u.clock = s.clock) (hpass : u.pass = s.pass) :
    queue u timers pending = queue s timers pending := by
  have hwaiting : timers.map u.timerAt = timers.map s.timerAt := by
    apply List.map_congr_left
    intro ev hev
    simp [State.timerAt, htimer ev (.inl hev)]
  have hdue : pending.filterMap u.timer = pending.filterMap s.timer := by
    apply List.filterMap_congr
    intro ev hev
    simp [State.timer, htimer ev (.inr hev)]
  simp [queue, hwaiting, hdue, hcalled, hdeadlines, hclock, hpass]

/-- The step keeps the lists in shape and does to the timer queue what the operation does. -/
structure Refines (s u : State) (timers pending timers' pending' : List ℕ) (op : Op TimeVal) :
    Prop where
  represents : Represents u timers' pending'
  follows : Follows u pending'
  queue_eq : queue u timers' pending' = (queue s timers pending).next op

variable {s : State} {timers pending : List ℕ}

/-! ## Calls that leave the lists alone -/

/-- Nothing but the watch table, indices and histories of no timer change. -/
theorem Represents.of_same_lists {u : State} (h : Represents s timers pending)
    (hlinks : u.links = s.links) (hnumber : u.number = s.number)
    (hfd : ∀ ev, (u.event ev).fd = (s.event ev).fd)
    (hindex : ∀ ev (i : Fin maxFdEvents), u.watchTable i = some ev ↔ (u.event ev).index = i)
    (hwatched : ∀ ev, u.InTable ev → 0 ≤ (u.event ev).fd) : Represents u timers pending := by
  refine ⟨hlinks ▸ h.timerRing, hlinks ▸ h.pendingRing, h.apart, ?_, ?_, ?_, hindex, hwatched⟩
  · rw [hlinks]
    exact h.unlinked
  · intro ev hev
    rw [hfd ev]
    rw [hnumber] at hev
    exact h.numbered ev hev
  · rw [hnumber]
    exact h.timer

theorem removeWatch_eq (s : State) (ev : ℕ) (i : Fin maxFdEvents) :
    ∃ fds n, removeWatch s ev i =
      { s with
        watchTable := Function.update s.watchTable i none
        event := Function.update s.event ev { s.event ev with index := -1 }
        readFds := fds
        nfds := n } := by
  simp only [removeWatch]
  split
  · exact ⟨_, _, rfl⟩
  · exact ⟨_, _, rfl⟩

theorem index_removed (h : Represents s timers pending) {ev : ℕ} {i : Fin maxFdEvents}
    (hi : s.watchTable i = some ev) (e : ℕ) (j : Fin maxFdEvents) :
    Function.update s.watchTable i none j = some e ↔
      (Function.update s.event ev { s.event ev with index := -1 } e).index = j := by
  have hindex := (h.index ev i).mp hi
  by_cases he : e = ev
  · subst he
    rw [Function.update_self]
    constructor
    · intro hj
      by_cases hji : j = i
      · rw [hji, Function.update_self] at hj
        cases hj
      · rw [Function.update_of_ne hji] at hj
        exact absurd (slot_unique h.index hj hi) hji
    · intro hj
      change (-1 : ℤ) = j at hj
      omega
  · rw [Function.update_of_ne he, ← h.index e j]
    by_cases hji : j = i
    · rw [hji, Function.update_self, hi]
      constructor
      · rintro ⟨⟩
      · intro hev
        exact absurd (Option.some.inj hev).symm he
    · rw [Function.update_of_ne hji]

theorem fd_setIndex (event : ℕ → RilEvent) (ev : ℕ) (index : ℤ) (e : ℕ) :
    (Function.update event ev { event ev with index := index } e).fd = (event e).fd := by
  by_cases he : e = ev
  · rw [he, Function.update_self]
  · rw [Function.update_of_ne he]

theorem timeout_setIndex (event : ℕ → RilEvent) (ev : ℕ) (index : ℤ) (e : ℕ) :
    (Function.update event ev { event ev with index := index } e).timeout = (event e).timeout := by
  by_cases he : e = ev
  · rw [he, Function.update_self]
  · rw [Function.update_of_ne he]

theorem index_added (h : Represents s timers pending) {ev : ℕ} {i : Fin maxFdEvents}
    (hfree : s.watchTable i = none) (hnot : ¬ s.InTable ev) (e : ℕ) (j : Fin maxFdEvents) :
    Function.update s.watchTable i (some ev) j = some e ↔
      (Function.update s.event ev { s.event ev with index := (i : ℤ) } e).index = j := by
  by_cases he : e = ev
  · subst he
    rw [Function.update_self]
    constructor
    · intro hj
      by_cases hji : j = i
      · rw [hji]
      · rw [Function.update_of_ne hji] at hj
        exact absurd ⟨j, hj⟩ hnot
    · intro hj
      have hji : j = i := Fin.ext (by change ((i : ℕ) : ℤ) = (j : ℕ) at hj; omega)
      rw [hji, Function.update_self]
  · rw [Function.update_of_ne he, ← h.index e j]
    by_cases hji : j = i
    · rw [hji, Function.update_self, hfree]
      constructor
      · intro hev
        exact absurd (Option.some.inj hev).symm he
      · rintro ⟨⟩
    · rw [Function.update_of_ne hji]

theorem watched_added (h : Represents s timers pending) {ev : ℕ} {i : Fin maxFdEvents}
    (hfd : 0 ≤ (s.event ev).fd) (e : ℕ)
    (he : ∃ j, Function.update s.watchTable i (some ev) j = some e) :
    0 ≤ (Function.update s.event ev { s.event ev with index := (i : ℤ) } e).fd := by
  obtain ⟨j, hj⟩ := he
  rw [fd_setIndex]
  by_cases hji : j = i
  · rw [hji, Function.update_self] at hj
    rw [← Option.some.inj hj]
    exact hfd
  · rw [Function.update_of_ne hji] at hj
    exact h.watched e ⟨j, hj⟩

theorem represents_removeWatch (h : Represents s timers pending) {ev : ℕ} {i : Fin maxFdEvents}
    (hi : s.watchTable i = some ev) : Represents (removeWatch s ev i) timers pending := by
  obtain ⟨fds, n, heq⟩ := removeWatch_eq s ev i
  rw [heq]
  refine h.of_same_lists rfl rfl (fd_setIndex s.event ev (-1)) (index_removed h hi) ?_
  rintro e ⟨j, hj⟩
  rw [fd_setIndex]
  apply h.watched e
  by_cases hji : j = i
  · rw [hji] at hj
    simp at hj
  · exact ⟨j, by simpa [hji] using hj⟩

theorem queue_removeWatch (s : State) (timers pending : List ℕ) (ev : ℕ) (i : Fin maxFdEvents) :
    queue (removeWatch s ev i) timers pending = queue s timers pending := by
  obtain ⟨fds, n, heq⟩ := removeWatch_eq s ev i
  rw [heq]
  exact queue_congr (fun e _ => ⟨rfl, timeout_setIndex s.event ev (-1) e⟩) rfl rfl rfl rfl

theorem follows_of_fd {u : State} (h : Follows s pending) (hphase : u.phase = s.phase)
    (hfd : ∀ ev ∈ pending, (u.event ev).fd = (s.event ev).fd) : Follows u pending := by
  unfold Follows at h ⊢
  rw [hphase]
  split at h
  · exact h
  · exact h
  · intro ev hev
    rw [hfd ev hev]
    exact h ev hev
  · exact h
  · exact h

theorem follows_removeWatch (h : Follows s pending) (ev : ℕ) (i : Fin maxFdEvents) :
    Follows (removeWatch s ev i) pending := by
  obtain ⟨fds, n, heq⟩ := removeWatch_eq s ev i
  rw [heq]
  exact follows_of_fd h rfl fun e _ => fd_setIndex s.event ev (-1) e

theorem rilEventDel_cases (s : State) (ev : ℕ) :
    rilEventDel s ev = { s with deleted := Function.update s.deleted ev true } ∧
        (∀ i : Fin maxFdEvents, (s.event ev).index ≠ i) ∨
      ∃ i : Fin maxFdEvents, (s.event ev).index = i ∧
        rilEventDel s ev =
          removeWatch { s with deleted := Function.update s.deleted ev true } ev i := by
  simp only [rilEventDel]
  split
  · rename_i hrange
    refine .inr ⟨_, ?_, rfl⟩
    exact (Int.toNat_of_nonneg hrange.1).symm
  · rename_i hrange
    refine .inl ⟨rfl, ?_⟩
    intro i hi
    apply hrange
    have := i.isLt
    omega

theorem refines_rilEventDel (h : Represents s timers pending) (hf : Follows s pending) (ev : ℕ) :
    Refines s (rilEventDel s ev) timers pending timers pending .idle := by
  have hdeleted : Represents { s with deleted := Function.update s.deleted ev true }
      timers pending := h.of_same_lists rfl rfl (fun _ => rfl) h.index h.watched
  have hfollows : Follows { s with deleted := Function.update s.deleted ev true } pending := hf
  rcases rilEventDel_cases s ev with ⟨heq, -⟩ | ⟨i, hi, heq⟩
  · rw [heq]
    exact ⟨hdeleted, hf, rfl⟩
  · rw [heq]
    refine ⟨represents_removeWatch hdeleted ((h.index ev i).mpr hi), follows_removeWatch hfollows ev i,
      ?_⟩
    rw [queue_removeWatch]
    rfl

theorem refines_rilEventAdd (h : Represents s timers pending) (hf : Follows s pending) {ev : ℕ}
    (hused : ¬ s.InTable ev ∧ 0 ≤ (s.event ev).fd) :
    Refines s (rilEventAdd s ev) timers pending timers pending .idle := by
  have hsame : Refines s { s with deleted := Function.update s.deleted ev false }
      timers pending timers pending .idle :=
    ⟨h.of_same_lists rfl rfl (fun _ => rfl) h.index h.watched, hf, rfl⟩
  simp only [rilEventAdd]
  split
  · exact hsame
  · rename_i i hfind
    have hfree : s.watchTable i = none := by
      have hnone := List.find?_some hfind
      simpa using hnone
    have hindex := index_added h hfree hused.1
    have hwatched := watched_added h (i := i) hused.2
    have hrefines : ∀ fds n, Refines s
        { s with
          deleted := Function.update s.deleted ev false
          watchTable := Function.update s.watchTable i (some ev)
          event := Function.update s.event ev { s.event ev with index := (i : ℤ) }
          readFds := fds
          nfds := n } timers pending timers pending .idle := by
      intro fds n
      exact ⟨h.of_same_lists rfl rfl (fd_setIndex s.event ev i) hindex hwatched,
        follows_of_fd hf rfl fun e _ => fd_setIndex s.event ev i e,
        queue_congr (fun e _ => ⟨rfl, timeout_setIndex s.event ev i e⟩) rfl rfl rfl rfl⟩
    split
    · exact hrefines _ _
    · exact hrefines _ _

theorem event_notMem {head : Node} {ev : ℕ} {evs : List ℕ} (hhead : head ≠ .event ev)
    (hev : ev ∉ evs) : Node.event ev ∉ head :: evs.map Node.event := by
  rw [List.mem_cons, not_or, event_mem_map]
  exact ⟨hhead.symm, hev⟩

/-- An event that is not watched may have any values, but for an index of the watch table. -/
theorem Represents.index_update (h : Represents s timers pending) {ev : ℕ}
    (hnot : ¬ s.InTable ev) {r : RilEvent} (hr : ∀ i : Fin maxFdEvents, r.index ≠ i) (e : ℕ)
    (i : Fin maxFdEvents) :
    s.watchTable i = some e ↔ (Function.update s.event ev r e).index = i := by
  by_cases he : e = ev
  · rw [he, Function.update_self]
    exact iff_of_false (fun hi => hnot ⟨i, hi⟩) (hr i)
  · rw [Function.update_of_ne he]
    exact h.index e i

theorem Represents.watched_update (h : Represents s timers pending) {ev : ℕ}
    (hnot : ¬ s.InTable ev) (r : RilEvent) (e : ℕ) (he : s.InTable e) :
    0 ≤ (Function.update s.event ev r e).fd := by
  have hne : e ≠ ev := by
    rintro rfl
    exact hnot he
  rw [Function.update_of_ne hne]
  exact h.watched e he

theorem refines_rilEventSet (h : Represents s timers pending) (hf : Follows s pending) {ev : ℕ}
    (hused : ¬ s.InTable ev ∧ ¬ s.Linked ev) (fd : ℤ) (persist : Bool) (func param : ℕ) :
    Refines s (rilEventSet s ev fd persist func param) timers pending timers pending .idle := by
  have hout := h.notMem_of_not_linked hused.2
  have hother : ∀ e, e ∈ timers ∨ e ∈ pending → e ≠ ev := fun e => h.ne_of_not_linked hused.2
  have hlinks : SameOff [Node.event ev] s.links
      ((s.links.setNext (.event ev) none).setPrev (.event ev) none) := by
    intro node hnode
    rw [List.mem_singleton] at hnode
    exact ⟨Function.update_of_ne hnode .., Function.update_of_ne hnode ..⟩
  have hkeep : ∀ {head : Node} {evs : List ℕ}, head ≠ .event ev → ev ∉ evs →
      ∀ x ∈ head :: evs.map Node.event, x ∉ [Node.event ev] := by
    intro head evs hhead hev x hx hmem
    rw [List.mem_singleton.mp hmem] at hx
    exact event_notMem hhead hev hx
  have hevent : ∀ e, e ≠ ev →
      Function.update s.event ev ⟨fd, -1, persist, ⟨0, 0⟩, func, param⟩ e = s.event e :=
    fun e he => Function.update_of_ne he ..
  have hnumber : ∀ e, e ≠ ev → Function.update s.number ev none e = s.number e :=
    fun e he => Function.update_of_ne he ..
  refine ⟨⟨?_, ?_, h.apart, ?_, ?_, ?_, ?_, ?_⟩, ?_, ?_⟩
  · exact h.timerRing.frame hlinks (hkeep Node.noConfusion hout.1)
  · exact h.pendingRing.frame hlinks (hkeep Node.noConfusion hout.2)
  · intro e htimers hpending
    by_cases he : e = ev
    · rw [he]
      exact Function.update_self ..
    · exact (Function.update_of_ne (by simpa using he) ..).trans (h.unlinked e htimers hpending)
  · intro e he
    by_cases hev : e = ev
    · rw [hev] at he
      exact absurd (Function.update_self ..) he
    · change Function.update s.number ev none e ≠ none at he
      rw [hnumber e hev] at he
      change _ ∧ (Function.update s.event ev _ e).fd = -1
      rw [hevent e hev]
      exact h.numbered e he
  · intro e he
    change Function.update s.number ev none e ≠ none
    rw [hnumber e (hother e (.inl he))]
    exact h.timer e he
  · apply h.index_update hused.1
    intro i hi
    change (-1 : ℤ) = i at hi
    omega
  · exact h.watched_update hused.1 _
  · exact follows_of_fd (u := rilEventSet s ev fd persist func param) hf rfl
      fun e he => congrArg RilEvent.fd (hevent e (hother e (.inr he)))
  · refine queue_congr ?_ rfl rfl rfl rfl
    intro e he
    exact ⟨hnumber e (hother e he), congrArg RilEvent.timeout (hevent e (hother e he))⟩

/-! ## ril_timer_add -/

/-- The loop comes to the first timer that is not before the new one. -/
theorem firstNotBefore_eq {u : State} {t : TimeVal} {evs : List ℕ} {fuel : ℕ}
    (hpath : ∀ xs x ys, evs = xs ++ x :: ys →
      u.links.next (.event x) = some ((ys.map Node.event).headD .timerList))
    (hsame : ∀ ev ∈ evs, (u.event ev).timeout = (s.event ev).timeout)
    (hfuel : evs.length < fuel) :
    firstNotBefore u t fuel ((evs.map Node.event).headD .timerList) =
      some (((evs.dropWhile fun ev => decide ((s.event ev).timeout < t)).map
        Node.event).headD .timerList) := by
  induction evs generalizing fuel with
  | nil =>
    cases fuel with
    | zero => cases hfuel
    | succ fuel => simp [firstNotBefore]
  | cons ev evs ih =>
    cases fuel with
    | zero => cases hfuel
    | succ fuel =>
      have hnext := hpath [] ev evs rfl
      have htimeout : u.timeout (.event ev) = (s.event ev).timeout :=
        hsame ev List.mem_cons_self
      have hrest := ih (fun xs x ys hsplit => hpath (ev :: xs) x ys (by rw [hsplit]; rfl))
        (fun e he => hsame e (List.mem_cons_of_mem _ he)) (Nat.lt_of_succ_lt_succ hfuel)
      simp only [List.map_cons, List.headD_cons, firstNotBefore, htimeout, timerLess_iff]
      by_cases hlt : (s.event ev).timeout < t
      · rw [List.dropWhile_cons_of_pos (by simpa using hlt), ← hrest,
          if_pos ⟨hlt, Node.noConfusion⟩, hnext]
        rfl
      · rw [List.dropWhile_cons_of_neg (by simpa using hlt), if_neg fun hboth => hlt hboth.1]
        rfl

theorem waiting_insert {u : State} {ev : ℕ} {t : TimeVal}
    (hsame : ∀ e ∈ timers, u.timerAt e = s.timerAt e)
    (hnew : u.timerAt ev = ⟨s.deadlines.length, t⟩) :
    (timers.takeWhile (fun e => decide ((s.event e).timeout < t)) ++
        ev :: timers.dropWhile fun e => decide ((s.event e).timeout < t)).map u.timerAt =
      (timers.map s.timerAt).orderedInsert NotAfter ⟨s.deadlines.length, t⟩ := by
  have htest : (fun b : Timer TimeVal => decide (¬ NotAfter ⟨s.deadlines.length, t⟩ b)) ∘
      s.timerAt = fun e => decide ((s.event e).timeout < t) := by
    funext e
    exact decide_eq_decide.mpr not_le
  rw [List.orderedInsert_eq_take_drop, List.takeWhile_map, List.dropWhile_map, htest,
    List.map_append, List.map_cons, hnew]
  congr 1
  · apply List.map_congr_left
    intro e he
    exact hsame e ((List.takeWhile_sublist _).subset he)
  · congr 1
    apply List.map_congr_left
    intro e he
    exact hsame e ((List.dropWhile_sublist _).subset he)

/-- What the lists are once a timer that was in none of them stands between the others. -/
theorem represents_insert (h : Represents s timers pending) {ev n : ℕ} {t : TimeVal}
    (hused : ¬ s.InTable ev ∧ ¬ s.Linked ev) {xs ys : List ℕ} (hsplit : xs ++ ys = timers)
    {u : State} (hring : Ring u.links .timerList ((xs ++ ev :: ys).map Node.event))
    (hsame : SameOff (.event ev :: .timerList :: timers.map Node.event) s.links u.links)
    (htable : u.watchTable = s.watchTable)
    (hevent : u.event = Function.update s.event ev { s.event ev with fd := -1, timeout := t })
    (hnumber : u.number = Function.update s.number ev (some n)) :
    Represents u (xs ++ ev :: ys) pending := by
  have hout := h.notMem_of_not_linked hused.2
  have hmem : ∀ e, e ∈ xs ++ ev :: ys ↔ e = ev ∨ e ∈ timers := by
    intro e
    rw [← hsplit]
    simp only [List.mem_append, List.mem_cons]
    tauto
  refine ⟨hring, ?_, ?_, ?_, ?_, ?_, ?_, ?_⟩
  · apply h.pendingRing.frame hsame
    intro x hx hmem'
    rcases List.mem_cons.mp hx with rfl | hx
    · simp at hmem'
    · obtain ⟨e, he, rfl⟩ := List.mem_map.mp hx
      simp only [List.mem_cons, Node.event.injEq, reduceCtorEq, false_or, event_mem_map] at hmem'
      rcases hmem' with rfl | htimer
      · exact hout.2 he
      · exact h.apart e htimer he
  · intro e he
    rcases (hmem e).mp he with rfl | he
    · exact hout.2
    · exact h.apart e he
  · intro e he hpending
    rw [hmem, not_or] at he
    refine (hsame (.event e) ?_).1.trans (h.unlinked e he.2 hpending)
    simp only [List.mem_cons, Node.event.injEq, reduceCtorEq, false_or, event_mem_map]
    tauto
  · intro e he
    by_cases hev : e = ev
    · rw [hev, hevent, Function.update_self]
      exact ⟨.inl ((hmem ev).mpr (.inl rfl)), rfl⟩
    · rw [hnumber, Function.update_of_ne hev] at he
      have hold := h.numbered e he
      rw [hevent, Function.update_of_ne hev]
      exact ⟨hold.1.imp_left fun hin => (hmem e).mpr (.inr hin), hold.2⟩
  · intro e he
    rw [hnumber]
    by_cases hev : e = ev
    · rw [hev, Function.update_self]
      exact Option.some_ne_none _
    · rw [Function.update_of_ne hev]
      exact h.timer e (((hmem e).mp he).resolve_left hev)
  · rw [htable, hevent]
    exact h.index_update hused.1 fun i hi => hused.1 ⟨i, (h.index ev i).mpr hi⟩
  · intro e he
    rw [State.InTable, htable] at he
    rw [hevent]
    exact h.watched_update hused.1 _ e he

theorem firstNotBefore_setEvent (h : Represents s timers pending) {ev : ℕ} (hout : ev ∉ timers)
    (e' : RilEvent) (t : TimeVal) (hlength : timers.length ≤ s.deadlines.length) :
    firstNotBefore (s.setEvent ev e') t s.fuel ((timers.map Node.event).headD .timerList) =
      some (((timers.dropWhile fun e => decide ((s.event e).timeout < t)).map
        Node.event).headD .timerList) := by
  apply firstNotBefore_eq
  · intro xs x ys heq
    have hring := h.timerRing
    rw [heq, List.map_append, List.map_cons] at hring
    exact hring.next_cell
  · intro e he
    have hne : e ≠ ev := by
      rintro rfl
      exact hout he
    exact congrArg RilEvent.timeout (Function.update_of_ne hne ..)
  · exact Nat.lt_succ_of_le hlength

theorem addToList_timers (h : Represents s timers pending) {ev : ℕ} (hout : ev ∉ timers)
    {xs ys : List ℕ} (hsplit : xs ++ ys = timers) :
    ∃ links, s.links.addToList (.event ev) ((ys.map Node.event).headD .timerList) = some links ∧
      Ring links .timerList ((xs ++ ev :: ys).map Node.event) ∧
      SameOff (.event ev :: .timerList :: timers.map Node.event) s.links links := by
  subst hsplit
  have hring := h.timerRing
  have hnew : Node.event ev ∉ Node.timerList :: (xs ++ ys).map Node.event :=
    event_notMem Node.noConfusion hout
  rw [List.map_append] at hring hnew
  obtain ⟨links, hadd, hadded, hsame⟩ := hring.addToList hnew
  rw [← List.map_cons, ← List.map_append] at hadded
  rw [← List.map_append] at hsame
  exact ⟨links, hadd, hadded, hsame⟩

theorem refines_rilTimerAdd (h : Represents s timers pending) (hf : Follows s pending) {ev : ℕ}
    (tv : TimeVal) (hused : ¬ s.InTable ev ∧ ¬ s.Linked ev)
    (hlength : timers.length ≤ s.deadlines.length) :
    ∃ u, rilTimerAdd s ev (some tv) = some u ∧ u.watchTable = s.watchTable ∧
      u.deleted = Function.update s.deleted ev false ∧
      Refines s u timers pending
        (timers.takeWhile (fun e => decide ((s.event e).timeout < timerAdd s.clock tv)) ++
          ev :: timers.dropWhile fun e => decide ((s.event e).timeout < timerAdd s.clock tv))
        pending (.add (timerAdd s.clock tv)) := by
  have hout := h.notMem_of_not_linked hused.2
  set t := timerAdd s.clock tv with ht
  set xs := timers.takeWhile fun e => decide ((s.event e).timeout < t) with hxs
  set ys := timers.dropWhile fun e => decide ((s.event e).timeout < t) with hys
  have hsplit : xs ++ ys = timers := List.takeWhile_append_dropWhile
  set s' := s.setEvent ev { s.event ev with fd := -1, timeout := t } with hs'
  have hevent : ∀ e, e ∈ timers ∨ e ∈ pending → s'.event e = s.event e :=
    fun e he => Function.update_of_ne (h.ne_of_not_linked hused.2 he) ..
  have hself : s'.event ev = { s.event ev with fd := -1, timeout := t } :=
    Function.update_self ..
  have hnumber : ∀ e, e ∈ timers ∨ e ∈ pending →
      Function.update s.number ev (some s.deadlines.length) e = s.number e :=
    fun e he => Function.update_of_ne (h.ne_of_not_linked hused.2 he) ..
  obtain ⟨links, hadd, hring, hsame⟩ := addToList_timers h hout.1 hsplit
  refine ⟨{ s' with
      links := links
      deadlines := s.deadlines ++ [t]
      number := Function.update s.number ev (some s.deadlines.length)
      deleted := Function.update s.deleted ev false }, ?_, rfl, rfl,
    represents_insert h hused hsplit hring hsame rfl rfl rfl, ?_, ?_⟩
  · have hhead := h.timerRing.next_head
    have hwalk := firstNotBefore_setEvent h hout.1
      { s.event ev with fd := -1, timeout := t } t hlength
    simp only [rilTimerAdd, ← ht, hhead, Option.bind_eq_bind, Option.bind_some, hwalk, ← hys,
      hadd, hs']
  · refine follows_of_fd hf rfl ?_
    intro e he
    exact congrArg RilEvent.fd (hevent e (.inr he))
  · have hdue : pending.filterMap (State.timer { s' with
        links := links
        deadlines := s.deadlines ++ [t]
        number := Function.update s.number ev (some s.deadlines.length)
        deleted := Function.update s.deleted ev false }) = pending.filterMap s.timer := by
      apply List.filterMap_congr
      intro e he
      simp only [State.timer, hnumber e (.inr he), hevent e (.inr he)]
    simp only [queue, Queue.next, hdue]
    rw [waiting_insert (s := s) (t := t)]
    · rfl
    · intro e he
      simp only [State.timerAt, hnumber e (.inl he), hevent e (.inl he)]
    · simp only [State.timerAt, hself, Function.update_self, Option.getD_some]

/-! ## processTimeouts -/

theorem frame_events {links links' : Links Node} {head head' : Node} {evs k : List ℕ}
    (h : Ring links head (evs.map Node.event))
    (hsame : SameOff (head' :: k.map Node.event) links links')
    (hhead : head ≠ head') (hheads : ∀ ev, head ≠ .event ev ∧ head' ≠ .event ev)
    (hdisjoint : ∀ ev ∈ evs, ev ∉ k) : Ring links' head (evs.map Node.event) := by
  apply h.frame hsame
  intro x hx hmem
  rcases List.mem_cons.mp hx with rfl | hx
  · rcases List.mem_cons.mp hmem with rfl | hmem
    · exact hhead rfl
    · obtain ⟨e, -, he⟩ := List.mem_map.mp hmem
      exact (hheads e).1 he.symm
  · obtain ⟨e, he, rfl⟩ := List.mem_map.mp hx
    rcases List.mem_cons.mp hmem with heq | hmem
    · exact (hheads e).2 heq.symm
    · exact hdisjoint e he (event_mem_map.mp hmem)

theorem append_event {links : Links Node} {head : Node} {evs : List ℕ} {ev : ℕ}
    (h : Ring links head (evs.map Node.event)) (hhead : head ≠ .event ev) (hev : ev ∉ evs) :
    ∃ links', links.addToList (.event ev) head = some links' ∧
      Ring links' head ((evs ++ [ev]).map Node.event) ∧
      SameOff (head :: (ev :: evs).map Node.event) links links' := by
  rw [← List.append_nil (evs.map Node.event)] at h
  have hnew : Node.event ev ∉ head :: (evs.map Node.event ++ []) := by
    rw [List.append_nil]
    exact event_notMem hhead hev
  obtain ⟨links', hadd, hring, hsame⟩ := h.addToList hnew
  refine ⟨links', hadd, ?_, ?_⟩
  · rw [List.map_append]
    exact hring
  · refine (SameOff.refl _ links).trans hsame (List.Subset.refl _) ?_
    rw [List.append_nil, List.map_cons]
    exact (List.Perm.swap _ _ _).subset

/-- One timer goes from the head of timer_list to the end of pending_list. -/
theorem move_first {ev : ℕ} {evs due : List ℕ} {links : Links Node}
    (htimer : Ring links .timerList ((ev :: evs).map Node.event))
    (hpending : Ring links .pendingList (due.map Node.event))
    (hapart : ∀ e ∈ ev :: evs, e ∉ due) :
    ∃ links₁ links₂, links.removeFromList (.event ev) = some links₁ ∧
      links₁.addToList (.event ev) .pendingList = some links₂ ∧
      Ring links₂ .timerList (evs.map Node.event) ∧
      Ring links₂ .pendingList ((due ++ [ev]).map Node.event) ∧
      (∀ e ∈ evs, e ∉ due ++ [ev]) ∧
      SameOff (.timerList :: .pendingList :: ((ev :: evs) ++ due).map Node.event) links links₂ := by
  obtain ⟨links₁, hremove, htimer₁, -, -, hsame₁⟩ := htimer.removeFirst
  have hnodup : (ev :: evs).Nodup := by
    have hcells := (List.nodup_cons.mp htimer.nodup).2
    exact (List.nodup_map_iff event_injective).mp hcells
  have hev : ev ∉ evs := (List.nodup_cons.mp hnodup).1
  have hpending₁ : Ring links₁ .pendingList (due.map Node.event) :=
    frame_events (k := ev :: evs) hpending hsame₁ Node.noConfusion
      (fun _ => ⟨Node.noConfusion, Node.noConfusion⟩)
      fun e he hmem => hapart e hmem he
  obtain ⟨links₂, hadd, hpending₂, hsame₂⟩ :=
    append_event hpending₁ Node.noConfusion (hapart ev List.mem_cons_self)
  refine ⟨links₁, links₂, hremove, hadd, ?_, hpending₂, ?_, hsame₁.trans hsame₂ ?_ ?_⟩
  · refine frame_events (k := ev :: due) htimer₁ hsame₂ Node.noConfusion
      (fun _ => ⟨Node.noConfusion, Node.noConfusion⟩) ?_
    intro e he hmem
    rcases List.mem_cons.mp hmem with rfl | hmem
    · exact hev he
    · exact hapart e (List.mem_cons_of_mem _ he) hmem
  · intro e he hmem
    rcases List.mem_append.mp hmem with hmem | hmem
    · exact hapart e (List.mem_cons_of_mem _ he) hmem
    · rw [List.mem_singleton.mp hmem] at he
      exact hev he
  · intro x hx
    simp only [List.map_cons, List.map_append, List.mem_cons, List.mem_append] at hx ⊢
    tauto
  · intro x hx
    simp only [List.map_cons, List.map_append, List.mem_cons, List.mem_append] at hx ⊢
    tauto

/-- The loop moves the timers whose deadlines are past, in their order. -/
theorem expire_eq {evs due : List ℕ} {links : Links Node} {fuel : ℕ}
    (htimer : Ring links .timerList (evs.map Node.event))
    (hpending : Ring links .pendingList (due.map Node.event)) (hapart : ∀ ev ∈ evs, ev ∉ due)
    (hfuel : evs.length < fuel) :
    ∃ links', expire s fuel ((evs.map Node.event).headD .timerList) links = some links' ∧
      Ring links' .timerList ((evs.dropWhile fun ev =>
        decide ((s.event ev).timeout < s.clock)).map Node.event) ∧
      Ring links' .pendingList ((due ++ evs.takeWhile fun ev =>
        decide ((s.event ev).timeout < s.clock)).map Node.event) ∧
      SameOff (.timerList :: .pendingList :: (evs ++ due).map Node.event) links links' := by
  induction evs generalizing due links fuel with
  | nil =>
    cases fuel with
    | zero => cases hfuel
    | succ fuel =>
      refine ⟨links, by simp [expire], htimer, ?_, SameOff.refl _ _⟩
      rw [List.takeWhile_nil, List.append_nil]
      exact hpending
  | cons ev evs ih =>
    cases fuel with
    | zero => cases hfuel
    | succ fuel =>
      simp only [List.map_cons, List.headD_cons, expire, timerLess_iff]
      by_cases hpast : (s.event ev).timeout < s.clock
      · rw [if_pos ⟨Node.noConfusion, hpast⟩]
        have hnext := htimer.next_first
        obtain ⟨links₁, links₂, hremove, hadd, htimer₂, hpending₂, hapart₂, hsame₂⟩ :=
          move_first htimer hpending hapart
        obtain ⟨links₃, hexpire, htimer₃, hpending₃, hsame₃⟩ :=
          ih htimer₂ hpending₂ hapart₂ (Nat.lt_of_succ_lt_succ hfuel)
        refine ⟨links₃, ?_, ?_, ?_, ?_⟩
        · simp only [hnext, hremove, hadd, Option.bind_eq_bind, Option.bind_some]
          exact hexpire
        · rw [List.dropWhile_cons_of_pos (by simpa using hpast)]
          exact htimer₃
        · rw [List.takeWhile_cons_of_pos (by simpa using hpast)]
          rw [List.append_assoc] at hpending₃
          exact hpending₃
        · refine hsame₂.trans hsame₃ (List.Subset.refl _) ?_
          intro x hx
          simp only [List.map_cons, List.map_append, List.mem_cons, List.mem_append,
            List.map_nil, List.not_mem_nil] at hx ⊢
          tauto
      · rw [if_neg fun hboth => hpast hboth.2]
        refine ⟨links, rfl, ?_, ?_, SameOff.refl _ _⟩
        · rw [List.dropWhile_cons_of_neg (by simpa using hpast)]
          exact htimer
        · rw [List.takeWhile_cons_of_neg (by simpa using hpast), List.append_nil]
          exact hpending

theorem refines_processTimeouts (h : Represents s timers pending) (hempty : pending = [])
    (hlength : timers.length ≤ s.deadlines.length) :
    ∃ u, processTimeouts s = some u ∧ u.watchTable = s.watchTable ∧ u.deleted = s.deleted ∧
      Refines s u timers pending
        (timers.dropWhile fun ev => decide ((s.event ev).timeout < s.clock))
        (pending ++ timers.takeWhile fun ev => decide ((s.event ev).timeout < s.clock))
        .expire := by
  subst hempty
  set waiting := timers.dropWhile fun ev => decide ((s.event ev).timeout < s.clock)
  set due := timers.takeWhile fun ev => decide ((s.event ev).timeout < s.clock)
  have hsplit : due ++ waiting = timers := List.takeWhile_append_dropWhile
  have hin : ∀ ev, ev ∈ timers ↔ ev ∈ due ∨ ev ∈ waiting := by
    intro ev
    rw [← hsplit, List.mem_append]
  have hnodup : (due ++ waiting).Nodup := by
    rw [hsplit]
    have hcells := (List.nodup_cons.mp h.timerRing.nodup).2
    exact (List.nodup_map_iff event_injective).mp hcells
  obtain ⟨links, hexpire, htimer, hpending, hsame⟩ :=
    expire_eq (s := s) h.timerRing h.pendingRing h.apart (Nat.lt_succ_of_le hlength)
  refine ⟨{ s with links := links, phase := .timedOut, pass := s.pass + 1 }, ?_, rfl, rfl,
    ⟨htimer, hpending, ?_, ?_, ?_, ?_, h.index, h.watched⟩, ?_, ?_⟩
  · simp only [processTimeouts, h.timerRing.next_head, Option.bind_eq_bind, Option.bind_some]
    simp only [State.fuel, hexpire, Option.bind_some]
  · intro ev hev hdue
    exact (List.nodup_append.mp hnodup).2.2 ev hdue ev hev rfl
  · intro ev hwaiting hdue
    have hout : ev ∉ timers := by
      rw [hin, not_or]
      exact ⟨hdue, hwaiting⟩
    refine (hsame (.event ev) ?_).1.trans (h.unlinked ev hout List.not_mem_nil)
    rw [List.append_nil]
    simp only [List.mem_cons, reduceCtorEq, false_or, event_mem_map]
    exact hout
  · intro ev hev
    obtain ⟨hmem, hfd⟩ := h.numbered ev hev
    refine ⟨?_, hfd⟩
    have htimers : ev ∈ timers := hmem.resolve_right List.not_mem_nil
    exact ((hin ev).mp htimers).symm
  · intro ev hev
    exact h.timer ev ((hin ev).mpr (.inr hev))
  · intro ev hev
    exact h.timer_fd ((hin ev).mpr (.inl hev))
  · have hpast : Past s.clock ∘ s.timerAt =
        fun ev => decide ((s.event ev).timeout < s.clock) := rfl
    have hdue : due.filterMap s.timer = due.map s.timerAt :=
      h.filterMap_timer fun ev hev => (hin ev).mpr (.inl hev)
    simp only [queue, Queue.next, List.takeWhile_map, List.dropWhile_map, hpast,
      List.filterMap_nil, List.nil_append]
    rw [← show due.filterMap s.timer = due.map s.timerAt from hdue]
    rfl

end RilEventLoop
