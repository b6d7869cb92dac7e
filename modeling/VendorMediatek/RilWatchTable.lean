import Mathlib.Data.Fintype.Card
import VendorMediatek.RilEventTimers

/-!
# The watch table

Which events are watched is a history of the calls: those that have been added and since then
neither deleted nor taken out by a pass. The slots, readFds, nfds and the events' own indices say
just that, and one pass puts each ready event on the pending list once.
-/

namespace RilEventLoop

open LabelledRuns CircularList TimerQueue

variable {s : State} {timers pending : List ℕ}

/-- What the calls say: an event is watched from its addition to its deletion, or to the pass that
finds it ready if it is not persistent. -/
def watchedAfter (s : State) (watched : Finset ℕ) : Event → Finset ℕ
  | .rilEventAdd ev => insert ev watched
  | .rilEventDel ev => watched.erase ev
  | .processReadReadies rfds _ => watched.filter fun ev =>
      rfds (s.event ev).fd = true → (s.event ev).persist = true
  | _ => watched

/-- The loop with the events that are watched. -/
def watching : System (State × Finset ℕ) Event := loop.observed watchedAfter

/-- What the code keeps is what the calls say. -/
structure Agrees (s : State) (watched : Finset ℕ) : Prop where
  table : ∀ ev, s.InTable ev ↔ ev ∈ watched
  readFds : ∀ fd, s.readFds fd = true ↔ ∃ ev ∈ watched, (s.event ev).fd = fd
  index : ∀ ev ∈ watched, ∃ i, s.watchTable i = some ev ∧ (s.event ev).index = i
  unwatched : ∀ ev, ev ∉ watched → (s.event ev).index = -1
  nfds : ∀ ev ∈ watched, (s.event ev).fd < s.nfds

/-- An event is set, or added as a timer, when it is neither watched nor in a list. It is watched
once at a time, with a descriptor of its own, and there are at most MAX_FD_EVENTS of them. select
says how many descriptors are ready. -/
def WellWatched (s : State) (watched : Finset ℕ) : Event → Prop
  | .rilEventSet ev .. => ev ∉ watched ∧ ¬s.Linked ev
  | .rilTimerAdd ev tv => tv ≠ none → ev ∉ watched ∧ ¬s.Linked ev
  | .rilEventAdd ev => ev ∉ watched ∧ watched.card < maxFdEvents ∧
      0 ≤ (s.event ev).fd ∧ ∀ e ∈ watched, (s.event e).fd ≠ (s.event ev).fd
  | .processReadReadies rfds n => ∃ fds : Finset ℤ, (∀ fd, rfds fd = true ↔ fd ∈ fds) ∧ n = fds.card
  | _ => True

/-- The ready events come to the end of the pending list, each once, and those of them that are
not persistent leave the table. -/
def PutsReady (s : State) (watched : Finset ℕ) : Event → Prop
  | .processReadReadies rfds n => ∃ pending ready : List ℕ,
    Ring s.links .pendingList (pending.map Node.event) ∧
      Ring (next s (.processReadReadies rfds n)).links .pendingList
        ((pending ++ ready).map Node.event) ∧
      (pending ++ ready).Nodup ∧
      (∀ ev, ev ∈ ready ↔ ev ∈ watched ∧ rfds (s.event ev).fd = true) ∧
      ∀ ev, (next s (.processReadReadies rfds n)).InTable ev ↔
        ev ∈ watched ∧ (ev ∈ ready → (s.event ev).persist = true)
  | _ => True

/-! ## The table alone -/

/-- The slots, the set, the indices and the bound fit each other. -/
structure Watches (s : State) : Prop where
  readFds : ∀ fd, s.readFds fd = true ↔ ∃ ev, s.InTable ev ∧ (s.event ev).fd = fd
  index : ∀ ev (i : Fin maxFdEvents), s.watchTable i = some ev ↔ (s.event ev).index = i
  unwatched : ∀ ev, ¬s.InTable ev → (s.event ev).index = -1
  nfds : ∀ ev, s.InTable ev → (s.event ev).fd < s.nfds
  distinct : ∀ a b, s.InTable a → s.InTable b → (s.event a).fd = (s.event b).fd → a = b

theorem watches_init (clock : TimeVal) : Watches (rilEventInit clock) where
  readFds _ := ⟨nofun, by rintro ⟨ev, ⟨i, ⟨⟩⟩, _⟩⟩
  index ev i := by
    constructor
    · rintro ⟨⟩
    · intro hindex
      change (-1 : ℤ) = i at hindex
      omega
  unwatched _ _ := rfl
  nfds _ := by rintro ⟨i, ⟨⟩⟩
  distinct _ _ := by rintro ⟨i, ⟨⟩⟩

/-! ## Calls that leave the table alone -/

/-- The table stays as it is, and so do the watched events; the others keep no index. -/
theorem Watches.of_same {u : State} (h : Watches s) (htable : u.watchTable = s.watchTable)
    (hreadFds : u.readFds = s.readFds) (hnfds : u.nfds = s.nfds)
    (hwatched : ∀ ev, s.InTable ev →
      (u.event ev).fd = (s.event ev).fd ∧ (u.event ev).index = (s.event ev).index)
    (hother : ∀ ev, ¬s.InTable ev → (u.event ev).index = -1) : Watches u := by
  have hin : ∀ ev, u.InTable ev ↔ s.InTable ev := fun ev => by rw [State.InTable, htable]; rfl
  refine ⟨?_, ?_, ?_, ?_, ?_⟩
  · intro fd
    rw [hreadFds, h.readFds fd]
    refine exists_congr fun ev => ?_
    rw [hin]
    exact and_congr_right fun hev => by rw [(hwatched ev hev).1]
  · intro ev i
    rw [htable, h.index ev i]
    by_cases hev : s.InTable ev
    · rw [(hwatched ev hev).2]
    · rw [hother ev hev, h.unwatched ev hev]
  · exact fun ev hev => hother ev (mt (hin ev).mpr hev)
  · intro ev hev
    have hev := (hin ev).mp hev
    rw [(hwatched ev hev).1, hnfds]
    exact h.nfds ev hev
  · intro a b ha hb hfd
    have ha := (hin a).mp ha
    have hb := (hin b).mp hb
    rw [(hwatched a ha).1, (hwatched b hb).1] at hfd
    exact h.distinct a b ha hb hfd

theorem Watches.of_eq {u : State} (h : Watches s) (htable : u.watchTable = s.watchTable)
    (hreadFds : u.readFds = s.readFds) (hnfds : u.nfds = s.nfds) (hevent : u.event = s.event) :
    Watches u :=
  h.of_same htable hreadFds hnfds (fun _ _ => by rw [hevent]; exact ⟨rfl, rfl⟩)
    fun ev hev => by rw [hevent]; exact h.unwatched ev hev

theorem Watches.of_update {u : State} (h : Watches s) {ev : ℕ} (hev : ¬s.InTable ev)
    {r : RilEvent} (hr : r.index = -1) (htable : u.watchTable = s.watchTable)
    (hreadFds : u.readFds = s.readFds) (hnfds : u.nfds = s.nfds)
    (hevent : u.event = Function.update s.event ev r) : Watches u := by
  refine h.of_same htable hreadFds hnfds ?_ ?_
  · intro e he
    have hne : e ≠ ev := by
      rintro rfl
      exact hev he
    rw [hevent, Function.update_of_ne hne]
    exact ⟨rfl, rfl⟩
  · intro e he
    rw [hevent]
    by_cases hne : e = ev
    · rw [hne, Function.update_self]
      exact hr
    · rw [Function.update_of_ne hne]
      exact h.unwatched e he

/-! ## Adding and removing -/

/-- One step of the loop that looks for the highest descriptor. -/
def raiseFd (s : State) (n : ℤ) (i : Fin maxFdEvents) : ℤ :=
  match s.watchTable i with
  | some rev => if (s.event rev).fd > n then (s.event rev).fd else n
  | none => n

theorem le_raiseFd (s : State) (n : ℤ) (i : Fin maxFdEvents) : n ≤ raiseFd s n i := by
  rw [raiseFd]
  split
  · split <;> omega
  · exact le_rfl

theorem fd_le_raiseFd {ev : ℕ} {i : Fin maxFdEvents} (h : s.watchTable i = some ev) (n : ℤ) :
    (s.event ev).fd ≤ raiseFd s n i := by
  rw [raiseFd, h]
  dsimp only
  split <;> omega

theorem le_foldl_raiseFd (s : State) (slots : List (Fin maxFdEvents)) (n : ℤ) :
    n ≤ slots.foldl (raiseFd s) n := by
  induction slots generalizing n with
  | nil => exact le_rfl
  | cons i slots ih => exact (le_raiseFd s n i).trans (ih _)

theorem fd_le_foldl_raiseFd {ev : ℕ} {i : Fin maxFdEvents} (h : s.watchTable i = some ev)
    {slots : List (Fin maxFdEvents)} (hi : i ∈ slots) (n : ℤ) :
    (s.event ev).fd ≤ slots.foldl (raiseFd s) n := by
  induction slots generalizing n with
  | nil => cases hi
  | cons j slots ih =>
    rcases List.mem_cons.mp hi with rfl | hi
    · exact (fd_le_raiseFd h n).trans (le_foldl_raiseFd s slots _)
    · exact ih hi _

theorem fd_le_maxFd {ev : ℕ} (h : s.InTable ev) : (s.event ev).fd ≤ s.maxFd := by
  obtain ⟨i, hi⟩ := h
  exact fd_le_foldl_raiseFd hi (List.mem_finRange i) 0

theorem inTable_cleared (h : Watches s) {ev : ℕ} {i : Fin maxFdEvents}
    (hi : s.watchTable i = some ev) (e : ℕ) :
    (∃ j, Function.update s.watchTable i none j = some e) ↔ s.InTable e ∧ e ≠ ev := by
  constructor
  · rintro ⟨j, hj⟩
    by_cases hji : j = i
    · rw [hji, Function.update_self] at hj
      cases hj
    · rw [Function.update_of_ne hji] at hj
      refine ⟨⟨j, hj⟩, ?_⟩
      rintro rfl
      exact hji (slot_unique h.index hj hi)
  · rintro ⟨⟨j, hj⟩, hne⟩
    refine ⟨j, ?_⟩
    rw [Function.update_of_ne]
    · exact hj
    · rintro rfl
      rw [hi] at hj
      exact hne (Option.some.inj hj).symm

theorem removeWatch_table (s : State) (ev : ℕ) (i : Fin maxFdEvents) :
    (removeWatch s ev i).watchTable = Function.update s.watchTable i none ∧
      (removeWatch s ev i).event =
        Function.update s.event ev { s.event ev with index := -1 } ∧
      (removeWatch s ev i).readFds = Function.update s.readFds (s.event ev).fd false ∧
      (removeWatch s ev i).links = s.links ∧
      ((removeWatch s ev i).nfds = s.nfds ∧ (s.event ev).fd + 1 ≠ s.nfds ∨
        (removeWatch s ev i).nfds = (removeWatch s ev i).maxFd + 1) := by
  simp only [removeWatch]
  split
  · exact ⟨rfl, rfl, rfl, rfl, Or.inr rfl⟩
  · rename_i hne
    exact ⟨rfl, rfl, rfl, rfl, Or.inl ⟨rfl, hne⟩⟩

theorem inTable_removeWatch (h : Watches s) {ev : ℕ} {i : Fin maxFdEvents}
    (hi : s.watchTable i = some ev) (e : ℕ) :
    (removeWatch s ev i).InTable e ↔ s.InTable e ∧ e ≠ ev := by
  rw [State.InTable, (removeWatch_table s ev i).1]
  exact inTable_cleared h hi e

theorem fd_removeWatch (s : State) (ev : ℕ) (i : Fin maxFdEvents) (e : ℕ) :
    ((removeWatch s ev i).event e).fd = (s.event e).fd := by
  rw [(removeWatch_table s ev i).2.1, fd_setIndex]

theorem watches_removeWatch (h : Watches s) (hr : Represents s timers pending) {ev : ℕ}
    {i : Fin maxFdEvents} (hi : s.watchTable i = some ev) : Watches (removeWatch s ev i) := by
  obtain ⟨htable, hevent, hreadFds, -, hnfds⟩ := removeWatch_table s ev i
  have hin := inTable_removeWatch h hi
  have hfd := fd_removeWatch s ev i
  have hev : s.InTable ev := ⟨i, hi⟩
  refine ⟨?_, ?_, ?_, ?_, ?_⟩
  · intro fd
    rw [hreadFds]
    by_cases he : fd = (s.event ev).fd
    · rw [he, Function.update_self]
      refine iff_of_false nofun ?_
      rintro ⟨e, hein, hefd⟩
      rw [hin] at hein
      rw [hfd] at hefd
      exact hein.2 (h.distinct e ev hein.1 hev hefd)
    · rw [Function.update_of_ne he, h.readFds fd]
      refine exists_congr fun e => ?_
      rw [hin, hfd]
      constructor
      · rintro ⟨hein, rfl⟩
        exact ⟨⟨hein, fun heq => he (by rw [heq])⟩, rfl⟩
      · rintro ⟨⟨hein, _⟩, hefd⟩
        exact ⟨hein, hefd⟩
  · intro e j
    rw [htable, hevent]
    exact index_removed hr hi e j
  · intro e he
    rw [hin, not_and_or, not_not] at he
    rw [hevent]
    by_cases hne : e = ev
    · rw [hne, Function.update_self]
    · rw [Function.update_of_ne hne]
      exact h.unwatched e (he.resolve_right hne)
  · intro e he
    rcases hnfds with ⟨hkept, hne⟩ | hmax
    · rw [hkept, hfd]
      exact h.nfds e ((hin e).mp he).1
    · rw [hmax]
      have := fd_le_maxFd he
      omega
  · intro a b ha hb hab
    rw [hin] at ha hb
    rw [hfd, hfd] at hab
    exact h.distinct a b ha.1 hb.1 hab

theorem watches_rilEventDel (h : Watches s) (hr : Represents s timers pending) (ev : ℕ) :
    Watches (rilEventDel s ev) := by
  have hdeleted : Watches { s with deleted := Function.update s.deleted ev true } :=
    h.of_eq rfl rfl rfl rfl
  rcases rilEventDel_cases s ev with ⟨heq, -⟩ | ⟨i, hi, heq⟩
  · rw [heq]
    exact hdeleted
  · rw [heq]
    exact watches_removeWatch hdeleted
      (hr.of_same_lists rfl rfl (fun _ => rfl) hr.index hr.watched) ((h.index ev i).mpr hi)

theorem rilEventAdd_table (s : State) (ev : ℕ) :
    (∀ i, s.watchTable i ≠ none) ∧
      rilEventAdd s ev = { s with deleted := Function.update s.deleted ev false } ∨
      ∃ i, s.watchTable i = none ∧
        (rilEventAdd s ev).watchTable = Function.update s.watchTable i (some ev) ∧
        (rilEventAdd s ev).event =
          Function.update s.event ev { s.event ev with index := (i : ℤ) } ∧
        (rilEventAdd s ev).readFds = Function.update s.readFds (s.event ev).fd true ∧
        s.nfds ≤ (rilEventAdd s ev).nfds ∧ (s.event ev).fd < (rilEventAdd s ev).nfds := by
  simp only [rilEventAdd]
  split
  · rename_i hfind
    refine Or.inl ⟨fun i hi => ?_, rfl⟩
    have hfull := List.find?_eq_none.mp hfind i (List.mem_finRange i)
    rw [hi] at hfull
    exact hfull rfl
  · rename_i i hfind
    right
    have hfree : s.watchTable i = none := by simpa using List.find?_some hfind
    simp only [State.setEvent, Function.update_self]
    split
    · rename_i hge
      exact ⟨i, hfree, rfl, rfl, rfl, (show s.nfds ≤ (s.event ev).fd + 1 by omega), Int.lt_succ _⟩
    · rename_i hlt
      exact ⟨i, hfree, rfl, rfl, rfl, le_rfl, Int.not_le.mp hlt⟩

theorem inTable_filled {ev : ℕ} {i : Fin maxFdEvents} (hfree : s.watchTable i = none) (e : ℕ) :
    (∃ j, Function.update s.watchTable i (some ev) j = some e) ↔ s.InTable e ∨ e = ev := by
  constructor
  · rintro ⟨j, hj⟩
    by_cases hji : j = i
    · rw [hji, Function.update_self] at hj
      exact Or.inr (Option.some.inj hj).symm
    · rw [Function.update_of_ne hji] at hj
      exact Or.inl ⟨j, hj⟩
  · rintro (⟨j, hj⟩ | rfl)
    · refine ⟨j, ?_⟩
      rw [Function.update_of_ne]
      · exact hj
      · rintro rfl
        rw [hfree] at hj
        cases hj
    · exact ⟨i, Function.update_self ..⟩

theorem watches_rilEventAdd (h : Watches s) (hr : Represents s timers pending) {ev : ℕ}
    (hnot : ¬s.InTable ev) (hown : ∀ e, s.InTable e → (s.event e).fd ≠ (s.event ev).fd) :
    Watches (rilEventAdd s ev) := by
  rcases rilEventAdd_table s ev with ⟨-, heq⟩ | ⟨i, hfree, htable, hevent, hreadFds, hnfds, hlt⟩
  · rw [heq]
    exact h.of_eq rfl rfl rfl rfl
  · have hin : ∀ e, (rilEventAdd s ev).InTable e ↔ s.InTable e ∨ e = ev := by
      intro e
      rw [State.InTable, htable]
      exact inTable_filled hfree e
    have hfd : ∀ e, ((rilEventAdd s ev).event e).fd = (s.event e).fd := by
      intro e
      rw [hevent, fd_setIndex]
    refine ⟨?_, ?_, ?_, ?_, ?_⟩
    · intro fd
      rw [hreadFds]
      by_cases he : fd = (s.event ev).fd
      · rw [he, Function.update_self]
        exact iff_of_true rfl ⟨ev, (hin ev).mpr (Or.inr rfl), hfd ev⟩
      · rw [Function.update_of_ne he, h.readFds fd]
        constructor
        · rintro ⟨e, hein, hefd⟩
          exact ⟨e, (hin e).mpr (Or.inl hein), (hfd e).trans hefd⟩
        · rintro ⟨e, hein, hefd⟩
          rw [hfd] at hefd
          rcases (hin e).mp hein with hein | rfl
          · exact ⟨e, hein, hefd⟩
          · exact absurd hefd.symm he
    · intro e j
      rw [htable, hevent]
      exact index_added hr hfree hnot e j
    · intro e he
      rw [hin, not_or] at he
      rw [hevent, Function.update_of_ne he.2]
      exact h.unwatched e he.1
    · intro e he
      rw [hfd]
      rcases (hin e).mp he with he | rfl
      · exact (h.nfds e he).trans_le hnfds
      · exact hlt
    · intro a b ha hb hab
      rw [hfd, hfd] at hab
      rcases (hin a).mp ha with hain | haev <;> rcases (hin b).mp hb with hbin | hbev
      · exact h.distinct a b hain hbin hab
      · exact absurd (hbev ▸ hab) (hown a hain)
      · exact absurd (haev ▸ hab.symm) (hown b hbin)
      · exact haev.trans hbev.symm

/-! ## processReadReadies -/

def readyAt (s : State) (rfds : ℤ → Bool) (i : Fin maxFdEvents) : Option ℕ :=
  (s.watchTable i).filter fun ev => rfds (s.event ev).fd

/-- The ready events of some slots, in their order. -/
def readyIn (s : State) (rfds : ℤ → Bool) (slots : List (Fin maxFdEvents)) : List ℕ :=
  slots.filterMap (readyAt s rfds)

theorem readyAt_eq_some_iff {rfds : ℤ → Bool} {i : Fin maxFdEvents} {ev : ℕ} :
    readyAt s rfds i = some ev ↔ s.watchTable i = some ev ∧ rfds (s.event ev).fd = true :=
  Option.filter_eq_some_iff

theorem mem_readyIn {rfds : ℤ → Bool} {slots : List (Fin maxFdEvents)} {ev : ℕ} :
    ev ∈ readyIn s rfds slots ↔
      (∃ i ∈ slots, s.watchTable i = some ev) ∧ rfds (s.event ev).fd = true := by
  simp only [readyIn, List.mem_filterMap, readyAt_eq_some_iff]
  constructor
  · rintro ⟨i, hi, hev, hready⟩
    exact ⟨⟨i, hi, hev⟩, hready⟩
  · rintro ⟨⟨i, hi, hev⟩, hready⟩
    exact ⟨i, hi, hev, hready⟩

theorem nodup_readyIn (h : Watches s) (rfds : ℤ → Bool) {slots : List (Fin maxFdEvents)}
    (hslots : slots.Nodup) : (readyIn s rfds slots).Nodup := by
  refine hslots.filterMap fun i j ev hi hj => ?_
  exact slot_unique h.index (readyAt_eq_some_iff.mp hi).1 (readyAt_eq_some_iff.mp hj).1

theorem readyIn_cons_some {rfds : ℤ → Bool} {i : Fin maxFdEvents} {rest : List (Fin maxFdEvents)}
    {ev : ℕ} (h : readyAt s rfds i = some ev) :
    readyIn s rfds (i :: rest) = ev :: readyIn s rfds rest := List.filterMap_cons_some h

theorem readyIn_cons_none {rfds : ℤ → Bool} {i : Fin maxFdEvents} {rest : List (Fin maxFdEvents)}
    (h : readyAt s rfds i = none) : readyIn s rfds (i :: rest) = readyIn s rfds rest :=
  List.filterMap_cons_none h

theorem length_readyIn_le (h : Watches s) {rfds : ℤ → Bool} {fds : Finset ℤ}
    (hfds : ∀ fd, rfds fd = true ↔ fd ∈ fds) {slots : List (Fin maxFdEvents)}
    (hslots : slots.Nodup) : (readyIn s rfds slots).length ≤ fds.card := by
  have hnodup : ((readyIn s rfds slots).map fun ev => (s.event ev).fd).Nodup := by
    refine List.Nodup.map_on ?_ (nodup_readyIn h rfds hslots)
    intro a ha b hb hab
    obtain ⟨⟨i, _, hi⟩, _⟩ := mem_readyIn.mp ha
    obtain ⟨⟨j, _, hj⟩, _⟩ := mem_readyIn.mp hb
    exact h.distinct a b ⟨i, hi⟩ ⟨j, hj⟩ hab
  rw [← List.length_map, ← List.toFinset_card_of_nodup hnodup]
  refine Finset.card_le_card fun fd hfd => ?_
  obtain ⟨ev, hev, rfl⟩ := List.mem_map.mp (List.mem_toFinset.mp hfd)
  exact (hfds _).mp (mem_readyIn.mp hev).2

theorem readyIn_congr {u : State} {slots : List (Fin maxFdEvents)} (rfds : ℤ → Bool)
    (htable : ∀ i ∈ slots, u.watchTable i = s.watchTable i)
    (hfd : ∀ ev, (u.event ev).fd = (s.event ev).fd) :
    readyIn u rfds slots = readyIn s rfds slots := by
  refine List.filterMap_congr fun i hi => ?_
  rw [readyAt, htable i hi]
  simp only [hfd]
  rfl

/-- What one ready event changes: it is appended, and leaves the table if it is not persistent. -/
structure ReadyStep (s t : State) (timers pending : List ℕ) (rev : ℕ) (i : Fin maxFdEvents) :
    Prop where
  represents : Represents t timers (pending ++ [rev])
  watches : Watches t
  table : ∀ ev, t.InTable ev ↔ s.InTable ev ∧ (ev = rev → (s.event ev).persist = true)
  others : ∀ j, j ≠ i → t.watchTable j = s.watchTable j
  fd : ∀ ev, (t.event ev).fd = (s.event ev).fd
  persist : ∀ ev, (t.event ev).persist = (s.event ev).persist

theorem persist_removeWatch (s : State) (ev : ℕ) (i : Fin maxFdEvents) (e : ℕ) :
    ((removeWatch s ev i).event e).persist = (s.event e).persist := by
  rw [(removeWatch_table s ev i).2.1]
  by_cases he : e = ev
  · rw [he, Function.update_self]
  · rw [Function.update_of_ne he]

theorem readyStep (h : Represents s timers pending) (hw : Watches s) {rev : ℕ}
    {i : Fin maxFdEvents} (hi : s.watchTable i = some rev) (hpending : rev ∉ pending) :
    ∃ links, s.links.addToList (.event rev) .pendingList = some links ∧
      ReadyStep s (if (s.event rev).persist = false then
        removeWatch { s with links := links } rev i else { s with links := links })
        timers pending rev i := by
  obtain ⟨links, hadd, hone⟩ := readied_one h hi hpending
  obtain ⟨links', hadd', hrep, -⟩ := append_watched h ⟨i, hi⟩ hpending
  obtain rfl : links' = links := Option.some.inj (hadd'.symm.trans hadd)
  have hlinked : Watches { s with links := links' } := hw.of_eq rfl rfl rfl rfl
  refine ⟨links', hadd, hone.represents, ?_, ?_, ?_, ?_, ?_⟩
  · split
    · exact watches_removeWatch hlinked hrep hi
    · exact hlinked
  · intro ev
    split
    · rename_i hpersist
      rw [inTable_removeWatch hlinked hi]
      refine and_congr_right fun _ => ⟨fun hne he => absurd he hne, ?_⟩
      rintro hp rfl
      rw [hp rfl] at hpersist
      cases hpersist
    · rename_i hpersist
      refine (and_iff_left ?_).symm
      rintro rfl
      exact Bool.of_not_eq_false hpersist
  · intro j hj
    split
    · rw [(removeWatch_table _ rev i).1, Function.update_of_ne hj]
    · rfl
  · intro ev
    split
    · exact fd_removeWatch { s with links := links' } rev i ev
    · rfl
  · intro ev
    split
    · exact persist_removeWatch { s with links := links' } rev i ev
    · rfl

theorem readReadies_puts (rfds : ℤ → Bool) {slots : List (Fin maxFdEvents)} (hslots : slots.Nodup)
    {n : ℤ} (h : Represents s timers pending) (hw : Watches s)
    (hfree : ∀ ev ∈ pending, ∀ i ∈ slots, s.watchTable i ≠ some ev)
    (hn : ((readyIn s rfds slots).length : ℤ) ≤ n) :
    ∃ u, readReadies rfds slots n s = some u ∧
      Represents u timers (pending ++ readyIn s rfds slots) ∧ Watches u ∧
      ∀ ev, u.InTable ev ↔
        s.InTable ev ∧ (ev ∈ readyIn s rfds slots → (s.event ev).persist = true) := by
  induction slots generalizing n s pending with
  | nil =>
    refine ⟨s, rfl, ?_, hw, fun ev => (and_iff_left fun hmem => absurd hmem List.not_mem_nil).symm⟩
    rw [readyIn, List.filterMap_nil, List.append_nil]
    exact h
  | cons i rest ih =>
    obtain ⟨hi, hrest⟩ := List.nodup_cons.mp hslots
    have hskip : ∀ ev ∈ pending, ∀ j ∈ rest, s.watchTable j ≠ some ev :=
      fun ev hev j hj => hfree ev hev j (List.mem_cons_of_mem _ hj)
    simp only [readReadies]
    by_cases hpos : 0 < n
    · rw [if_pos hpos]
      cases hrev : s.watchTable i with
      | none =>
        rw [readyIn_cons_none (by rw [readyAt, hrev]; rfl)] at hn ⊢
        exact ih hrest h hw hskip hn
      | some rev =>
        by_cases hset : rfds (s.event rev).fd = true
        · have hready : readyIn s rfds (i :: rest) = rev :: readyIn s rfds rest :=
            readyIn_cons_some (readyAt_eq_some_iff.mpr ⟨hrev, hset⟩)
          have hnot : rev ∉ pending := fun hmem => hfree rev hmem i List.mem_cons_self hrev
          obtain ⟨links, hadd, hstep⟩ := readyStep h hw hrev hnot
          simp only [hset, if_true, hadd, Option.bind_eq_bind, Option.bind_some]
          set t := if (s.event rev).persist = false then
            removeWatch { s with links := links } rev i else { s with links := links }
          have hothers : ∀ j ∈ rest, t.watchTable j = s.watchTable j := fun j hj =>
            hstep.others j fun he => hi (he ▸ hj)
          have hsame : readyIn t rfds rest = readyIn s rfds rest :=
            readyIn_congr rfds hothers hstep.fd
          have hfree' := pending_unwatched h hskip hrev hi (t := t) fun e j hj hej =>
            (hothers j hj).symm.trans hej
          rw [hready, List.length_cons] at hn
          obtain ⟨u, hu, hrep, hwatch, htable⟩ :=
            ih hrest hstep.represents hstep.watches hfree' (n := n - 1) (by rw [hsame]; omega)
          rw [hsame, List.append_assoc] at hrep
          refine ⟨u, hu, hready ▸ hrep, hwatch, ?_⟩
          intro ev
          rw [htable ev, hstep.table ev, hsame, hstep.persist ev, hready, List.mem_cons]
          tauto
        · have hunready : readyAt s rfds i = none := by
            rw [readyAt, hrev]
            exact Option.filter_some_neg (eq_false_of_ne_true hset)
          rw [readyIn_cons_none hunready] at hn ⊢
          simp only [hset]
          exact ih hrest h hw hskip hn
    · have hnil : readyIn s rfds (i :: rest) = [] := List.length_eq_zero_iff.mp (by omega)
      rw [if_neg hpos, hnil, List.append_nil]
      exact ⟨s, rfl, h, hw, fun ev => (and_iff_left fun hmem => absurd hmem List.not_mem_nil).symm⟩

theorem not_watched_of_follows (h : Represents s timers pending) (hf : Follows s pending)
    (hphase : s.phase = .timedOut) {ev : ℕ} (hev : ev ∈ pending) : ¬s.InTable ev := by
  rw [Follows, hphase] at hf
  exact h.not_watched (hf ev hev)

theorem mem_readyIn_all {rfds : ℤ → Bool} {ev : ℕ} :
    ev ∈ readyIn s rfds (List.finRange maxFdEvents) ↔
      s.InTable ev ∧ rfds (s.event ev).fd = true := by
  simp only [mem_readyIn, List.mem_finRange, true_and]
  rfl

theorem processReadReadies_puts (h : Represents s timers pending) (hf : Follows s pending)
    (hphase : s.phase = .timedOut) (hw : Watches s) {rfds : ℤ → Bool} {fds : Finset ℤ}
    (hfds : ∀ fd, rfds fd = true ↔ fd ∈ fds) :
    ∃ u ready, step s (.processReadReadies rfds fds.card) = some u ∧ Watches u ∧
      Ring u.links .pendingList ((pending ++ ready).map Node.event) ∧ (pending ++ ready).Nodup ∧
      (∀ ev, ev ∈ ready ↔ s.InTable ev ∧ rfds (s.event ev).fd = true) ∧
      ∀ ev, u.InTable ev ↔ s.InTable ev ∧ (ev ∈ ready → (s.event ev).persist = true) := by
  have hslots := List.nodup_finRange maxFdEvents
  obtain ⟨u, hu, hrep, hwatch, htable⟩ := readReadies_puts rfds hslots h hw
    (fun ev hev i _ hi => not_watched_of_follows h hf hphase hev ⟨i, hi⟩)
    (Int.ofNat_le.mpr (length_readyIn_le hw hfds hslots))
  obtain ⟨node, hnode⟩ : ∃ node, u.links.next .pendingList = some node :=
    ⟨_, hrep.pendingRing.next_head⟩
  refine ⟨{ u with phase := .firing node }, readyIn s rfds (List.finRange maxFdEvents), ?_,
    hwatch.of_eq rfl rfl rfl rfl, hrep.pendingRing, ?_, fun _ => mem_readyIn_all, htable⟩
  · simp only [step, processReadReadies, hu, hnode, Option.bind_eq_bind, Option.bind_some]
  · have hcells := (List.nodup_cons.mp hrep.pendingRing.nodup).2
    exact (List.nodup_map_iff event_injective).mp hcells

/-! ## What is watched -/

/-- The table is that of the events that the calls say are watched. -/
structure Tracks (s : State) (watched : Finset ℕ) : Prop extends Watches s where
  table : ∀ ev, s.InTable ev ↔ ev ∈ watched

variable {watched : Finset ℕ}

theorem tracks_init (clock : TimeVal) : Tracks (rilEventInit clock) ∅ where
  toWatches := watches_init clock
  table ev := iff_of_false (by rintro ⟨i, ⟨⟩⟩) (Finset.notMem_empty ev)

theorem Tracks.of_eq {u : State} (h : Tracks s watched) (htable : u.watchTable = s.watchTable)
    (hreadFds : u.readFds = s.readFds) (hnfds : u.nfds = s.nfds) (hevent : u.event = s.event) :
    Tracks u watched where
  toWatches := h.toWatches.of_eq htable hreadFds hnfds hevent
  table ev := by rw [State.InTable, htable]; exact h.table ev

theorem Tracks.of_update {u : State} (h : Tracks s watched) {ev : ℕ} (hev : ev ∉ watched)
    {r : RilEvent} (hr : r.index = -1) (htable : u.watchTable = s.watchTable)
    (hreadFds : u.readFds = s.readFds) (hnfds : u.nfds = s.nfds)
    (hevent : u.event = Function.update s.event ev r) : Tracks u watched where
  toWatches := h.toWatches.of_update (mt (h.table ev).mp hev) hr htable hreadFds hnfds hevent
  table e := by rw [State.InTable, htable]; exact h.table e

theorem Tracks.card_of_full (h : Tracks s watched) (hfull : ∀ i, s.watchTable i ≠ none) :
    maxFdEvents ≤ watched.card := by
  choose ev hev using fun i => Option.ne_none_iff_exists'.mp (hfull i)
  have hinjective : Function.Injective ev := fun i j hij =>
    slot_unique h.index (hev i) (hij ▸ hev j)
  calc maxFdEvents = (Finset.univ.image ev).card := by
        rw [Finset.card_image_of_injective _ hinjective, Finset.card_univ, Fintype.card_fin]
    _ ≤ watched.card := by
        refine Finset.card_le_card fun e he => ?_
        obtain ⟨i, -, rfl⟩ := Finset.mem_image.mp he
        exact (h.table _).mp ⟨i, hev i⟩

/-- So as long as fewer are watched, an event that is added gets a slot. -/
theorem tracks_rilEventAdd (h : Tracks s watched) (hr : Represents s timers pending) {ev : ℕ}
    (hnot : ev ∉ watched) (hcard : watched.card < maxFdEvents)
    (hown : ∀ e ∈ watched, (s.event e).fd ≠ (s.event ev).fd) :
    Tracks (rilEventAdd s ev) (insert ev watched) where
  toWatches := watches_rilEventAdd h.toWatches hr (mt (h.table ev).mp hnot)
    fun e he => hown e ((h.table e).mp he)
  table e := by
    rcases rilEventAdd_table s ev with ⟨hfull, -⟩ | ⟨i, hfree, htable, -⟩
    · have := h.card_of_full hfull
      omega
    · rw [State.InTable, htable, inTable_filled hfree, h.table, Finset.mem_insert, or_comm]

theorem tracks_rilEventDel (h : Tracks s watched) (hr : Represents s timers pending) (ev : ℕ) :
    Tracks (rilEventDel s ev) (watched.erase ev) where
  toWatches := watches_rilEventDel h.toWatches hr ev
  table e := by
    rw [Finset.mem_erase, ← h.table e]
    rcases rilEventDel_cases s ev with ⟨heq, hindex⟩ | ⟨i, hi, heq⟩
    · rw [heq]
      refine ⟨fun he => ⟨?_, he⟩, And.right⟩
      rintro rfl
      obtain ⟨i, hslot⟩ : s.InTable e := he
      exact hindex i ((h.index e i).mp hslot)
    · have hdeleted : Watches { s with deleted := Function.update s.deleted ev true } :=
        h.toWatches.of_eq rfl rfl rfl rfl
      rw [heq, inTable_removeWatch hdeleted ((h.index ev i).mpr hi), and_comm]
      rfl

theorem tracks_processReadReadies (h : Tracks s watched) (hs : Sound s timers pending)
    (hphase : s.phase = .timedOut) {rfds : ℤ → Bool} {fds : Finset ℤ}
    (hfds : ∀ fd, rfds fd = true ↔ fd ∈ fds) :
    Tracks (next s (.processReadReadies rfds fds.card))
        (watchedAfter s watched (.processReadReadies rfds fds.card)) ∧
      PutsReady s watched (.processReadReadies rfds fds.card) := by
  obtain ⟨u, ready, hstep, hwatch, hring, hnodup, hready, htable⟩ :=
    processReadReadies_puts hs.represents hs.follows hphase h.toWatches hfds
  have hnext : next s (.processReadReadies rfds fds.card) = u := by rw [next, hstep]; rfl
  simp only [h.table] at hready htable
  rw [PutsReady, hnext]
  refine ⟨⟨hwatch, fun ev => ?_⟩, pending, ready, hs.represents.pendingRing, hring, hnodup, hready,
    htable⟩
  rw [htable, watchedAfter, Finset.mem_filter, hready]
  tauto

/-! ## Runs -/

theorem tracks_rilTimerAdd (h : Tracks s watched) {ev : ℕ} {tv : Option TimeVal} {u : State}
    (hused : tv ≠ none → ev ∉ watched) (hu : rilTimerAdd s ev tv = some u) : Tracks u watched := by
  cases tv with
  | none =>
    cases hu
    exact h
  | some tv =>
    have hev := hused (Option.some_ne_none tv)
    simp only [rilTimerAdd, Option.bind_eq_bind, Option.bind_eq_some_iff] at hu
    obtain ⟨first, -, node, -, links, -, hu⟩ := hu
    cases hu
    exact h.of_update (r := { s.event ev with fd := -1, timeout := timerAdd s.clock tv }) hev
      (h.unwatched ev (mt (h.table ev).mp hev)) rfl rfl rfl rfl

theorem tracks_next (hs : Sound s timers pending) (h : Tracks s watched) {e : Event}
    (he : Enabled s e) (hu : WellWatched s watched e) :
    Tracks (next s e) (watchedAfter s watched e) := by
  cases e with
  | rilEventSet ev fd persist func param => exact h.of_update hu.1 rfl rfl rfl rfl rfl
  | rilEventAdd ev => exact tracks_rilEventAdd h hs.represents hu.1 hu.2.1 hu.2.2.2
  | rilEventDel ev => exact tracks_rilEventDel h hs.represents ev
  | rilTimerAdd ev tv =>
    rw [next]
    cases hstep : step s (.rilTimerAdd ev tv) with
    | none => exact h
    | some u => exact tracks_rilTimerAdd h (fun htv => (hu htv).1) hstep
  | processReadReadies rfds n =>
    obtain ⟨fds, hfds, rfl⟩ := hu
    exact (tracks_processReadReadies h hs he hfds).1
  | processTimeouts =>
    rw [next]
    cases hstep : step s .processTimeouts with
    | none => exact h
    | some u =>
      simp only [step, processTimeouts, Option.bind_eq_bind, Option.bind_eq_some_iff] at hstep
      obtain ⟨tev, -, links, -, hu⟩ := hstep
      cases hu
      exact h.of_eq rfl rfl rfl rfl
  | firePending ev =>
    rw [next]
    cases hstep : step s (.firePending ev) with
    | none => exact h
    | some u =>
      simp only [step, firePending, Option.bind_eq_bind, Option.bind_eq_some_iff] at hstep
      obtain ⟨node, -, links, -, hu⟩ := hstep
      cases hu
      exact h.of_eq rfl rfl rfl rfl
  | calcNextTimeout =>
    rw [next]
    cases hstep : step s .calcNextTimeout with
    | none => exact h
    | some u =>
      obtain ⟨tv, -, rfl⟩ := Option.map_eq_some_iff.mp hstep
      exact h.of_eq rfl rfl rfl rfl
  | callbackReturns =>
    obtain ⟨node, hnode⟩ := he
    simp only [next, step, hnode, Option.getD_some]
    exact h.of_eq rfl rfl rfl rfl
  | clock now => exact h.of_eq rfl rfl rfl rfl
  | interrupted => exact h.of_eq rfl rfl rfl rfl
  | endOfPass => exact h.of_eq rfl rfl rfl rfl

theorem Tracks.agrees (h : Tracks s watched) : Agrees s watched where
  table := h.table
  readFds fd := by
    rw [h.readFds]
    exact exists_congr fun ev => and_congr_left fun _ => h.table ev
  index ev hev := by
    obtain ⟨i, hi⟩ := (h.table ev).mpr hev
    exact ⟨i, hi, (h.index ev i).mp hi⟩
  unwatched ev hev := h.unwatched ev (mt (h.table ev).mp hev)
  nfds ev hev := h.nfds ev ((h.table ev).mpr hev)

/-- Where the table is what the calls say, they are used as the other results on the loop ask. -/
theorem Tracks.wellUsed (h : Tracks s watched) {e : Event} (hu : WellWatched s watched e) :
    WellUsed s e := by
  cases e with
  | rilEventSet ev fd persist func param => exact ⟨mt (h.table ev).mp hu.1, hu.2⟩
  | rilTimerAdd ev tv => exact fun htv => ⟨mt (h.table ev).mp (hu htv).1, (hu htv).2⟩
  | rilEventAdd ev => exact ⟨mt (h.table ev).mp hu.1, hu.2.2.1⟩
  | _ => trivial

theorem putsReady_of_tracks (hs : Sound s timers pending) (h : Tracks s watched) {e : Event}
    (he : Enabled s e) (hu : WellWatched s watched e) : PutsReady s watched e := by
  cases e with
  | processReadReadies rfds n =>
    obtain ⟨fds, hfds, rfl⟩ := hu
    exact (tracks_processReadReadies h hs he hfds).2
  | _ => trivial

/-- In every run the slots, readFds, nfds and the indices say in every state which events are
watched by the calls, and every pass puts each of them that is ready on the pending list once. -/
theorem watch_table_agrees (clock : TimeVal) (es : List Event)
    (legal : loop.Legal (rilEventInit clock) es)
    (used : watching.Along (fun w e => WellWatched w.1 w.2 e) (rilEventInit clock, ∅) es) :
    (∀ pre, pre <+: es → Agrees (loop.run (rilEventInit clock) pre)
        (watching.run (rilEventInit clock, ∅) pre).2) ∧
      watching.Along (fun w e => PutsReady w.1 w.2 e) (rilEventInit clock, ∅) es := by
  have hstep : ∀ w e, (∃ timers pending, Sound w.1 timers pending ∧ Tracks w.1 w.2) →
      watching.Enabled w e → WellWatched w.1 w.2 e → ∃ timers pending,
        Sound (watching.next w e).1 timers pending ∧
          Tracks (watching.next w e).1 (watching.next w e).2 := by
    rintro w e ⟨timers, pending, hs, h⟩ he hu
    obtain ⟨timers', pending', hs', -⟩ := sound_next hs he (h.wellUsed hu)
    exact ⟨timers', pending', hs', tracks_next hs h he hu⟩
  have hinit : ∃ timers pending, Sound (rilEventInit clock) timers pending ∧
      Tracks (rilEventInit clock) ∅ := ⟨[], [], sound_init clock, tracks_init clock⟩
  have legal' := (legal_observed_iff loop watchedAfter (rilEventInit clock, ∅) es).mpr legal
  refine ⟨fun pre hp => ?_, along_of_invariant watching hstep hinit legal' used ?_⟩
  · obtain ⟨-, -, -, h⟩ := invariant_run watching hstep hinit (along_of_le watching legal' hp)
      (along_of_le watching used hp)
    rw [← run_observed loop watchedAfter (rilEventInit clock, ∅) pre]
    exact h.agrees
  · rintro w e ⟨timers, pending, hs, h⟩ he hu
    exact putsReady_of_tracks hs h he hu

/-- The second of two watched events is not persistent; both are ready, and the first is deleted. -/
def readyOnce : List Event :=
  [.rilEventSet 1 3 true 0 0, .rilEventSet 2 4 false 0 0, .rilEventAdd 1, .rilEventAdd 2,
    .calcNextTimeout, .processTimeouts, .processReadReadies (fun fd => fd = 3 ∨ fd = 4) 2,
    .firePending 1, .rilEventDel 1]

theorem watch_table_agrees_small :
    (∀ pre, pre <+: readyOnce → Agrees (loop.run (rilEventInit ⟨0, 0⟩) pre)
        (watching.run (rilEventInit ⟨0, 0⟩, ∅) pre).2) ∧
      watching.Along (fun w e => PutsReady w.1 w.2 e) (rilEventInit ⟨0, 0⟩, ∅) readyOnce := by
  apply watch_table_agrees
  · exact ⟨trivial, trivial, trivial, trivial, rfl, ⟨_, rfl⟩, rfl, rfl, trivial, trivial⟩
  · exact ⟨⟨by decide, by decide⟩, ⟨by decide, by decide⟩,
      ⟨by decide, by decide, by decide, by decide⟩, ⟨by decide, by decide, by decide, by decide⟩,
      trivial, trivial, ⟨{3, 4}, by simp, rfl⟩, trivial, trivial, trivial⟩

end RilEventLoop
