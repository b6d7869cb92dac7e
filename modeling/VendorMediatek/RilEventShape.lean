import VendorMediatek.RilEventLoop

/-!
# The lists of the event loop

The two lists stay well-formed rings with the events that the timer queue says, whatever calls come
from callbacks and other threads in between.
-/

namespace RilEventLoop

open LabelledRuns CircularList TimerQueue

/-! ## Times -/

instance : LinearOrder TimeVal :=
  LinearOrder.lift' (fun t => toLex (t.tvSec, t.tvUsec)) fun a b h => by
    cases a
    cases b
    simpa using h

theorem timerLess_iff {a b : TimeVal} : timerLess a b ↔ a < b := by
  change _ ↔ toLex (a.tvSec, a.tvUsec) < toLex (b.tvSec, b.tvUsec)
  rw [Prod.Lex.toLex_lt_toLex, timerLess]
  split <;> omega

theorem micros_timerSub (a b : TimeVal) : (timerSub a b).micros = a.micros - b.micros := by
  simp only [timerSub, TimeVal.micros]
  split <;> dsimp only <;> omega

theorem normalised_timerAdd {a b : TimeVal} (ha : a.Normalised) (hb : b.Normalised) :
    (timerAdd a b).Normalised := by
  obtain ⟨ha, ha'⟩ := ha
  obtain ⟨hb, hb'⟩ := hb
  simp only [timerAdd]
  split
  · exact ⟨by simp only; omega, by simp only; omega⟩
  · exact ⟨by simp only; omega, by simp only; omega⟩

theorem micros_le {a b : TimeVal} (ha : a.Normalised) (hb : b.Normalised) (h : a ≤ b) :
    a.micros ≤ b.micros := by
  have hnot : ¬ timerLess b a := fun hlt => absurd (timerLess_iff.mp hlt) (not_lt_of_ge h)
  obtain ⟨ha, ha'⟩ := ha
  obtain ⟨hb, hb'⟩ := hb
  simp only [timerLess] at hnot
  simp only [TimeVal.micros]
  split at hnot <;> omega

/-! ## What the lists hold -/

structure Represents (s : State) (timers pending : List ℕ) : Prop where
  timerRing : Ring s.links .timerList (timers.map Node.event)
  pendingRing : Ring s.links .pendingList (pending.map Node.event)
  apart : ∀ ev ∈ timers, ev ∉ pending
  unlinked : ∀ ev, ev ∉ timers → ev ∉ pending → s.links.next (.event ev) = none
  numbered : ∀ ev, s.number ev ≠ none → (ev ∈ timers ∨ ev ∈ pending) ∧ (s.event ev).fd = -1
  timer : ∀ ev ∈ timers, s.number ev ≠ none
  index : ∀ ev (i : Fin maxFdEvents), s.watchTable i = some ev ↔ (s.event ev).index = i
  watched : ∀ ev, s.InTable ev → 0 ≤ (s.event ev).fd

theorem slot_unique {s : State}
    (index : ∀ ev (i : Fin maxFdEvents), s.watchTable i = some ev ↔ (s.event ev).index = i)
    {ev : ℕ} {i j : Fin maxFdEvents} (hi : s.watchTable i = some ev)
    (hj : s.watchTable j = some ev) : i = j := by
  have hindexi := (index ev i).mp hi
  have hindexj := (index ev j).mp hj
  exact Fin.ext (by omega)

theorem inTable_of_table {s u : State} (htable : u.watchTable = s.watchTable) {ev : ℕ}
    (h : u.InTable ev) : s.InTable ev := by
  rwa [State.InTable, htable] at h

/-- Where the loop is and what may be pending there. -/
def Follows (s : State) (pending : List ℕ) : Prop :=
  match s.phase with
  | .top | .selecting _ => pending = []
  | .timedOut => ∀ ev ∈ pending, (s.event ev).fd = -1
  | .firing node | .calling node => node = (pending.map Node.event).headD .pendingList

def State.timerAt (s : State) (ev : ℕ) : Timer TimeVal :=
  ⟨(s.number ev).getD 0, (s.event ev).timeout⟩

def Call.fired (c : Call) : Option (Fired TimeVal) :=
  c.timer.map fun t => ⟨t, c.time, c.pass⟩

/-- The timer queue that the lists and the histories stand for. -/
def queue (s : State) (timers pending : List ℕ) : Queue TimeVal where
  waiting := timers.map s.timerAt
  due := pending.filterMap s.timer
  fired := s.called.filterMap Call.fired
  added := s.deadlines
  clock := s.clock
  pass := s.pass

namespace Represents

variable {s : State} {timers pending : List ℕ}

theorem linked_iff (h : Represents s timers pending) {ev : ℕ} :
    s.Linked ev ↔ ev ∈ timers ∨ ev ∈ pending := by
  constructor
  · intro hlinked
    by_contra hno
    rw [not_or] at hno
    exact hlinked (h.unlinked ev hno.1 hno.2)
  · rintro (hmem | hmem)
    · exact h.timerRing.linked (List.mem_map_of_mem hmem)
    · exact h.pendingRing.linked (List.mem_map_of_mem hmem)

theorem notMem_of_not_linked (h : Represents s timers pending) {ev : ℕ} (hfree : ¬ s.Linked ev) :
    ev ∉ timers ∧ ev ∉ pending := by
  rw [← not_or]
  exact mt h.linked_iff.mpr hfree

theorem ne_of_not_linked (h : Represents s timers pending) {ev e : ℕ} (hfree : ¬ s.Linked ev)
    (he : e ∈ timers ∨ e ∈ pending) : e ≠ ev := by
  rintro rfl
  exact hfree (h.linked_iff.mpr he)

theorem timer_eq (h : Represents s timers pending) {ev : ℕ} (hmem : ev ∈ timers) :
    s.timer ev = some (s.timerAt ev) := by
  obtain ⟨n, hn⟩ := Option.ne_none_iff_exists'.mp (h.timer ev hmem)
  simp [State.timer, State.timerAt, hn]

theorem filterMap_timer (h : Represents s timers pending) {evs : List ℕ}
    (hsub : ∀ ev ∈ evs, ev ∈ timers) :
    evs.filterMap s.timer = evs.map s.timerAt := by
  induction evs with
  | nil => rfl
  | cons ev evs ih =>
    rw [List.filterMap_cons_some (h.timer_eq (hsub ev List.mem_cons_self)), List.map_cons,
      ih fun e he => hsub e (List.mem_cons_of_mem _ he)]

theorem timer_fd (h : Represents s timers pending) {ev : ℕ} (hmem : ev ∈ timers) :
    (s.event ev).fd = -1 :=
  (h.numbered ev (h.timer ev hmem)).2

theorem not_watched (h : Represents s timers pending) {ev : ℕ} (hfd : (s.event ev).fd = -1) :
    ¬ s.InTable ev := by
  intro hw
  have := h.watched ev hw
  omega

end Represents

theorem event_injective : Function.Injective Node.event := fun _ _ h => Node.event.inj h

theorem event_mem_map {ev : ℕ} {evs : List ℕ} : Node.event ev ∈ evs.map Node.event ↔ ev ∈ evs :=
  List.mem_map_of_injective event_injective

theorem represents_init (clock : TimeVal) : Represents (rilEventInit clock) [] [] := by
  have hpending := Ring.initList ((⟨fun _ => none, fun _ => none⟩ : Links Node).initList .timerList)
    .pendingList
  have htimer := Ring.initList (⟨fun _ => none, fun _ => none⟩ : Links Node) .timerList
  refine ⟨?_, hpending, ?_, ?_, ?_, ?_, ?_, ?_⟩
  · refine htimer.congr ?_
    intro x hx
    obtain rfl : x = .timerList := List.mem_singleton.mp hx
    exact ⟨rfl, rfl⟩
  · rintro ev ⟨⟩
  · intro ev _ _
    rfl
  · intro ev hnumber
    exact absurd rfl hnumber
  · rintro ev ⟨⟩
  · intro ev i
    constructor
    · rintro ⟨⟩
    · intro hindex
      change (-1 : ℤ) = i at hindex
      omega
  · rintro ev ⟨i, ⟨⟩⟩

end RilEventLoop
