import Mathlib.Data.List.Sort
import Mathlib.Data.List.TakeWhile
import Mathlib.Data.List.Range
import Mathlib.Data.List.Perm.Basic
import Mathlib.Order.Basic
import VendorMediatek.LabelledRuns

/-!
# Timer queues

Timers wait in the order of their deadlines. A pass makes the timers due whose deadline is past and
fires them one by one; timers may be added at any time. The timers that have been added and the
ones that have fired are kept.
-/

namespace TimerQueue

open LabelledRuns
open scoped List

variable {δ : Type} [LinearOrder δ]

/-- The timers are numbered in the order in which they are added. -/
structure Timer (δ : Type) where
  number : ℕ
  deadline : δ
  deriving DecidableEq, Repr

structure Fired (δ : Type) where
  timer : Timer δ
  time : δ
  pass : ℕ
  deriving DecidableEq, Repr

structure Queue (δ : Type) where
  waiting : List (Timer δ)
  due : List (Timer δ)
  fired : List (Fired δ)
  added : List δ
  clock : δ
  pass : ℕ

inductive Op (δ : Type) where
  | add (deadline : δ)
  | advance (clock : δ)
  | expire
  | fire
  | idle

/-- Of two timers with the same deadline the one added later comes first. -/
def Before (t u : Timer δ) : Prop :=
  t.deadline < u.deadline ∨ t.deadline = u.deadline ∧ u.number < t.number

def NotAfter (t u : Timer δ) : Prop := t.deadline ≤ u.deadline

instance : DecidableRel (NotAfter (δ := δ)) := fun _ _ => inferInstanceAs (Decidable (_ ≤ _))

def Past (clock : δ) (t : Timer δ) : Bool := decide (t.deadline < clock)

def Queue.Enabled (q : Queue δ) : Op δ → Prop
  | .advance clock => q.clock ≤ clock
  | .expire => q.due = []
  | _ => True

def Queue.next (q : Queue δ) : Op δ → Queue δ
  | .add deadline =>
    { q with
      waiting := q.waiting.orderedInsert NotAfter ⟨q.added.length, deadline⟩
      added := q.added ++ [deadline] }
  | .advance clock => { q with clock := clock }
  | .expire =>
    { q with
      waiting := q.waiting.dropWhile (Past q.clock)
      due := q.due ++ q.waiting.takeWhile (Past q.clock)
      pass := q.pass + 1 }
  | .fire =>
    match q.due with
    | [] => q
    | t :: rest => { q with due := rest, fired := q.fired ++ [⟨t, q.clock, q.pass⟩] }
  | .idle => q

def queueSystem : System (Queue δ) (Op δ) := ⟨Queue.Enabled, Queue.next⟩

def empty (clock : δ) : Queue δ := ⟨[], [], [], [], clock, 0⟩

/-- All timers that have been added, wherever they are. -/
def Queue.timers (q : Queue δ) : List (Timer δ) :=
  q.waiting ++ q.due ++ q.fired.map Fired.timer

/-- What has fired and what is due, each with its pass. -/
def Queue.sequence (q : Queue δ) : List (Timer δ × ℕ) :=
  q.fired.map (fun f => (f.timer, f.pass)) ++ q.due.map fun t => (t, q.pass)

def InOrder (f g : Timer δ × ℕ) : Prop := f.2 = g.2 → Before f.1 g.1

structure Good (q : Queue δ) : Prop where
  sorted : q.waiting.Pairwise Before
  accounted : q.timers.map Timer.number ~ List.range q.added.length
  deadline : ∀ t ∈ q.timers, q.added[t.number]? = some t.deadline
  due : ∀ t ∈ q.due, t.deadline < q.clock
  fired : ∀ f ∈ q.fired, f.timer.deadline < f.time
  pass : ∀ f ∈ q.fired, f.pass ≤ q.pass
  order : q.sequence.Pairwise InOrder

theorem good_empty (clock : δ) : Good (empty clock) := by
  constructor <;> simp [empty, Queue.timers, Queue.sequence]

theorem before_trans {t u v : Timer δ} (h : Before t u) (k : Before u v) : Before t v := by
  rcases h with h | ⟨h, hn⟩
  · rcases k with k | ⟨k, -⟩
    · exact .inl (h.trans k)
    · exact .inl (h.trans_eq k)
  · rcases k with k | ⟨k, hm⟩
    · exact .inl (h.trans_lt k)
    · exact .inr ⟨h.trans k, hm.trans hn⟩

theorem number_lt {q : Queue δ} (h : Good q) {t : Timer δ} (ht : t ∈ q.timers) :
    t.number < q.added.length := by
  have hmem := h.accounted.subset (List.mem_map_of_mem ht)
  exact List.mem_range.mp hmem

theorem number_inj {q : Queue δ} (h : Good q) : (q.timers.map Timer.number).Nodup :=
  h.accounted.nodup_iff.mpr List.nodup_range

/-- A timer that is newer than all others goes before those with its deadline. -/
theorem sorted_insert {l : List (Timer δ)} (h : l.Pairwise Before) {t : Timer δ}
    (hnew : ∀ u ∈ l, u.number < t.number) : (l.orderedInsert NotAfter t).Pairwise Before := by
  induction l with
  | nil => exact List.pairwise_singleton _ _
  | cons u l ih =>
    obtain ⟨hu, hl⟩ := List.pairwise_cons.mp h
    rw [List.orderedInsert_cons]
    split
    · rename_i hle
      refine List.pairwise_cons.mpr ⟨?_, h⟩
      have hbefore : Before t u := by
        rcases lt_or_eq_of_le (show t.deadline ≤ u.deadline from hle) with hlt | heq
        · exact .inl hlt
        · exact .inr ⟨heq, hnew u List.mem_cons_self⟩
      intro v hv
      rcases List.mem_cons.mp hv with rfl | hv
      · exact hbefore
      · exact before_trans hbefore (hu v hv)
    · rename_i hle
      refine List.pairwise_cons.mpr ⟨?_, ih hl fun v hv => hnew v (List.mem_cons_of_mem _ hv)⟩
      intro v hv
      rcases List.mem_orderedInsert NotAfter |>.mp hv with rfl | hv
      · exact .inl (lt_of_not_ge hle)
      · exact hu v hv

theorem next_fire {q : Queue δ} {t : Timer δ} {rest : List (Timer δ)} (h : q.due = t :: rest) :
    q.next .fire = { q with due := rest, fired := q.fired ++ [⟨t, q.clock, q.pass⟩] } := by
  simp [Queue.next, h]

theorem timers_add (q : Queue δ) (d : δ) :
    (q.next (.add d)).timers ~ ⟨q.added.length, d⟩ :: q.timers := by
  have hinsert := List.perm_orderedInsert NotAfter (⟨q.added.length, d⟩ : Timer δ) q.waiting
  exact (hinsert.append_right _).append_right _

theorem timers_expire (q : Queue δ) : (q.next .expire).timers ~ q.timers := by
  have hsplit : q.waiting.dropWhile (Past q.clock) ++ (q.due ++ q.waiting.takeWhile (Past q.clock))
      ~ q.waiting ++ q.due := by
    calc q.waiting.dropWhile (Past q.clock) ++ (q.due ++ q.waiting.takeWhile (Past q.clock))
        ~ (q.due ++ q.waiting.takeWhile (Past q.clock)) ++ q.waiting.dropWhile (Past q.clock) :=
          List.perm_append_comm
      _ = q.due ++ q.waiting := by rw [List.append_assoc, List.takeWhile_append_dropWhile]
      _ ~ q.waiting ++ q.due := List.perm_append_comm
  exact hsplit.append_right _

theorem timers_fire (q : Queue δ) : (q.next .fire).timers ~ q.timers := by
  cases h : q.due with
  | nil => simp [Queue.next, h]
  | cons t rest =>
    rw [next_fire h]
    simp only [Queue.timers, h, List.map_append, List.map_cons, List.map_nil, List.append_assoc,
      List.cons_append]
    apply List.Perm.append_left
    rw [← List.append_assoc]
    exact List.perm_append_singleton t (rest ++ q.fired.map Fired.timer)

theorem good_add {q : Queue δ} (h : Good q) (d : δ) : Good (q.next (.add d)) := by
  have hperm := timers_add q d
  refine ⟨?_, ?_, ?_, h.due, h.fired, h.pass, h.order⟩
  · apply sorted_insert h.sorted
    intro u hu
    exact number_lt h (List.mem_append_left _ (List.mem_append_left _ hu))
  · have hmap := (hperm.map Timer.number).trans (h.accounted.cons q.added.length)
    have hrange : List.range (q.added ++ [d]).length = List.range q.added.length ++
        [q.added.length] := by rw [List.length_append, List.length_singleton, List.range_succ]
    change _ ~ List.range (q.added ++ [d]).length
    rw [hrange]
    exact hmap.trans (List.perm_append_singleton _ _).symm
  · intro t ht
    change (q.added ++ [d])[t.number]? = _
    rcases List.mem_cons.mp (hperm.subset ht) with rfl | ht
    · exact List.getElem?_concat_length
    · rw [List.getElem?_append_left (number_lt h ht)]
      exact h.deadline t ht

theorem good_advance {q : Queue δ} (h : Good q) {c : δ} (hc : q.clock ≤ c) :
    Good (q.next (.advance c)) :=
  ⟨h.sorted, h.accounted, h.deadline, fun t ht => (h.due t ht).trans_le hc, h.fired, h.pass,
    h.order⟩

theorem good_expire {q : Queue δ} (h : Good q) (hdue : q.due = []) : Good (q.next .expire) := by
  have hperm := timers_expire q
  refine ⟨?_, ?_, ?_, ?_, h.fired, ?_, ?_⟩
  · exact h.sorted.sublist (List.dropWhile_sublist _)
  · exact (hperm.map Timer.number).trans h.accounted
  · intro t ht
    exact h.deadline t (hperm.subset ht)
  · intro t ht
    rcases List.mem_append.mp ht with ht | ht
    · exact h.due t ht
    · have hpast : Past q.clock t = true := List.mem_takeWhile_imp ht
      exact of_decide_eq_true hpast
  · intro f hf
    exact (h.pass f hf).trans (Nat.le_succ _)
  · have hsequence : (q.next .expire).sequence = q.fired.map (fun f => (f.timer, f.pass)) ++
        (q.waiting.takeWhile (Past q.clock)).map fun t => (t, q.pass + 1) := by
      simp [Queue.sequence, Queue.next, hdue]
    rw [hsequence, List.pairwise_append]
    refine ⟨?_, ?_, ?_⟩
    · exact h.order.sublist (List.sublist_append_left _ _)
    · rw [List.pairwise_map]
      have htaken := h.sorted.sublist (List.takeWhile_sublist (Past q.clock))
      apply htaken.imp
      intro t u hbefore _
      exact hbefore
    · intro f hf g hg hpass
      obtain ⟨f', hf', rfl⟩ := List.mem_map.mp hf
      obtain ⟨t, -, rfl⟩ := List.mem_map.mp hg
      have hle : f'.pass ≤ q.pass := h.pass f' hf'
      have hpass : f'.pass = q.pass + 1 := hpass
      omega

theorem good_fire {q : Queue δ} (h : Good q) : Good (q.next .fire) := by
  have hperm := timers_fire q
  cases hdue : q.due with
  | nil => simpa [Queue.next, hdue] using h
  | cons t rest =>
    have ht : t.deadline < q.clock := h.due t (by simp [hdue])
    rw [next_fire hdue] at hperm ⊢
    refine ⟨h.sorted, (hperm.map Timer.number).trans h.accounted, ?_, ?_, ?_, ?_, ?_⟩
    · intro u hu
      exact h.deadline u (hperm.subset hu)
    · intro u hu
      exact h.due u (hdue ▸ List.mem_cons_of_mem _ hu)
    · intro f hf
      rcases List.mem_append.mp hf with hf | hf
      · exact h.fired f hf
      · rw [List.mem_singleton.mp hf]
        exact ht
    · intro f hf
      rcases List.mem_append.mp hf with hf | hf
      · exact h.pass f hf
      · rw [List.mem_singleton.mp hf]
    · have horder := h.order
      simpa [Queue.sequence, hdue] using horder

theorem good_next {q : Queue δ} (h : Good q) {op : Op δ} (he : q.Enabled op) :
    Good (q.next op) := by
  cases op with
  | add d => exact good_add h d
  | advance c => exact good_advance h he
  | expire => exact good_expire h he
  | fire => exact good_fire h
  | idle => exact h

/-! ## A timer whose deadline is past fires in the pass -/

/-- The timer is due or has fired. -/
def Queue.Released (q : Queue δ) (t : Timer δ) : Prop := t ∈ q.due ++ q.fired.map Fired.timer

theorem released_next {q : Queue δ} {t : Timer δ} (h : q.Released t) (op : Op δ) :
    (q.next op).Released t := by
  cases op with
  | add | advance | idle => exact h
  | expire =>
    rcases List.mem_append.mp h with h | h
    · exact List.mem_append_left _ (List.mem_append_left _ h)
    · exact List.mem_append_right _ h
  | fire =>
    cases hdue : q.due with
    | nil => simpa [Queue.next, hdue] using h
    | cons u rest =>
      rw [next_fire hdue]
      simp only [Queue.Released, hdue, List.mem_append, List.mem_cons, List.map_append,
        List.map_cons, List.map_nil] at h ⊢
      tauto

theorem released_run {q : Queue δ} {t : Timer δ} (h : q.Released t) (ops : List (Op δ)) :
    (queueSystem.run q ops).Released t := by
  induction ops generalizing q with
  | nil => exact h
  | cons op ops ih => exact ih (released_next h op)

theorem mem_takeWhile {l : List (Timer δ)} (h : l.Pairwise Before) {clock : δ} {t : Timer δ}
    (hmem : t ∈ l) (hpast : t.deadline < clock) : t ∈ l.takeWhile (Past clock) := by
  induction l with
  | nil => cases hmem
  | cons u l ih =>
    obtain ⟨hu, hl⟩ := List.pairwise_cons.mp h
    have hpastu : Past clock u = true := by
      apply decide_eq_true
      rcases List.mem_cons.mp hmem with rfl | hmem
      · exact hpast
      · rcases hu t hmem with hlt | ⟨heq, -⟩
        · exact hlt.trans hpast
        · exact heq.trans_lt hpast
    rw [List.takeWhile_cons_of_pos hpastu]
    rcases List.mem_cons.mp hmem with rfl | hmem
    · exact List.mem_cons_self
    · exact List.mem_cons_of_mem _ (ih hl hmem)

theorem released_expire {q : Queue δ} (h : Good q) {t : Timer δ} (hmem : t ∈ q.waiting)
    (hpast : t.deadline < q.clock) : (q.next .expire).Released t :=
  List.mem_append_left _ (List.mem_append_right _ (mem_takeWhile h.sorted hmem hpast))

omit [LinearOrder δ] in
theorem mem_fired {q : Queue δ} {t : Timer δ} (hreleased : q.Released t) (hdue : q.due = []) :
    t ∈ q.fired.map Fired.timer := by
  rw [Queue.Released, hdue, List.nil_append] at hreleased
  exact hreleased

theorem fired_nodup {q : Queue δ} (h : Good q) :
    ((q.fired.map Fired.timer).map Timer.number).Nodup := by
  have hnodup := number_inj h
  rw [Queue.timers, List.map_append] at hnodup
  exact hnodup.of_append_right

theorem head_earliest {q : Queue δ} (h : Good q) {t : Timer δ} {rest : List (Timer δ)}
    (hw : q.waiting = t :: rest) {u : Timer δ} (hu : u ∈ q.waiting) : t.deadline ≤ u.deadline := by
  have hsorted := h.sorted
  rw [hw] at hsorted hu
  rcases List.mem_cons.mp hu with rfl | hu
  · exact le_rfl
  · rcases (List.pairwise_cons.mp hsorted).1 u hu with hlt | ⟨heq, -⟩
    · exact hlt.le
    · exact heq.le

end TimerQueue
