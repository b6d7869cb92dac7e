import Mathlib.Logic.Function.Basic
import Mathlib.Data.List.Range

/-!
# Directories of named slots

Slots carry a name and a value; a search goes through the first `count` of them, and slots
behind these can still be addressed. `lookup` tries the slot where the name is expected and then
searches. The laws say which lookups survive an overwrite or an insertion.
-/

namespace SlotDirectory

universe u v

structure Directory (ν : Type u) (β : Type v) where
  name : ℕ → ν
  value : ℕ → β
  count : ℕ

namespace Directory

variable {ν : Type u} {β : Type v}

@[ext] theorem ext_slots {d e : Directory ν β} (hn : ∀ i, d.name i = e.name i)
    (hv : ∀ i, d.value i = e.value i) (hc : d.count = e.count) : d = e := by
  cases d
  cases e
  congr 1
  · exact funext hn
  · exact funext hv

/-- Overwrites a slot; where it lies behind the end the count grows up to it. -/
def put (d : Directory ν β) (pos : ℕ) (n : ν) (v : β) : Directory ν β where
  name := Function.update d.name pos n
  value := Function.update d.value pos v
  count := max d.count (pos + 1)

theorem name_put_at (d : Directory ν β) (i : ℕ) (n : ν) (v : β) : (d.put i n v).name i = n :=
  Function.update_self ..

theorem value_put_at (d : Directory ν β) (i : ℕ) (n : ν) (v : β) : (d.put i n v).value i = v :=
  Function.update_self ..

theorem name_put_of_ne (d : Directory ν β) {i j : ℕ} (n : ν) (v : β) (hj : j ≠ i) :
    (d.put i n v).name j = d.name j :=
  Function.update_of_ne hj ..

theorem value_put_of_ne (d : Directory ν β) {i j : ℕ} (n : ν) (v : β) (hj : j ≠ i) :
    (d.put i n v).value j = d.value j :=
  Function.update_of_ne hj ..

/-- Puts a slot in and moves those from its place on by one. -/
def insert (d : Directory ν β) (pos : ℕ) (n : ν) (v : β) : Directory ν β where
  name i := if i < pos then d.name i else if i = pos then n else d.name (i - 1)
  value i := if i < pos then d.value i else if i = pos then v else d.value (i - 1)
  count := d.count + 1

theorem name_insert_before (d : Directory ν β) {i j : ℕ} (n : ν) (v : β) (hj : j < i) :
    (d.insert i n v).name j = d.name j :=
  if_pos hj

theorem name_insert_at (d : Directory ν β) (i : ℕ) (n : ν) (v : β) :
    (d.insert i n v).name i = n := by
  simp [insert]

theorem name_insert_behind (d : Directory ν β) {i j : ℕ} (n : ν) (v : β) (hj : i < j) :
    (d.insert i n v).name j = d.name (j - 1) := by
  simp only [insert]
  rw [if_neg (by omega), if_neg (by omega)]

theorem value_insert_before (d : Directory ν β) {i j : ℕ} (n : ν) (v : β) (hj : j < i) :
    (d.insert i n v).value j = d.value j :=
  if_pos hj

theorem value_insert_at (d : Directory ν β) (i : ℕ) (n : ν) (v : β) :
    (d.insert i n v).value i = v := by
  simp [insert]

theorem value_insert_behind (d : Directory ν β) {i j : ℕ} (n : ν) (v : β) (hj : i < j) :
    (d.insert i n v).value j = d.value (j - 1) := by
  simp only [insert]
  rw [if_neg (by omega), if_neg (by omega)]

variable [DecidableEq ν]

def find (d : Directory ν β) (n : ν) : Option ℕ :=
  (List.range d.count).find? fun i => d.name i = n

/-- What a search finds. -/
def found (d : Directory ν β) (n : ν) : Option β := (d.find n).map d.value

def lookup (d : Directory ν β) (n : ν) (pos : ℕ) : Option β :=
  if d.name pos = n then some (d.value pos) else d.found n

variable {d : Directory ν β} {n m : ν}

theorem find_eq_some {i : ℕ} :
    d.find n = some i ↔ i < d.count ∧ d.name i = n ∧ ∀ j < i, d.name j ≠ n := by
  simp only [find, List.find?_range_eq_some, decide_eq_true_eq, List.mem_range]
  constructor
  · rintro ⟨hn, hi, hj⟩
    exact ⟨hi, hn, fun j hj' => by simpa using hj j hj'⟩
  · rintro ⟨hi, hn, hj⟩
    exact ⟨hn, hi, fun j hj' => by simpa using hj j hj'⟩

theorem find_eq_none : d.find n = none ↔ ∀ i < d.count, d.name i ≠ n := by
  simp [find]

theorem found_of_find {i : ℕ} (h : d.find n = some i) : d.found n = some (d.value i) := by
  rw [found, h, Option.map_some]

theorem found_eq_none : d.found n = none ↔ ∀ i < d.count, d.name i ≠ n := by
  rw [found, Option.map_eq_none_iff, find_eq_none]

theorem lookup_of_name {pos : ℕ} (h : d.name pos = n) : d.lookup n pos = some (d.value pos) :=
  if_pos h

theorem lookup_of_ne {pos : ℕ} (h : d.name pos ≠ n) : d.lookup n pos = d.found n :=
  if_neg h

/-! ## Overwriting the slot that a search found -/

section PutFound

variable {i : ℕ} (h : d.find n = some i) (v : β)

include h

theorem name_put_found (j : ℕ) : (d.put i n v).name j = d.name j := by
  rw [put, ← (find_eq_some.mp h).2.1, Function.update_eq_self]

theorem find_put_found (m : ν) : (d.put i n v).find m = d.find m := by
  have hcount : (d.put i n v).count = d.count := Nat.max_eq_left (find_eq_some.mp h).1
  simp only [find, hcount, name_put_found h v]

theorem lookup_put_found_of_ne (hne : m ≠ n) (pos : ℕ) :
    (d.put i n v).lookup m pos = d.lookup m pos := by
  have hi := (find_eq_some.mp h).2.1
  have hvalue : ∀ j, d.name j = m → (d.put i n v).value j = d.value j := by
    intro j hj
    apply value_put_of_ne
    rintro rfl
    exact hne (hj.symm.trans hi)
  by_cases hp : d.name pos = m
  · rw [lookup_of_name hp, lookup_of_name ((name_put_found h v pos).trans hp), hvalue pos hp]
  · rw [lookup_of_ne hp, lookup_of_ne (by rwa [name_put_found h v]), found, found,
      find_put_found h v]
    cases hm : d.find m with
    | none => rfl
    | some j => exact congrArg some (hvalue j (find_eq_some.mp hm).2.1)

/-- With the written name itself the lookup misses the new value where the name stands a second
time, in the slot that is tried first. -/
theorem lookup_put_found_same (pos : ℕ) :
    (d.put i n v).lookup n pos =
      if d.name pos = n ∧ pos ≠ i then some (d.value pos) else some v := by
  have hself := value_put_at d i n v
  by_cases hp : d.name pos = n
  · rw [lookup_of_name ((name_put_found h v pos).trans hp)]
    by_cases hi : pos = i
    · rw [if_neg (by simp [hi]), hi, hself]
    · rw [if_pos ⟨hp, hi⟩]
      exact congrArg some (value_put_of_ne d n v hi)
  · rw [lookup_of_ne (by rwa [name_put_found h v]), if_neg (fun hc => hp hc.1),
      found_of_find ((find_put_found h v n).trans h), hself]

theorem lookup_put_found_iff (m : ν) (pos : ℕ) :
    (d.put i n v).lookup m pos = d.lookup m pos ↔
      d.value i = v ∨ (m = n → d.name pos = n ∧ pos ≠ i) := by
  by_cases hm : m = n
  · subst hm
    rw [lookup_put_found_same h v]
    by_cases hp : d.name pos = m
    · by_cases hi : pos = i
      · subst hi
        simp [lookup_of_name hp, eq_comm]
      · simp [lookup_of_name hp, hp, hi]
    · simp [lookup_of_ne hp, found_of_find h, hp, eq_comm]
  · simp [lookup_put_found_of_ne h v hm, hm]

end PutFound

/-! ## Writing a slot behind the last one -/

section PutNew

variable {i : ℕ} (hi : d.count ≤ i) (n) (v : β)

theorem lookup_put_at : (d.put i n v).lookup n i = some v := by
  rw [lookup_of_name (name_put_at d i n v), value_put_at]

include hi

theorem found_put_new_of_some {b : β} (hm : d.found m = some b) :
    (d.put i n v).found m = some b := by
  rcases hf : d.find m with _ | j
  · rw [found, hf] at hm
    cases hm
  · obtain ⟨hj, hname, hfirst⟩ := find_eq_some.mp hf
    have hfind : (d.put i n v).find m = some j := by
      refine find_eq_some.mpr ⟨lt_of_lt_of_le hj (Nat.le_max_left ..), ?_, fun k hk => ?_⟩
      · exact (name_put_of_ne d n v (by omega)).trans hname
      · intro hc
        exact hfirst k hk ((name_put_of_ne d n v (by omega)).symm.trans hc)
    rw [found_of_find hfind, ← hm, found_of_find hf]
    exact congrArg some (value_put_of_ne d n v (by omega))

theorem found_put_new_eq_none (hm : d.found m = none) :
    (d.put i n v).found m = none ↔ m ≠ n ∧ ∀ j, d.count ≤ j → j < i → d.name j ≠ m := by
  have hcount : (d.put i n v).count = i + 1 := Nat.max_eq_right (by omega)
  have hself := name_put_at d i n v
  have hother : ∀ j < i, (d.put i n v).name j = d.name j := fun j hj =>
    name_put_of_ne d n v (by omega)
  rw [found_eq_none, hcount]
  constructor
  · intro hall
    constructor
    · rintro rfl
      exact hall i (Nat.lt_succ_self i) hself
    · intro j _ hj hc
      exact hall j (by omega) ((hother j hj).trans hc)
  · rintro ⟨hne, hbehind⟩ j hj
    rcases Nat.lt_or_ge j i with hlt | hge
    · rw [hother j hlt]
      rcases Nat.lt_or_ge j d.count with hc | hc
      · exact found_eq_none.mp hm j hc
      · exact hbehind j hc hlt
    · rw [show j = i by omega, hself]
      exact hne.symm

/-- Slots between the old end and the new one come within reach of the search. -/
theorem lookup_put_new_iff {pos : ℕ} (hpos : pos ≠ i) :
    (d.put i n v).lookup m pos = d.lookup m pos ↔
      (d.name pos ≠ m → d.found m = none →
        m ≠ n ∧ ∀ j, d.count ≤ j → j < i → d.name j ≠ m) := by
  have hname := name_put_of_ne d n v hpos
  by_cases hp : d.name pos = m
  · have hvalue := value_put_of_ne d n v hpos
    simp [lookup_of_name hp, lookup_of_name (hname.trans hp), hvalue, hp]
  · rw [lookup_of_ne hp, lookup_of_ne (by rwa [hname])]
    rcases hm : d.found m with _ | b
    · simp [found_put_new_eq_none n hi v hm, hp]
    · simp [found_put_new_of_some n hi v hm]

end PutNew

/-! ## Putting a slot in -/

section Insert

variable {i : ℕ} (n) (v : β)

theorem lookup_insert_at : (d.insert i n v).lookup n i = some v := by
  rw [lookup_of_name (name_insert_at d i n v), value_insert_at]

theorem found_insert_same (hi : i ≤ d.count) (h : ∀ j < i, d.name j ≠ n) :
    (d.insert i n v).found n = some v := by
  have hfind : (d.insert i n v).find n = some i := by
    refine find_eq_some.mpr ⟨Nat.lt_succ_of_le hi, name_insert_at d i n v, fun j hj => ?_⟩
    rw [name_insert_before d n v hj]
    exact h j hj
  rw [found_of_find hfind, value_insert_at]

theorem found_insert_of_ne (hi : i ≤ d.count) (hne : m ≠ n) :
    (d.insert i n v).found m = d.found m := by
  rcases hm : d.find m with _ | j
  · rw [found_eq_none.mpr (find_eq_none.mp hm), found_eq_none]
    intro k hk
    have hk : k < d.count + 1 := hk
    rcases lt_trichotomy k i with hlt | rfl | hgt
    · rw [name_insert_before d n v hlt]
      exact find_eq_none.mp hm k (by omega)
    · rw [name_insert_at]
      exact hne.symm
    · rw [name_insert_behind d n v hgt]
      exact find_eq_none.mp hm (k - 1) (by omega)
  · obtain ⟨hj, hname, hfirst⟩ := find_eq_some.mp hm
    rw [found_of_find hm]
    rcases Nat.lt_or_ge j i with hlt | hge
    · have hfind : (d.insert i n v).find m = some j := by
        refine find_eq_some.mpr
          ⟨Nat.lt_succ_of_lt hj, (name_insert_before d n v hlt).trans hname, fun k hk => ?_⟩
        rw [name_insert_before d n v (by omega)]
        exact hfirst k hk
      rw [found_of_find hfind, value_insert_before d n v hlt]
    · have hfind : (d.insert i n v).find m = some (j + 1) := by
        refine find_eq_some.mpr
          ⟨Nat.succ_lt_succ hj, (name_insert_behind d n v (by omega)).trans hname, fun k hk => ?_⟩
        rcases lt_trichotomy k i with hlt | rfl | hgt
        · rw [name_insert_before d n v hlt]
          exact hfirst k (by omega)
        · rw [name_insert_at]
          exact hne.symm
        · rw [name_insert_behind d n v hgt]
          exact hfirst (k - 1) (by omega)
      rw [found_of_find hfind, value_insert_behind d n v (by omega), Nat.add_sub_cancel]

theorem lookup_insert_before (hi : i ≤ d.count) (h : d.find n = none) {pos : ℕ} (hpos : pos < i) :
    (d.insert i n v).lookup m pos = d.lookup m pos ↔ m ≠ n := by
  have hname := name_insert_before d n v hpos
  by_cases hm : m = n
  · subst hm
    have hp : d.name pos ≠ m := find_eq_none.mp h pos (by omega)
    have hfront : ∀ j < i, d.name j ≠ m := fun j hj => find_eq_none.mp h j (by omega)
    rw [lookup_of_ne hp, lookup_of_ne (by rwa [hname]), found_insert_same m v hi hfront, found, h]
    simp
  · by_cases hp : d.name pos = m
    · rw [lookup_of_name hp, lookup_of_name (hname.trans hp), value_insert_before d n v hpos]
      simp [hm]
    · rw [lookup_of_ne hp, lookup_of_ne (by rwa [hname]), found_insert_of_ne n v hi hm]
      simp [hm]

/-- Behind the new slot the place of a lookup holds what stood one slot before. -/
theorem lookup_insert_behind (hi : i ≤ d.count) (h : ∀ j < i, d.name j ≠ n) (m : ν) {pos : ℕ}
    (hpos : i < pos) :
    (d.insert i n v).lookup m pos =
      if m = n ∧ d.name (pos - 1) ≠ n then some v else d.lookup m (pos - 1) := by
  have hname := name_insert_behind d n v hpos
  by_cases hp : d.name (pos - 1) = m
  · rw [lookup_of_name hp, lookup_of_name (hname.trans hp), value_insert_behind d n v hpos,
      if_neg]
    rintro ⟨rfl, hc⟩
    exact hc hp
  · rw [lookup_of_ne hp, lookup_of_ne (by rwa [hname])]
    by_cases hm : m = n
    · subst hm
      rw [found_insert_same m v hi h, if_pos ⟨rfl, hp⟩]
    · rw [found_insert_of_ne n v hi hm, if_neg (fun hc => hm hc.1)]

end Insert

end Directory

end SlotDirectory
