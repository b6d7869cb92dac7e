import Mathlib.Data.List.Nodup
import Mathlib.Logic.Function.Basic

/-!
# Lists linked by pointers

A list is a head pointer and a next pointer in each cell; 0 is the null pointer. A walk goes by the
places where the pointers stand, so that a cell is taken out by writing to the place that points
to it.
-/

namespace PointerList

/-- The pointers of one list among the cells of a heap. -/
structure Links where
  head : ℕ
  next : ℕ → ℕ

inductive Place where
  | head
  | next (cell : ℕ)
  deriving DecidableEq, Repr

def Links.load (l : Links) : Place → ℕ
  | .head => l.head
  | .next cell => l.next cell

def Links.store (l : Links) (place : Place) (pointer : ℕ) : Links :=
  match place with
  | .head => { l with head := pointer }
  | .next cell => { l with next := Function.update l.next cell pointer }

@[simp] theorem load_store (l : Links) (place : Place) (pointer : ℕ) :
    (l.store place pointer).load place = pointer := by
  cases place with
  | head => rfl
  | next cell => exact Function.update_self ..

theorem load_store_of_ne (l : Links) {place place' : Place} (h : place' ≠ place) (pointer : ℕ) :
    (l.store place pointer).load place' = l.load place' := by
  cases place with
  | head =>
    cases place' with
    | head => exact absurd rfl h
    | next cell => rfl
  | next cell =>
    cases place' with
    | head => rfl
    | next cell' =>
      apply Function.update_of_ne
      rintro rfl
      exact h rfl

/-- The place that points to a cell, from a place on. -/
def Links.find (l : Links) (cell : ℕ) : ℕ → Place → Option Place
  | 0, _ => none
  | fuel + 1, place =>
    if l.load place = 0 then none
    else if l.load place = cell then some place
    else l.find cell fuel (.next (l.load place))

/-- The cells that a walk from a place comes to. -/
def Links.cells (l : Links) : ℕ → Place → List ℕ
  | 0, _ => []
  | fuel + 1, place =>
    if l.load place = 0 then [] else l.load place :: l.cells fuel (.next (l.load place))

/-- The pointer at a place is set to the one in the cell it points to. -/
def Links.unlink (l : Links) (place : Place) : Links := l.store place (l.next (l.load place))

/-- From a pointer on the cells are those of a list. -/
def Chain (next : ℕ → ℕ) : ℕ → List ℕ → Prop
  | pointer, [] => pointer = 0
  | pointer, cell :: cells => pointer = cell ∧ cell ≠ 0 ∧ Chain next (next cell) cells

namespace Chain

variable {next next' : ℕ → ℕ} {pointer : ℕ} {cells : List ℕ}

theorem congr (h : Chain next pointer cells) (hsame : ∀ cell ∈ cells, next' cell = next cell) :
    Chain next' pointer cells := by
  induction cells generalizing pointer with
  | nil => exact h
  | cons cell cells ih =>
    obtain ⟨rfl, hcell, hrest⟩ := h
    refine ⟨rfl, hcell, ?_⟩
    rw [hsame _ List.mem_cons_self]
    exact ih hrest fun c hc => hsame c (List.mem_cons_of_mem _ hc)

theorem update (h : Chain next pointer cells) {cell : ℕ} (hcell : cell ∉ cells) (value : ℕ) :
    Chain (Function.update next cell value) pointer cells := by
  apply h.congr
  intro c hc
  apply Function.update_of_ne
  rintro rfl
  exact hcell hc

theorem push (h : Chain next pointer cells) {cell : ℕ} (hzero : cell ≠ 0) (hcell : cell ∉ cells) :
    Chain (Function.update next cell pointer) cell (cell :: cells) := by
  refine ⟨rfl, hzero, ?_⟩
  rw [Function.update_self]
  exact h.update hcell pointer

theorem ne_zero (h : Chain next pointer cells) {cell : ℕ} (hmem : cell ∈ cells) : cell ≠ 0 := by
  induction cells generalizing pointer with
  | nil => cases hmem
  | cons c cells ih =>
    rcases List.mem_cons.mp hmem with rfl | hmem
    · exact h.2.1
    · exact ih h.2.2 hmem

end Chain

theorem cells_eq {l : Links} {cells : List ℕ} {place : Place} {fuel : ℕ}
    (h : Chain l.next (l.load place) cells) (hfuel : cells.length ≤ fuel) :
    l.cells fuel place = cells := by
  induction cells generalizing place fuel with
  | nil =>
    change l.load place = 0 at h
    cases fuel with
    | zero => rfl
    | succ fuel => rw [Links.cells, if_pos h]
  | cons c cells ih =>
    cases fuel with
    | zero => cases hfuel
    | succ fuel =>
      obtain ⟨hload, hzero, hrest⟩ := h
      rw [Links.cells, hload, if_neg hzero]
      exact congrArg _ (@ih (.next c) fuel hrest (Nat.le_of_succ_le_succ hfuel))

/-- A walk from a place that is not in the cells behind it. -/
def Place.Outside (cells : List ℕ) : Place → Prop
  | .head => True
  | .next cell => cell ∉ cells

theorem find_none {l : Links} {cells : List ℕ} {place : Place} {fuel : ℕ}
    (h : Chain l.next (l.load place) cells) {cell : ℕ} (hcell : cell ∉ cells) :
    l.find cell fuel place = none := by
  induction fuel generalizing cells place with
  | zero => rfl
  | succ fuel ih =>
    cases cells with
    | nil =>
      change l.load place = 0 at h
      rw [Links.find, if_pos h]
    | cons c cells =>
      obtain ⟨hload, hzero, hrest⟩ := h
      rw [List.mem_cons, not_or] at hcell
      rw [Links.find, hload, if_neg hzero, if_neg (Ne.symm hcell.1)]
      exact ih hrest hcell.2

/-- What a walk that finds a cell comes back with. -/
structure FoundAt (l : Links) (start : Place) (cells : List ℕ) (cell : ℕ) (place : Place) :
    Prop where
  points : l.load place = cell
  within : place = start ∨ ∃ c ∈ cells, place = .next c
  unlinked : Chain (l.unlink place).next ((l.unlink place).load start) (cells.erase cell)

theorem find_some {l : Links} {cells : List ℕ} {start : Place} {fuel : ℕ}
    (h : Chain l.next (l.load start) cells) (hnodup : cells.Nodup) (hfuel : cells.length ≤ fuel)
    (houtside : start.Outside cells) {cell : ℕ} (hcell : cell ∈ cells) :
    ∃ place, l.find cell fuel start = some place ∧ FoundAt l start cells cell place := by
  induction cells generalizing start fuel with
  | nil => cases hcell
  | cons c cells ih =>
    cases fuel with
    | zero => cases hfuel
    | succ fuel =>
      obtain ⟨hload, hzero, hrest⟩ := h
      obtain ⟨hfresh, hnodup⟩ := List.nodup_cons.mp hnodup
      by_cases heq : c = cell
      · subst heq
        refine ⟨start, ?_, hload, Or.inl rfl, ?_⟩
        · rw [Links.find, hload, if_neg hzero, if_pos rfl]
        · rw [List.erase_cons_head]
          cases start with
          | head =>
            change l.head = c at hload
            simp only [Links.unlink, Links.store, Links.load, hload]
            exact hrest
          | next before =>
            change l.next before = c at hload
            have hbefore : before ∉ cells := fun hmem => houtside (List.mem_cons_of_mem _ hmem)
            simp only [Links.unlink, Links.store, Links.load, hload, Function.update_self]
            exact hrest.update hbefore _
      · have hmem : cell ∈ cells := (List.mem_cons.mp hcell).resolve_left fun h => heq h.symm
        obtain ⟨place, hfind, hfound⟩ := @ih (.next c) fuel hrest hnodup
          (Nat.le_of_succ_le_succ hfuel) hfresh hmem
        refine ⟨place, ?_, hfound.points, ?_, ?_⟩
        · rw [Links.find, hload, if_neg hzero, if_neg heq]
          exact hfind
        · right
          rcases hfound.within with rfl | ⟨d, hd, rfl⟩
          · exact ⟨c, List.mem_cons_self, rfl⟩
          · exact ⟨d, List.mem_cons_of_mem _ hd, rfl⟩
        · -- the place that is written to is behind the start
          have hne : start ≠ place := by
            rintro rfl
            rcases hfound.within with rfl | ⟨d, hd, rfl⟩
            · exact houtside List.mem_cons_self
            · exact houtside (List.mem_cons_of_mem _ hd)
          rw [List.erase_cons_tail (by simpa using heq), Links.unlink, load_store_of_ne _ hne,
            hload]
          exact ⟨rfl, hzero, hfound.unlinked⟩

/-- The place that points to the first cell with a property, from a place on. -/
def Links.findP (l : Links) (p : ℕ → Bool) : ℕ → Place → Option Place
  | 0, _ => none
  | fuel + 1, place =>
    if l.load place = 0 then none
    else if p (l.load place) then some place
    else l.findP p fuel (.next (l.load place))

theorem findP_eq_find {l : Links} {p : ℕ → Bool} {cells : List ℕ} {place : Place} {fuel : ℕ}
    (h : Chain l.next (l.load place) cells) {cell : ℕ} (hfirst : cells.find? p = some cell) :
    l.findP p fuel place = l.find cell fuel place := by
  induction cells generalizing place fuel with
  | nil => cases hfirst
  | cons c cells ih =>
    cases fuel with
    | zero => rfl
    | succ fuel =>
      obtain ⟨hload, hzero, hrest⟩ := h
      rw [Links.findP, Links.find, hload, if_neg hzero, if_neg hzero]
      by_cases hc : p c
      · rw [List.find?_cons_of_pos hc] at hfirst
        rw [if_pos hc, if_pos (Option.some.inj hfirst)]
      · rw [List.find?_cons_of_neg hc] at hfirst
        have hne : c ≠ cell := by
          rintro rfl
          exact hc (List.find?_some hfirst)
        rw [if_neg hc, if_neg hne]
        exact ih hrest hfirst

theorem eraseP_eq_erase {p : ℕ → Bool} {cells : List ℕ} {cell : ℕ}
    (hfirst : cells.find? p = some cell) : cells.eraseP p = cells.erase cell := by
  induction cells with
  | nil => cases hfirst
  | cons c cells ih =>
    by_cases hc : p c
    · rw [List.find?_cons_of_pos hc] at hfirst
      rw [List.eraseP_cons_of_pos hc, Option.some.inj hfirst, List.erase_cons_head]
    · rw [List.find?_cons_of_neg hc] at hfirst
      have hne : ¬ c == cell := by
        rw [beq_iff_eq]
        rintro rfl
        exact hc (List.find?_some hfirst)
      rw [List.eraseP_cons_of_neg hc, List.erase_cons_tail hne, ih hfirst]

/-- A cell with the property is the first one unless one in front of it has it too. -/
theorem find?_eq_some_iff_takeWhile {p : ℕ → Bool} {cells : List ℕ} {cell : ℕ}
    (hcell : cell ∈ cells) (hp : p cell) :
    cells.find? p = some cell ↔ ∀ c ∈ cells.takeWhile (· != cell), p c = false := by
  induction cells with
  | nil => cases hcell
  | cons c cells ih =>
    by_cases heq : c = cell
    · subst heq
      rw [List.find?_cons_of_pos hp, List.takeWhile_cons_of_neg (by simp)]
      exact ⟨fun _ _ h => absurd h List.not_mem_nil, fun _ => rfl⟩
    · have hmem : cell ∈ cells := (List.mem_cons.mp hcell).resolve_left fun h => heq h.symm
      rw [List.takeWhile_cons_of_pos (p := (· != cell)) (bne_iff_ne.mpr heq), List.forall_mem_cons]
      by_cases hc : p c
      · rw [List.find?_cons_of_pos hc]
        refine ⟨fun h => absurd (Option.some.inj h) heq, fun h => ?_⟩
        rw [hc] at h
        cases h.1
      · rw [List.find?_cons_of_neg hc, ih hmem]
        exact ⟨fun h => ⟨Bool.eq_false_iff.mpr hc, h⟩, fun h => h.2⟩

theorem findP_none {l : Links} {p : ℕ → Bool} {cells : List ℕ} {place : Place} {fuel : ℕ}
    (h : Chain l.next (l.load place) cells) (hnone : cells.find? p = none) :
    l.findP p fuel place = none := by
  induction cells generalizing place fuel with
  | nil =>
    change l.load place = 0 at h
    cases fuel with
    | zero => rfl
    | succ fuel => rw [Links.findP, if_pos h]
  | cons c cells ih =>
    cases fuel with
    | zero => rfl
    | succ fuel =>
      obtain ⟨hload, hzero, hrest⟩ := h
      have hc : ¬ p c := by
        intro hc
        rw [List.find?_cons_of_pos hc] at hnone
        cases hnone
      rw [List.find?_cons_of_neg hc] at hnone
      rw [Links.findP, hload, if_neg hzero, if_neg hc]
      exact ih hrest hnone

/-- A list whose cells are none of those of the walk stays as it is. -/
theorem FoundAt.frame {l : Links} {cells others : List ℕ} {cell pointer : ℕ} {place : Place}
    (h : FoundAt l .head cells cell place) (hothers : Chain l.next pointer others)
    (hapart : ∀ c ∈ cells, c ∉ others) : Chain (l.unlink place).next pointer others := by
  rcases h.within with rfl | ⟨c, hc, rfl⟩
  · exact hothers
  · exact hothers.update (hapart c hc) _

end PointerList
