import Mathlib.Data.List.Nodup
import Mathlib.Logic.Function.Basic

/-!
# Circular doubly linked lists

Intrusive lists closed by a head: the nodes carry the pointers, and a node without pointers is in
no list. An operation has no result where it follows a pointer that is not there.
-/

namespace CircularList

variable {α : Type}

structure Links (α : Type) where
  next : α → Option α
  prev : α → Option α

theorem getLastD_mem (a : α) (xs : List α) : xs.getLastD a ∈ a :: xs := by
  induction xs generalizing a with
  | nil => exact List.mem_cons_self
  | cons x xs ih =>
    rw [List.getLastD_cons]
    exact List.mem_cons_of_mem _ (ih x)

theorem headD_mem (a : α) (xs : List α) : xs.headD a ∈ a :: xs := by
  cases xs with
  | nil => exact List.mem_cons_self
  | cons x xs => exact List.mem_cons_of_mem _ List.mem_cons_self

theorem headD_reverse (a : α) (xs : List α) : xs.reverse.headD a = xs.getLastD a := by
  rw [List.headD_eq_head?_getD, List.head?_reverse, List.getLastD_eq_getLast?]

theorem getLastD_reverse (a : α) (xs : List α) : xs.reverse.getLastD a = xs.headD a := by
  rw [← headD_reverse, List.reverse_reverse]

/-! ## Paths -/

/-- The pointers lead from a node over the cells to another node. -/
def Path (f : α → Option α) : α → List α → α → Prop
  | a, [], b => f a = some b
  | a, c :: cells, b => f a = some c ∧ Path f c cells b

namespace Path

variable {f g : α → Option α} {a b c : α} {xs ys : List α}

theorem append : Path f a (xs ++ c :: ys) b ↔ Path f a xs c ∧ Path f c ys b := by
  induction xs generalizing a with
  | nil => rfl
  | cons x xs ih => rw [List.cons_append, Path, ih, Path, and_assoc]

theorem congr (h : Path f a xs b) (hsame : ∀ x ∈ a :: xs, g x = f x) : Path g a xs b := by
  induction xs generalizing a with
  | nil => exact (hsame a List.mem_cons_self).trans h
  | cons x xs ih =>
    refine ⟨(hsame a List.mem_cons_self).trans h.1, ih h.2 ?_⟩
    intro y hy
    exact hsame y (List.mem_cons_of_mem _ hy)

theorem redirect (h : Path f a xs b) (hnodup : (a :: xs).Nodup)
    (hsame : ∀ x ∈ a :: xs, x ≠ xs.getLastD a → g x = f x) (hlast : g (xs.getLastD a) = some c) :
    Path g a xs c := by
  induction xs generalizing a with
  | nil => exact hlast
  | cons x xs ih =>
    rw [List.getLastD_cons] at hsame hlast
    obtain ⟨hhead, hrest⟩ := h
    refine ⟨?_, ih hrest hnodup.of_cons ?_ hlast⟩
    · rw [← hhead]
      apply hsame a List.mem_cons_self
      rintro rfl
      exact (List.nodup_cons.mp hnodup).1 (getLastD_mem x xs)
    · intro y hy hne
      exact hsame y (List.mem_cons_of_mem _ hy) hne

/-- The pointer of the node before ys leads to its first node, or to the end. -/
theorem to_headD (h : Path f a (xs ++ ys) b) : Path f a xs (ys.headD b) := by
  cases ys with
  | nil => simpa using h
  | cons y ys => exact (append.mp h).1

theorem last (h : Path f a xs b) : f (xs.getLastD a) = some b := by
  induction xs generalizing a with
  | nil => exact h
  | cons x xs ih =>
    rw [List.getLastD_cons]
    exact ih h.2

end Path

theorem Path.erase {f g : α → Option α} {head node : α} {xs ys : List α}
    (h : Path f head (xs ++ node :: ys) head) (hnodup : (head :: (xs ++ node :: ys)).Nodup)
    (hsame : ∀ x ∈ head :: (xs ++ ys), x ≠ xs.getLastD head → g x = f x)
    (hlast : g (xs.getLastD head) = some (ys.headD head)) :
    Path g head (xs ++ ys) head := by
  have hredirect : Path g head xs (ys.headD head) := by
    apply (Path.append.mp h).1.redirect (hnodup.sublist (by simp))
    · intro x hx
      exact hsame x (List.cons_subset_cons _ (List.subset_append_left _ _) hx)
    · exact hlast
  cases ys with
  | nil => simpa using hredirect
  | cons y ys =>
    rw [Path.append]
    refine ⟨hredirect, (Path.append.mp h).2.2.congr ?_⟩
    intro x hx
    apply hsame x (List.mem_cons_of_mem _ (List.mem_append_right _ hx))
    rintro rfl
    have hdisjoint := List.nodup_append.mp
      (show ((head :: xs) ++ node :: y :: ys).Nodup from hnodup)
    exact hdisjoint.2.2 _ (getLastD_mem head xs) _ (List.mem_cons_of_mem _ hx) rfl

/-! ## Rings -/

structure Ring (l : Links α) (head : α) (cells : List α) : Prop where
  forward : Path l.next head cells head
  backward : Path l.prev head cells.reverse head
  nodup : (head :: cells).Nodup

/-- The pointers of every other node are the same. -/
def SameOff (nodes : List α) (l l' : Links α) : Prop :=
  ∀ node, node ∉ nodes → l'.next node = l.next node ∧ l'.prev node = l.prev node

theorem SameOff.refl (nodes : List α) (l : Links α) : SameOff nodes l l := fun _ _ => ⟨rfl, rfl⟩

theorem SameOff.trans {nodes₁ nodes₂ nodes : List α} {l l₁ l₂ : Links α}
    (h₁ : SameOff nodes₁ l l₁) (h₂ : SameOff nodes₂ l₁ l₂) (hsub₁ : nodes₁ ⊆ nodes)
    (hsub₂ : nodes₂ ⊆ nodes) : SameOff nodes l l₂ := by
  intro node hnode
  have hfirst := h₁ node fun hmem => hnode (hsub₁ hmem)
  have hsecond := h₂ node fun hmem => hnode (hsub₂ hmem)
  exact ⟨hsecond.1.trans hfirst.1, hsecond.2.trans hfirst.2⟩

namespace Ring

variable {l l' : Links α} {head node : α} {cells xs ys : List α}

theorem congr (h : Ring l head cells)
    (hsame : ∀ x ∈ head :: cells, l'.next x = l.next x ∧ l'.prev x = l.prev x) :
    Ring l' head cells := by
  refine ⟨h.forward.congr fun x hx => (hsame x hx).1, h.backward.congr ?_, h.nodup⟩
  intro x hx
  apply (hsame x _).2
  simpa using hx

theorem frame {nodes : List α} (h : Ring l head cells) (hsame : SameOff nodes l l')
    (hdisjoint : ∀ x ∈ head :: cells, x ∉ nodes) : Ring l' head cells :=
  h.congr fun x hx => hsame x (hdisjoint x hx)

theorem nodup_reverse (h : Ring l head cells) : (head :: cells.reverse).Nodup := by
  have hnodup := h.nodup
  rw [List.nodup_cons] at hnodup ⊢
  rwa [List.mem_reverse, List.nodup_reverse]

theorem next_head (h : Ring l head cells) : l.next head = some (cells.headD head) := by
  cases cells with
  | nil => exact h.forward
  | cons c cells => exact h.forward.1

theorem next_cell (h : Ring l head (xs ++ node :: ys)) : l.next node = some (ys.headD head) := by
  have hrest := (Path.append.mp h.forward).2
  cases ys with
  | nil => exact hrest
  | cons y ys => exact hrest.1

theorem next_first (h : Ring l head (node :: ys)) : l.next node = some (ys.headD head) :=
  (show Ring l head ([] ++ node :: ys) from h).next_cell

theorem prev_cell (h : Ring l head (xs ++ node :: ys)) : l.prev node = some (xs.getLastD head) := by
  have hback := h.backward
  rw [List.reverse_append, List.reverse_cons, List.append_assoc, List.singleton_append,
    Path.append] at hback
  have hrest := hback.2
  rw [← headD_reverse]
  cases hx : xs.reverse with
  | nil => rw [hx] at hrest; exact hrest
  | cons y ys => rw [hx] at hrest; exact hrest.1

theorem linked (h : Ring l head cells) (hmem : node ∈ cells) : l.next node ≠ none := by
  obtain ⟨xs, ys, rfl⟩ := List.append_of_mem hmem
  rw [h.next_cell]
  exact Option.some_ne_none _

end Ring

variable [DecidableEq α]

theorem Path.insert {f g : α → Option α} {head node : α} {xs ys : List α}
    (h : Path f head (xs ++ ys) head) (hnodup : (head :: (xs ++ ys)).Nodup)
    (hnew : node ∉ head :: (xs ++ ys))
    (hg : g = Function.update (Function.update f node (some (ys.headD head)))
      (xs.getLastD head) (some node)) :
    Path g head (xs ++ node :: ys) head := by
  have hne : xs.getLastD head ≠ node := by
    intro h
    apply hnew
    rw [← h]
    exact List.cons_subset_cons _ (List.subset_append_left _ _) (getLastD_mem head xs)
  have hsame : ∀ x ∈ head :: (xs ++ ys), x ≠ xs.getLastD head → g x = f x := by
    intro x hx hlast
    rw [hg, Function.update_of_ne hlast, Function.update_of_ne]
    rintro rfl
    exact hnew hx
  rw [Path.append]
  constructor
  · apply (Path.to_headD h).redirect (hnodup.sublist (by simp))
    · intro x hx
      exact hsame x (List.cons_subset_cons _ (List.subset_append_left _ _) hx)
    · rw [hg, Function.update_self]
  · have hnode : g node = some (ys.headD head) := by
      rw [hg, Function.update_of_ne hne.symm, Function.update_self]
    cases ys with
    | nil => exact hnode
    | cons y ys =>
      refine ⟨hnode, (Path.append.mp h).2.congr ?_⟩
      intro x hx
      apply hsame x (List.mem_cons_of_mem _ (List.mem_append_right _ hx))
      rintro rfl
      have hdisjoint := List.nodup_append.mp (show ((head :: xs) ++ y :: ys).Nodup from hnodup)
      exact hdisjoint.2.2 _ (getLastD_mem head xs) _ hx rfl

/-! ## Operations -/

def Links.setNext (l : Links α) (node : α) (pointer : Option α) : Links α :=
  { l with next := Function.update l.next node pointer }

def Links.setPrev (l : Links α) (node : α) (pointer : Option α) : Links α :=
  { l with prev := Function.update l.prev node pointer }

def Links.initList (l : Links α) (head : α) : Links α :=
  (l.setNext head (some head)).setPrev head (some head)

/-- The node is put in before another one. -/
def Links.addToList (l : Links α) (node before : α) : Option (Links α) :=
  let l := l.setNext node (some before)
  let l := l.setPrev node (l.prev before)
  match l.prev node with
  | none => none
  | some last => some ((l.setNext last (some node)).setPrev before (some node))

def Links.removeFromList (l : Links α) (node : α) : Option (Links α) :=
  match l.next node with
  | none => none
  | some after =>
    let l := l.setPrev after (l.prev node)
    match l.prev node with
    | none => none
    | some before =>
      let l := l.setNext before (l.next node)
      some ((l.setNext node none).setPrev node none)

/-- The nodes that a walk from a node comes to before the head. -/
def Links.cells (l : Links α) (head : α) : ℕ → α → List α
  | 0, _ => []
  | fuel + 1, node =>
    match l.next node with
    | none => []
    | some c => if c = head then [] else c :: l.cells head fuel c

theorem addToList_eq {l : Links α} {node before last : α} (h : l.prev before = some last) :
    l.addToList node before = some
      ⟨Function.update (Function.update l.next node (some before)) last (some node),
        Function.update (Function.update l.prev node (some last)) before (some node)⟩ := by
  simp [Links.addToList, Links.setNext, Links.setPrev, h]

theorem removeFromList_eq {l : Links α} {node before after : α} (hnext : l.next node = some after)
    (hprev : l.prev node = some before) (hne : after ≠ node) :
    l.removeFromList node = some
      ⟨Function.update (Function.update l.next before (some after)) node none,
        Function.update (Function.update l.prev after (some before)) node none⟩ := by
  simp [Links.removeFromList, Links.setNext, Links.setPrev, hnext, hprev, hne.symm]

namespace Ring

variable {l : Links α} {head node : α} {cells xs ys : List α}

theorem initList (l : Links α) (head : α) : Ring (l.initList head) head [] := by
  constructor
  · exact Function.update_self ..
  · exact Function.update_self ..
  · exact List.nodup_singleton head

theorem addToList (h : Ring l head (xs ++ ys)) (hnew : node ∉ head :: (xs ++ ys)) :
    ∃ l', l.addToList node (ys.headD head) = some l' ∧ Ring l' head (xs ++ node :: ys) ∧
      SameOff (node :: head :: (xs ++ ys)) l l' := by
  have hbefore : ys.headD head ∈ head :: (xs ++ ys) :=
    List.cons_subset_cons _ (List.subset_append_right _ _) (headD_mem head ys)
  have hlast : xs.getLastD head ∈ head :: (xs ++ ys) :=
    List.cons_subset_cons _ (List.subset_append_left _ _) (getLastD_mem head xs)
  have hbackward : Path l.prev head (ys.reverse ++ xs.reverse) head := by
    rw [← List.reverse_append]
    exact h.backward
  have hprev : l.prev (ys.headD head) = some (xs.getLastD head) := by
    have hto := hbackward.to_headD.last
    rwa [getLastD_reverse, headD_reverse] at hto
  refine ⟨_, addToList_eq hprev, ⟨?_, ?_, ?_⟩, ?_⟩
  · exact h.forward.insert h.nodup hnew rfl
  · have hnodup := h.nodup_reverse
    rw [List.reverse_append] at hnodup
    have hinsert := hbackward.insert hnodup (by simpa [or_comm] using hnew) rfl
    rw [getLastD_reverse, headD_reverse] at hinsert
    rw [List.reverse_append, List.reverse_cons, List.append_assoc]
    exact hinsert
  · have hnodup := h.nodup
    have hperm : (head :: (xs ++ node :: ys)).Perm (node :: head :: (xs ++ ys)) :=
      (List.perm_middle.cons head).trans (List.Perm.swap ..)
    exact hperm.nodup_iff.mpr (List.nodup_cons.mpr ⟨hnew, hnodup⟩)
  · intro x hx
    rw [List.mem_cons, not_or] at hx
    have hne : ∀ y ∈ head :: (xs ++ ys), x ≠ y := fun y hy hxy => hx.2 (hxy ▸ hy)
    constructor
    · exact (Function.update_of_ne (hne _ hlast) ..).trans (Function.update_of_ne hx.1 ..)
    · exact (Function.update_of_ne (hne _ hbefore) ..).trans (Function.update_of_ne hx.1 ..)

theorem removeFromList (h : Ring l head (xs ++ node :: ys)) :
    ∃ l', l.removeFromList node = some l' ∧ Ring l' head (xs ++ ys) ∧
      l'.next node = none ∧ l'.prev node = none ∧
      SameOff (head :: (xs ++ node :: ys)) l l' := by
  have hnext := h.next_cell
  have hprev := h.prev_cell
  have hnode : node ∉ head :: (xs ++ ys) := by
    have hperm : (head :: (xs ++ node :: ys)).Perm (node :: head :: (xs ++ ys)) :=
      (List.perm_middle.cons head).trans (List.Perm.swap ..)
    exact (List.nodup_cons.mp (hperm.nodup_iff.mp h.nodup)).1
  have hafter : ys.headD head ∈ head :: (xs ++ ys) :=
    List.cons_subset_cons _ (List.subset_append_right _ _) (headD_mem head ys)
  have hbefore : xs.getLastD head ∈ head :: (xs ++ ys) :=
    List.cons_subset_cons _ (List.subset_append_left _ _) (getLastD_mem head xs)
  have hne : ∀ x ∈ head :: (xs ++ ys), x ≠ node := fun x hx hxn => hnode (hxn ▸ hx)
  have hbackward : Path l.prev head (ys.reverse ++ node :: xs.reverse) head := by
    have hback := h.backward
    rwa [List.reverse_append, List.reverse_cons, List.append_assoc,
      List.singleton_append] at hback
  refine ⟨_, removeFromList_eq hnext hprev (hne _ hafter), ⟨?_, ?_, ?_⟩, ?_, ?_, ?_⟩
  · refine h.forward.erase h.nodup ?_ ?_
    · intro x hx hlast
      exact (Function.update_of_ne (hne x hx) ..).trans (Function.update_of_ne hlast ..)
    · exact (Function.update_of_ne (hne _ hbefore) ..).trans (Function.update_self ..)
  · rw [List.reverse_append]
    have hnodup := h.nodup_reverse
    rw [List.reverse_append, List.reverse_cons, List.append_assoc, List.singleton_append] at hnodup
    refine hbackward.erase hnodup ?_ ?_
    · intro x hx hlast
      rw [getLastD_reverse] at hlast
      have hx' : x ∈ head :: (xs ++ ys) := by simpa [or_comm] using hx
      exact (Function.update_of_ne (hne x hx') ..).trans (Function.update_of_ne hlast ..)
    · rw [getLastD_reverse, headD_reverse]
      exact (Function.update_of_ne (hne _ hafter) ..).trans (Function.update_self ..)
  · exact h.nodup.sublist (by simp)
  · simp
  · simp
  · intro x hx
    have hxn : x ≠ node := by
      rintro rfl
      exact hx (by simp)
    have hx' : ∀ y ∈ head :: (xs ++ ys), x ≠ y := by
      rintro y hy rfl
      apply hx
      simp only [List.mem_cons, List.mem_append] at hy ⊢
      tauto
    constructor
    · exact (Function.update_of_ne hxn ..).trans (Function.update_of_ne (hx' _ hbefore) ..)
    · exact (Function.update_of_ne hxn ..).trans (Function.update_of_ne (hx' _ hafter) ..)

theorem removeFirst (h : Ring l head (node :: ys)) :
    ∃ l', l.removeFromList node = some l' ∧ Ring l' head ys ∧
      l'.next node = none ∧ l'.prev node = none ∧ SameOff (head :: node :: ys) l l' :=
  (show Ring l head ([] ++ node :: ys) from h).removeFromList

theorem cells_eq {fuel : ℕ} (h : Ring l head cells) (hfuel : cells.length < fuel) :
    l.cells head fuel head = cells := by
  have hwalk : ∀ (node : α) (rest : List α) (fuel : ℕ), Path l.next node rest head →
      head ∉ rest → rest.length < fuel → l.cells head fuel node = rest := by
    intro node rest
    induction rest generalizing node with
    | nil =>
      intro fuel hpath _ hfuel
      obtain ⟨fuel, rfl⟩ : ∃ n, fuel = n + 1 := ⟨fuel - 1, by simp at hfuel; omega⟩
      rw [Links.cells, show l.next node = some head from hpath]
      simp
    | cons c rest ih =>
      intro fuel hpath hhead hfuel
      obtain ⟨fuel, rfl⟩ : ∃ n, fuel = n + 1 := ⟨fuel - 1, by simp at hfuel; omega⟩
      rw [List.mem_cons, not_or] at hhead
      rw [Links.cells, hpath.1]
      have hrest := ih c fuel hpath.2 hhead.2 (by simp at hfuel; omega)
      simp [Ne.symm hhead.1, hrest]
  exact hwalk head cells fuel h.forward (List.nodup_cons.mp h.nodup).1 hfuel

end Ring

end CircularList
