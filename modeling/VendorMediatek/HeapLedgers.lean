import Mathlib.Data.List.Count
import Mathlib.Data.List.Nodup
import Mathlib.Data.List.Perm.Basic
import Mathlib.Data.List.ReduceOption

/-!
# Heap ledgers

What a computation does to the blocks of a heap, in its order. The ledger is balanced when every
block it allocates is freed once, no other pointer is freed, and nothing touches a block behind
its free.
-/

namespace HeapLedgers

universe u

/-- A free is given a pointer: a block and an offset inside it. -/
inductive Op (β : Type u) where
  | alloc (b : β)
  | use (b : β)
  | free (b : β) (offset : ℕ)
  deriving DecidableEq, Repr

variable {β : Type u}

def Op.block : Op β → β
  | .alloc b | .use b | .free b _ => b

def Op.allocated : Op β → Option β
  | .alloc b => some b
  | _ => none

def Op.freed : Op β → Option (β × ℕ)
  | .free b offset => some (b, offset)
  | _ => none

def allocations (ops : List (Op β)) : List β := ops.filterMap Op.allocated

def frees (ops : List (Op β)) : List (β × ℕ) := ops.filterMap Op.freed

def Settled (ops : List (Op β)) : Prop :=
  ops.Pairwise fun o later => ∀ p, o.freed = some p → later.block ≠ p.1

structure Balanced [DecidableEq β] (ops : List (Op β)) : Prop where
  once : ∀ b ∈ allocations ops, (frees ops).countP (fun p => p.1 = b) = 1
  whole : ∀ p ∈ frees ops, p.2 = 0 ∧ p.1 ∈ allocations ops
  settled : Settled ops

/-! ## Parts of a ledger -/

@[simp] theorem allocations_append (a b : List (Op β)) :
    allocations (a ++ b) = allocations a ++ allocations b := List.filterMap_append

@[simp] theorem frees_append (a b : List (Op β)) : frees (a ++ b) = frees a ++ frees b :=
  List.filterMap_append

@[simp] theorem allocations_nil : allocations ([] : List (Op β)) = [] := rfl

@[simp] theorem frees_nil : frees ([] : List (Op β)) = [] := rfl

@[simp] theorem allocations_alloc (b : β) (ops : List (Op β)) :
    allocations (.alloc b :: ops) = b :: allocations ops := rfl

@[simp] theorem allocations_use (b : β) (ops : List (Op β)) :
    allocations (.use b :: ops) = allocations ops := rfl

@[simp] theorem allocations_free (b : β) (offset : ℕ) (ops : List (Op β)) :
    allocations (.free b offset :: ops) = allocations ops := rfl

@[simp] theorem frees_alloc (b : β) (ops : List (Op β)) :
    frees (.alloc b :: ops) = frees ops := rfl

@[simp] theorem frees_use (b : β) (ops : List (Op β)) : frees (.use b :: ops) = frees ops := rfl

@[simp] theorem frees_free (b : β) (offset : ℕ) (ops : List (Op β)) :
    frees (.free b offset :: ops) = (b, offset) :: frees ops := rfl

@[simp] theorem allocations_map_alloc (bs : List β) : allocations (bs.map Op.alloc) = bs := by
  induction bs with
  | nil => rfl
  | cons b bs ih => exact congrArg (b :: ·) ih

@[simp] theorem frees_map_alloc (bs : List β) : frees (bs.map Op.alloc) = [] := by
  induction bs with
  | nil => rfl
  | cons b bs ih => exact ih

@[simp] theorem allocations_map_use (bs : List β) : allocations (bs.map Op.use) = [] := by
  induction bs with
  | nil => rfl
  | cons b bs ih => exact ih

@[simp] theorem frees_map_use (bs : List β) : frees (bs.map Op.use) = [] := by
  induction bs with
  | nil => rfl
  | cons b bs ih => exact ih

theorem mem_frees_flatMap {α : Type*} {l : List α} {f : α → List (Op β)} {p : β × ℕ} :
    p ∈ frees (l.flatMap f) ↔ ∃ x ∈ l, p ∈ frees (f x) := by
  rw [frees, List.filterMap_flatMap, List.mem_flatMap]
  rfl

theorem settled_append {a b : List (Op β)} :
    Settled (a ++ b) ↔ Settled a ∧ Settled b ∧ ∀ p ∈ frees a, ∀ o ∈ b, o.block ≠ p.1 := by
  rw [Settled, List.pairwise_append]
  refine and_congr Iff.rfl (and_congr Iff.rfl ?_)
  constructor
  · intro h p hp o ho
    obtain ⟨free, hfree, hp⟩ := List.mem_filterMap.mp hp
    exact h free hfree o ho p hp
  · intro h free hfree o ho p hp
    exact h p (List.mem_filterMap.mpr ⟨free, hfree, hp⟩) o ho

theorem settled_append_of_frees_nil {a b : List (Op β)} (h : frees a = []) (hb : Settled b) :
    Settled (a ++ b) := by
  have none : ∀ o ∈ a, o.freed = none := List.filterMap_eq_nil_iff.mp h
  refine settled_append.mpr ⟨?_, hb, by simp [h]⟩
  apply List.pairwise_of_forall_mem_list
  intro o ho later _ p hp
  rw [none o ho] at hp
  cases hp

/-! ## Releases -/

/-- Pointers are freed one after another; touching writes over a block in front of its free. -/
def release (touching : Bool) (ps : List (β × ℕ)) : List (Op β) :=
  ps.flatMap fun p => (if touching then [.use p.1] else []) ++ [.free p.1 p.2]

@[simp] theorem release_nil (touching : Bool) : release touching ([] : List (β × ℕ)) = [] := rfl

theorem release_cons (touching : Bool) (p : β × ℕ) (ps : List (β × ℕ)) :
    release touching (p :: ps) =
      ((if touching then [.use p.1] else []) ++ [.free p.1 p.2]) ++ release touching ps := rfl

@[simp] theorem allocations_release (touching : Bool) (ps : List (β × ℕ)) :
    allocations (release touching ps) = [] := by
  induction ps with
  | nil => rfl
  | cons p ps ih => cases touching <;> simpa [release_cons] using ih

@[simp] theorem frees_release (touching : Bool) (ps : List (β × ℕ)) :
    frees (release touching ps) = ps := by
  induction ps with
  | nil => rfl
  | cons p ps ih => cases touching <;> simpa [release_cons] using ih

theorem block_of_mem_release {touching : Bool} {ps : List (β × ℕ)} {o : Op β}
    (h : o ∈ release touching ps) : o.block ∈ ps.map Prod.fst := by
  obtain ⟨p, hp, ho⟩ := List.mem_flatMap.mp h
  refine List.mem_map.mpr ⟨p, hp, ?_⟩
  rcases List.mem_append.mp ho with ho | ho
  · split at ho
    · rw [List.mem_singleton.mp ho]; rfl
    · cases ho
  · rw [List.mem_singleton.mp ho]; rfl

theorem settled_free (b : β) (offset : ℕ) : Settled [Op.free b offset] :=
  List.pairwise_singleton _ _

theorem settled_release {touching : Bool} {ps : List (β × ℕ)} (h : (ps.map Prod.fst).Nodup) :
    Settled (release touching ps) := by
  induction ps with
  | nil => exact List.Pairwise.nil
  | cons p ps ih =>
    obtain ⟨hp, hps⟩ := List.nodup_cons.mp h
    have first : Settled ((if touching then [.use p.1] else []) ++ [Op.free p.1 p.2]) :=
      settled_append_of_frees_nil (by cases touching <;> rfl) (settled_free p.1 p.2)
    refine settled_append.mpr ⟨first, ih hps, fun q hq o ho he => ?_⟩
    have hq : q = p := by cases touching <;> simpa using hq
    exact hp (by rw [← hq, ← he]; exact block_of_mem_release ho)

/-- The pointers stand in a block of their own, which is read for each; NULL is not freed. -/
def releaseThrough (touching : Bool) (owner : β) (ptrs : List (Option (β × ℕ))) : List (Op β) :=
  ptrs.flatMap fun p => .use owner :: release touching p.toList

theorem releaseThrough_cons (touching : Bool) (owner : β) (p : Option (β × ℕ))
    (ptrs : List (Option (β × ℕ))) :
    releaseThrough touching owner (p :: ptrs) =
      (.use owner :: release touching p.toList) ++ releaseThrough touching owner ptrs := rfl

@[simp] theorem allocations_releaseThrough (touching : Bool) (owner : β)
    (ptrs : List (Option (β × ℕ))) : allocations (releaseThrough touching owner ptrs) = [] := by
  induction ptrs with
  | nil => rfl
  | cons p ptrs ih => simpa [releaseThrough_cons] using ih

@[simp] theorem frees_releaseThrough (touching : Bool) (owner : β)
    (ptrs : List (Option (β × ℕ))) :
    frees (releaseThrough touching owner ptrs) = ptrs.reduceOption := by
  induction ptrs with
  | nil => rfl
  | cons p ptrs ih => cases p <;> simp [releaseThrough_cons, ih, List.reduceOption]

theorem block_of_mem_releaseThrough {touching : Bool} {owner : β}
    {ptrs : List (Option (β × ℕ))} {o : Op β} (h : o ∈ releaseThrough touching owner ptrs) :
    o.block = owner ∨ o.block ∈ ptrs.reduceOption.map Prod.fst := by
  obtain ⟨p, hp, ho⟩ := List.mem_flatMap.mp h
  rcases List.mem_cons.mp ho with rfl | ho
  · exact Or.inl rfl
  · obtain ⟨q, hq, he⟩ := List.mem_map.mp (block_of_mem_release ho)
    obtain rfl := Option.mem_toList.mp hq
    exact Or.inr (List.mem_map.mpr ⟨q, List.reduceOption_mem_iff.mpr hp, he⟩)

theorem settled_releaseThrough {touching : Bool} {owner : β} {ptrs : List (Option (β × ℕ))}
    (h : (owner :: ptrs.reduceOption.map Prod.fst).Nodup) :
    Settled (releaseThrough touching owner ptrs) := by
  obtain ⟨howner, hptrs⟩ := List.nodup_cons.mp h
  induction ptrs with
  | nil => exact List.Pairwise.nil
  | cons p ptrs ih =>
    have first : Settled (Op.use owner :: release touching p.toList) := by
      refine settled_append_of_frees_nil (a := [Op.use owner]) rfl (settled_release ?_)
      cases p <;> simp
    have rest : Settled (releaseThrough touching owner ptrs) := by
      cases p with
      | none => exact ih h howner hptrs
      | some q =>
        rw [List.reduceOption_cons_of_some, List.map_cons] at howner hptrs
        have hrest := List.not_mem_of_not_mem_cons howner
        exact ih (List.nodup_cons.mpr ⟨hrest, (List.nodup_cons.mp hptrs).2⟩) hrest
          (List.nodup_cons.mp hptrs).2
    rw [releaseThrough_cons]
    refine settled_append.mpr ⟨first, rest, fun q hq o ho he => ?_⟩
    rw [frees_use, frees_release] at hq
    obtain rfl := Option.mem_toList.mp hq
    rw [List.reduceOption_cons_of_some, List.map_cons] at howner hptrs
    rcases block_of_mem_releaseThrough ho with hb | hb
    · exact howner (by rw [← hb, he]; exact List.mem_cons_self)
    · exact (List.nodup_cons.mp hptrs).1 (he ▸ hb)

/-- The ledger frees these blocks, each once and nothing else, and allocates none. -/
structure Releases (ops : List (Op β)) (bs : List β) : Prop where
  allocates : allocations ops = []
  frees : (frees ops).Perm (bs.map fun b => (b, 0))
  settled : Settled ops

variable {ops a c : List (Op β)} {bs cs : List β}

theorem releases_nil : Releases ([] : List (Op β)) [] := ⟨rfl, List.Perm.nil, List.Pairwise.nil⟩

theorem releases_free (b : β) : Releases [Op.free b 0] [b] :=
  ⟨rfl, List.Perm.refl _, settled_free b 0⟩

theorem Releases.perm (h : Releases ops bs) (hp : bs.Perm cs) : Releases ops cs :=
  ⟨h.allocates, h.frees.trans (hp.map _), h.settled⟩

theorem Releases.use (h : Releases ops bs) (b : β) : Releases (.use b :: ops) bs :=
  ⟨h.allocates, h.frees, settled_append_of_frees_nil (a := [.use b]) rfl h.settled⟩

theorem Releases.append (ha : Releases a bs) (hc : Releases c cs)
    (h : ∀ o ∈ c, o.block ∉ bs) : Releases (a ++ c) (bs ++ cs) where
  allocates := by rw [allocations_append, ha.allocates, hc.allocates, List.append_nil]
  frees := by
    rw [frees_append, List.map_append]
    exact ha.frees.append hc.frees
  settled := by
    refine settled_append.mpr ⟨ha.settled, hc.settled, fun p hp o ho he => ?_⟩
    obtain ⟨b, hb, rfl⟩ := List.mem_map.mp (ha.frees.mem_iff.mp hp)
    exact h o ho (he ▸ hb)

theorem releases_release (touching : Bool) (h : bs.Nodup) :
    Releases (release touching (bs.map fun b => (b, 0))) bs where
  allocates := allocations_release _ _
  frees := List.Perm.of_eq (frees_release _ _)
  settled := settled_release (by simpa [List.map_map, Function.comp_def] using h)

theorem releases_releaseThrough (touching : Bool) {owner : β} {ptrs : List (Option (β × ℕ))}
    (hptrs : ptrs.reduceOption = bs.map fun b => (b, 0)) (h : (owner :: bs).Nodup) :
    Releases (releaseThrough touching owner ptrs) bs where
  allocates := allocations_releaseThrough _ _ _
  frees := List.Perm.of_eq ((frees_releaseThrough _ _ _).trans hptrs)
  settled := by
    apply settled_releaseThrough
    rw [hptrs]
    simpa [List.map_map, Function.comp_def] using h

/-! ## Balance -/

variable [DecidableEq β]

theorem count_map_start {bs : List β} (h : bs.Nodup) {b : β} (hb : b ∈ bs) :
    (bs.map fun b => (b, 0)).countP (fun p : β × ℕ => p.1 = b) = 1 := by
  rw [List.countP_map]
  exact List.count_eq_one_of_mem h hb

/-- Everything is set up first and released behind it, each block once. -/
theorem balanced_of_releases {setup released : List (Op β)} (hsetup : frees setup = [])
    (hnodup : (allocations setup).Nodup) (h : Releases released (allocations setup)) :
    Balanced (setup ++ released) where
  once := by
    intro b hb
    rw [allocations_append, h.allocates, List.append_nil] at hb
    rw [frees_append, hsetup, List.nil_append, h.frees.countP_eq]
    exact count_map_start hnodup hb
  whole := by
    intro p hp
    rw [frees_append, hsetup, List.nil_append, h.frees.mem_iff] at hp
    obtain ⟨b, hb, rfl⟩ := List.mem_map.mp hp
    exact ⟨rfl, by rw [allocations_append]; exact List.mem_append_left _ hb⟩
  settled := settled_append_of_frees_nil hsetup h.settled

omit [DecidableEq β] in
theorem block_of_mem_allocations {ops : List (Op β)} {b : β} (h : b ∈ allocations ops) :
    ∃ o ∈ ops, o.block = b := by
  obtain ⟨o, ho, hb⟩ := List.mem_filterMap.mp h
  cases o with
  | alloc c => exact ⟨_, ho, Option.some_inj.mp hb⟩
  | use c => cases hb
  | free c offset => cases hb

omit [DecidableEq β] in
theorem block_of_mem_frees {ops : List (Op β)} {p : β × ℕ} (h : p ∈ frees ops) :
    ∃ o ∈ ops, o.block = p.1 := by
  obtain ⟨o, ho, hp⟩ := List.mem_filterMap.mp h
  cases o with
  | alloc c => cases hp
  | use c => cases hp
  | free c offset => exact ⟨_, ho, congrArg Prod.fst (Option.some_inj.mp hp)⟩

theorem balanced_nil : Balanced ([] : List (Op β)) := ⟨nofun, nofun, List.Pairwise.nil⟩

/-- Two balanced ledgers about different blocks are balanced one behind the other. -/
theorem Balanced.append {a c : List (Op β)} (ha : Balanced a) (hc : Balanced c)
    (h : ∀ o ∈ a, ∀ p ∈ c, o.block ≠ p.block) : Balanced (a ++ c) where
  once := by
    intro b hb
    rw [frees_append, List.countP_append]
    rw [allocations_append] at hb
    rcases List.mem_append.mp hb with hb | hb
    · obtain ⟨o, ho, rfl⟩ := block_of_mem_allocations hb
      have hnone : (frees c).countP (fun p => p.1 = o.block) = 0 :=
        List.countP_eq_zero.mpr fun p hp heq => by
          obtain ⟨q, hq, hblock⟩ := block_of_mem_frees hp
          exact h o ho q hq (hblock.trans (of_decide_eq_true heq)).symm
      rw [hnone, ha.once _ hb]
    · obtain ⟨o, ho, rfl⟩ := block_of_mem_allocations hb
      have hnone : (frees a).countP (fun p => p.1 = o.block) = 0 :=
        List.countP_eq_zero.mpr fun p hp heq => by
          obtain ⟨q, hq, hblock⟩ := block_of_mem_frees hp
          exact h q hq o ho (hblock.trans (of_decide_eq_true heq))
      rw [hnone, hc.once _ hb]
  whole := by
    intro p hp
    rw [allocations_append]
    rw [frees_append] at hp
    rcases List.mem_append.mp hp with hp | hp
    · exact ⟨(ha.whole p hp).1, List.mem_append_left _ (ha.whole p hp).2⟩
    · exact ⟨(hc.whole p hp).1, List.mem_append_right _ (hc.whole p hp).2⟩
  settled := by
    refine settled_append.mpr ⟨ha.settled, hc.settled, fun p hp o ho heq => ?_⟩
    obtain ⟨q, hq, hblock⟩ := block_of_mem_frees hp
    exact h q hq o ho (hblock.trans heq.symm)

theorem not_balanced_of_leak {ops : List (Op β)} {b : β} (hb : b ∈ allocations ops)
    (h : ∀ p ∈ frees ops, p.1 ≠ b) : ¬ Balanced ops := by
  intro balanced
  have hone := balanced.once b hb
  rw [List.countP_eq_zero.mpr (by simpa using h)] at hone
  cases hone

theorem not_balanced_of_twice {ops : List (Op β)} {b : β} (hb : b ∈ allocations ops)
    (h : [(b, 0), (b, 0)].Sublist (frees ops)) : ¬ Balanced ops := by
  intro balanced
  have hle := h.countP_le (p := fun p => p.1 = b)
  rw [balanced.once b hb] at hle
  simp at hle

end HeapLedgers
