import Mathlib.Data.List.Pairwise
import Mathlib.Order.Lattice

/-!
# Maps in the order of their keys

A map as the list of its entries, the keys ascending: the order in which an ordered map is gone
through. A set is the map to units.
-/

namespace SortedMaps

universe u v

variable {κ : Type u} {β : Type v}

def Sorted [LT κ] (m : List (κ × β)) : Prop := m.Pairwise fun p q => p.1 < q.1

theorem sorted_nil [LT κ] : Sorted ([] : List (κ × β)) := List.Pairwise.nil

variable [LinearOrder κ]

/-- The entry of a key, new or in the place of the old one. -/
def put (k : κ) (b : β) : List (κ × β) → List (κ × β)
  | [] => [(k, b)]
  | p :: m => if k < p.1 then (k, b) :: p :: m else if p.1 = k then (k, b) :: m else p :: put k b m

def get (k : κ) : List (κ × β) → Option β
  | [] => none
  | p :: m => if p.1 = k then some p.2 else get k m

@[simp] theorem get_nil (k : κ) : get k ([] : List (κ × β)) = none := rfl

theorem get_cons_of_ne {k : κ} {p : κ × β} (h : p.1 ≠ k) (m : List (κ × β)) :
    get k (p :: m) = get k m := if_neg h

theorem mem_of_get {k : κ} {b : β} {m : List (κ × β)} (h : get k m = some b) : (k, b) ∈ m := by
  induction m with
  | nil => cases h
  | cons p m ih =>
    unfold get at h
    split at h
    · next heq =>
      cases h
      rw [← heq]
      exact List.mem_cons_self
    · exact List.mem_cons_of_mem p (ih h)

theorem get_eq_some_iff {k : κ} {b : β} {m : List (κ × β)} (hs : Sorted m) :
    get k m = some b ↔ (k, b) ∈ m := by
  refine ⟨mem_of_get, fun hmem => ?_⟩
  induction m with
  | nil => cases hmem
  | cons p m ih =>
    obtain ⟨hp, hm⟩ := List.pairwise_cons.mp hs
    rcases List.mem_cons.mp hmem with heq | hin
    · rw [← heq]
      exact if_pos rfl
    · rw [get_cons_of_ne (ne_of_lt (hp _ hin)), ih hm hin]

theorem mem_put_iff {k : κ} {b : β} {p : κ × β} {m : List (κ × β)} (hs : Sorted m) :
    p ∈ put k b m ↔ p = (k, b) ∨ p.1 ≠ k ∧ p ∈ m := by
  induction m with
  | nil => simp [put]
  | cons q m ih =>
    obtain ⟨hq, hm⟩ := List.pairwise_cons.mp hs
    have hother : k < q.1 → ∀ r ∈ q :: m, r.1 ≠ k := by
      intro hlt r hr
      rcases List.mem_cons.mp hr with rfl | hr
      · exact (ne_of_lt hlt).symm
      · exact (ne_of_lt (lt_trans hlt (hq r hr))).symm
    unfold put
    split
    · next hlt =>
      rw [List.mem_cons]
      exact or_congr_right (iff_and_self.mpr (hother hlt p))
    · split
      · next heq =>
        subst heq
        rw [List.mem_cons, List.mem_cons]
        refine or_congr_right ⟨fun hp => ⟨(ne_of_lt (hq p hp)).symm, .inr hp⟩, ?_⟩
        rintro ⟨hne, rfl | hp⟩
        · exact absurd rfl hne
        · exact hp
      · next heq =>
        rw [List.mem_cons, ih hm, List.mem_cons]
        constructor
        · rintro (rfl | rfl | ⟨hne, hp⟩)
          · exact .inr ⟨heq, .inl rfl⟩
          · exact .inl rfl
          · exact .inr ⟨hne, .inr hp⟩
        · rintro (rfl | ⟨hne, rfl | hp⟩)
          · exact .inr (.inl rfl)
          · exact .inl rfl
          · exact .inr (.inr ⟨hne, hp⟩)

theorem Sorted.put {m : List (κ × β)} (hs : Sorted m) (k : κ) (b : β) : Sorted (put k b m) := by
  induction m with
  | nil => exact List.pairwise_singleton _ _
  | cons q m ih =>
    obtain ⟨hq, hm⟩ := List.pairwise_cons.mp hs
    unfold SortedMaps.put
    split
    · next hlt =>
      refine List.pairwise_cons.mpr ⟨fun p hp => ?_, hs⟩
      rcases List.mem_cons.mp hp with rfl | hp
      · exact hlt
      · exact lt_trans hlt (hq p hp)
    · split
      · next heq =>
        subst heq
        exact List.pairwise_cons.mpr ⟨hq, hm⟩
      · next hnot hne =>
        refine List.pairwise_cons.mpr ⟨fun p hp => ?_, ih hm⟩
        rcases (mem_put_iff hm).mp hp with rfl | ⟨-, hp⟩
        · exact lt_of_le_of_ne (le_of_not_gt hnot) hne
        · exact hq p hp

theorem get_put {m : List (κ × β)} (hs : Sorted m) (k j : κ) (b : β) :
    get j (put k b m) = if j = k then some b else get j m := by
  refine Option.ext fun a => ?_
  rw [get_eq_some_iff (hs.put k b), mem_put_iff hs, Prod.mk.injEq]
  split
  · next heq => simp [heq, eq_comm]
  · next hne => simp [hne, get_eq_some_iff hs]

theorem perm_put {m : List (κ × β)} {k : κ} (h : get k m = none) (b : β) :
    (put k b m).Perm ((k, b) :: m) := by
  induction m with
  | nil => exact List.Perm.refl _
  | cons q m ih =>
    unfold get at h
    split at h
    · cases h
    · next hne =>
      unfold put
      split
      · exact List.Perm.refl _
      · exact ((ih h).cons q).trans (List.Perm.swap (k, b) q m)

end SortedMaps
