import Mathlib.Data.List.Dedup
import Mathlib.Data.List.Induction

/-!
# Bounded lists in order of recent use

A use moves an entry to the front of a list with at most so many entries; the entry that was used
least recently is dropped.
-/

namespace RecencyLists

variable {κ : Type*}

/-! ## Keys -/

/-- The last use of the first key comes after the last use of the second. -/
def UsedAfter (keys : List κ) (k l : κ) : Prop :=
  ∃ before rest, keys = before ++ k :: rest ∧ l ∉ k :: rest

theorem UsedAfter.cons {keys : List κ} {k l : κ} (first : κ) (h : UsedAfter keys k l) :
    UsedAfter (first :: keys) k l := by
  rcases h with ⟨before, rest, rfl, hl⟩
  exact ⟨first :: before, rest, rfl, hl⟩

theorem usedAfter_of_mem {keys : List κ} {k l : κ} (hk : k ∈ keys) (hl : l ∉ keys) :
    UsedAfter keys k l := by
  rcases List.append_of_mem hk with ⟨before, rest, rfl⟩
  exact ⟨before, rest, rfl, fun h => hl (List.mem_append_right before h)⟩

variable [DecidableEq κ]

/-- The distinct keys, the most recently used first. -/
def recent (keys : List κ) : List κ := keys.dedup.reverse

theorem recent_nodup (keys : List κ) : (recent keys).Nodup :=
  List.nodup_reverse.mpr (List.nodup_dedup keys)

theorem recent_pairwise (keys : List κ) : (recent keys).Pairwise (UsedAfter keys) := by
  rw [recent, List.pairwise_reverse]
  induction keys with
  | nil => exact List.Pairwise.nil
  | cons first keys ih =>
    have hrest := ih.imp (UsedAfter.cons first)
    by_cases h : first ∈ keys
    · rwa [List.dedup_cons_of_mem h]
    · rw [List.dedup_cons_of_notMem h, List.pairwise_cons]
      refine ⟨?_, hrest⟩
      intro k hk
      exact (usedAfter_of_mem (List.mem_dedup.mp hk) h).cons first

theorem dedup_concat (keys : List κ) (k : κ) :
    (keys ++ [k]).dedup = keys.dedup.erase k ++ [k] := by
  induction keys with
  | nil => rfl
  | cons first keys ih =>
    rw [List.cons_append]
    by_cases h : first ∈ keys
    · rw [List.dedup_cons_of_mem (List.mem_append_left _ h), List.dedup_cons_of_mem h, ih]
    rw [List.dedup_cons_of_notMem h]
    by_cases hk : first = k
    · subst hk
      have hlast : first ∈ keys ++ [first] := List.mem_append_right _ (List.mem_singleton_self _)
      have hnot : first ∉ keys.dedup := fun hmem => h (List.mem_dedup.mp hmem)
      rw [List.dedup_cons_of_mem hlast, ih, List.erase_cons_head, List.erase_of_not_mem hnot]
    · have hnot : first ∉ keys ++ [k] := by
        rw [List.mem_append, List.mem_singleton]
        exact not_or.mpr ⟨h, hk⟩
      rw [List.dedup_cons_of_notMem hnot, ih, List.erase_cons_tail (by simpa using hk)]
      rfl

theorem recent_concat (keys : List κ) (k : κ) :
    recent (keys ++ [k]) = k :: (recent keys).erase k := by
  have hnodup := List.nodup_dedup keys
  rw [recent, dedup_concat, List.reverse_append, List.reverse_singleton, List.singleton_append,
    hnodup.erase_eq_filter, recent, (List.nodup_reverse.mpr hnodup).erase_eq_filter,
    List.filter_reverse]

/-- What the bound drops is dropped before or after an entry is taken out. -/
theorem take_erase_take (k : κ) (keys : List κ) (n : ℕ) :
    ((keys.take (n + 1)).erase k).take n = (keys.erase k).take n := by
  induction keys generalizing n with
  | nil => rfl
  | cons first keys ih =>
    rw [List.take_succ_cons]
    by_cases h : first = k
    · subst h
      rw [List.erase_cons_head, List.erase_cons_head, List.take_take, Nat.min_self]
    · rw [List.erase_cons_tail (by simpa using h), List.erase_cons_tail (by simpa using h)]
      cases n with
      | zero => rfl
      | succ n => rw [List.take_succ_cons, List.take_succ_cons, ih]

/-! ## Entries -/

section Entries

variable {α : Type*} (key : α → κ)

/-- The last entry with a key. -/
def latest (calls : List α) (k : κ) : Option α := calls.reverse.find? (fun a => key a = k)

def touch (n : ℕ) (entries : List α) (a : α) : List α :=
  (a :: entries.eraseP (fun b => key b = key a)).take n

def touches (n : ℕ) (calls : List α) : List α := calls.foldl (touch key n) []

variable {key}

theorem touches_concat (n : ℕ) (calls : List α) (a : α) :
    touches key n (calls ++ [a]) = touch key n (touches key n calls) a := by
  rw [touches, List.foldl_append]
  rfl

theorem latest_concat (calls : List α) (a : α) (k : κ) :
    latest key (calls ++ [a]) k = if key a = k then some a else latest key calls k := by
  rw [latest, List.reverse_append, List.reverse_singleton, List.singleton_append, List.find?_cons]
  by_cases h : key a = k
  · simp only [h, decide_true, if_true]
  · simp only [h, decide_false, if_false]
    rfl

theorem map_key_eraseP (entries : List α) (k : κ) :
    (entries.eraseP (fun b => key b = k)).map key = (entries.map key).erase k := by
  induction entries with
  | nil => rfl
  | cons b entries ih =>
    rw [List.map_cons]
    by_cases h : key b = k
    · rw [List.eraseP_cons_of_pos (by simpa using h), h, List.erase_cons_head]
    · rw [List.eraseP_cons_of_neg (by simpa using h), List.erase_cons_tail (by simpa using h),
        List.map_cons, ih]

theorem map_key_touch (n : ℕ) (entries : List α) (a : α) :
    (touch key n entries a).map key = (key a :: (entries.map key).erase (key a)).take n := by
  rw [touch, List.map_take, List.map_cons, map_key_eraseP]

theorem map_key_touches (n : ℕ) (calls : List α) :
    (touches key n calls).map key = (recent (calls.map key)).take n := by
  induction calls using List.reverseRecOn with
  | nil => exact List.take_nil.symm
  | append_singleton calls a ih =>
    rw [touches_concat, map_key_touch, ih, List.map_append, List.map_singleton, recent_concat]
    cases n with
    | zero => rfl
    | succ n => rw [List.take_succ_cons, List.take_succ_cons, take_erase_take]

theorem touches_length_le (n : ℕ) (calls : List α) : (touches key n calls).length ≤ n := by
  rw [← List.length_map key, map_key_touches]
  exact List.length_take_le n _

theorem touches_nodup (n : ℕ) (calls : List α) : ((touches key n calls).map key).Nodup := by
  rw [map_key_touches]
  exact (recent_nodup _).sublist (List.take_sublist n _)

theorem ne_key_of_mem_eraseP {entries : List α} {k : κ} (hnodup : (entries.map key).Nodup) {b : α}
    (hb : b ∈ entries.eraseP (fun b => key b = k)) : key b ≠ k := by
  have hmem : key b ∈ (entries.map key).erase k := by
    rw [← map_key_eraseP]
    exact List.mem_map_of_mem hb
  exact (hnodup.mem_erase_iff.mp hmem).1

theorem latest_of_mem_touches {n : ℕ} {calls : List α} {b : α} (hb : b ∈ touches key n calls) :
    latest key calls (key b) = some b := by
  induction calls using List.reverseRecOn generalizing b with
  | nil => nomatch hb
  | append_singleton calls a ih =>
    rw [touches_concat] at hb
    rw [latest_concat]
    rcases List.mem_cons.mp (List.mem_of_mem_take hb) with rfl | hb
    · rw [if_pos rfl]
    · rw [if_neg (ne_key_of_mem_eraseP (touches_nodup n calls) hb).symm]
      exact ih (List.mem_of_mem_eraseP hb)

end Entries

end RecencyLists
