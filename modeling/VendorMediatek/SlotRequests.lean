import Mathlib.Data.Nat.Count
import VendorMediatek.SlotDirectory

/-!
# Requests that a directory attends to in order

Request q expects its name and value in slot q + 1. Where a lookup does not show the value, the first
slot with the name is overwritten, or a slot is put in at the request's place. The directory before
the first request tells which lookups show the right value behind the last.
-/

namespace SlotDirectory

universe u v

namespace Directory

variable {ν : Type u} {β : Type v}

/-- The slots behind the end have no name. -/
def Trimmed (d : Directory ν β) (blank : ν) : Prop := ∀ i, d.count ≤ i → d.name i = blank

theorem Trimmed.lt_count {d : Directory ν β} {blank : ν} (h : d.Trimmed blank) {i : ℕ}
    (hi : d.name i ≠ blank) : i < d.count :=
  Nat.lt_of_not_le fun hle => hi (h i hle)

variable [DecidableEq ν]

/-- Overwrites the first slot with the name or makes one for it. -/
def serve (d : Directory ν β) (pos : ℕ) (n : ν) (v : β) : Directory ν β :=
  match d.find n with
  | some i => d.put i n v
  | none => if d.count ≤ pos then d.put pos n v else d.insert pos n v

variable {d : Directory ν β} {blank n m : ν} {v : β} {pos i j : ℕ}

theorem serve_found (h : d.find n = some i) : d.serve pos n v = d.put i n v := by
  simp only [serve, h]

/-! ## A directory without names behind its end -/

section Trimmed

variable (ht : d.Trimmed blank) (hn : n ≠ blank)

include ht

theorem Trimmed.put_found (h : d.find n = some i) : (d.put i n v).Trimmed blank := by
  intro j hj
  rw [name_put_found h v]
  exact ht j ((Nat.le_max_left ..).trans hj)

include hn

theorem Trimmed.find_eq_none : d.find n = none ↔ ∀ i, d.name i ≠ n := by
  rw [Directory.find_eq_none]
  constructor
  · intro h i hi
    exact h i (ht.lt_count (hi ▸ hn)) hi
  · exact fun h i _ => h i

theorem Trimmed.find_eq_some : d.find n = some i ↔ d.name i = n ∧ ∀ j < i, d.name j ≠ n := by
  rw [Directory.find_eq_some]
  constructor
  · exact fun h => h.2
  · exact fun h => ⟨ht.lt_count (h.1 ▸ hn), h⟩

omit hn

section Made

variable (h : d.find n = none)

include h

theorem Trimmed.name_serve (j : ℕ) : (d.serve pos n v).name j =
    if j < pos then d.name j else if j = pos then n else d.name (j - 1) := by
  simp only [serve, h]
  by_cases hend : d.count ≤ pos
  · rw [if_pos hend]
    rcases lt_trichotomy j pos with hlt | rfl | hgt
    · rw [if_pos hlt, name_put_of_ne _ _ _ hlt.ne]
    · rw [if_neg (Nat.lt_irrefl j), if_pos rfl, name_put_at]
    · rw [if_neg (Nat.lt_asymm hgt), if_neg hgt.ne', name_put_of_ne _ _ _ hgt.ne', ht j (by omega),
        ht (j - 1) (by omega)]
  · rw [if_neg hend]
    rfl

theorem Trimmed.name_serve_before (hj : j < pos) : (d.serve pos n v).name j = d.name j := by
  rw [ht.name_serve h, if_pos hj]

theorem Trimmed.name_serve_at : (d.serve pos n v).name pos = n := by
  rw [ht.name_serve h, if_neg (Nat.lt_irrefl pos), if_pos rfl]

theorem Trimmed.name_serve_behind (hj : pos < j) : (d.serve pos n v).name j = d.name (j - 1) := by
  rw [ht.name_serve h, if_neg (Nat.lt_asymm hj), if_neg hj.ne']

theorem Trimmed.exists_serve :
    (∃ j, (d.serve pos n v).name j = m) ↔ (∃ j, d.name j = m) ∨ n = m := by
  constructor
  · rintro ⟨j, hsame⟩
    rcases lt_trichotomy j pos with hlt | rfl | hgt
    · exact Or.inl ⟨j, (ht.name_serve_before h hlt).symm.trans hsame⟩
    · exact Or.inr ((ht.name_serve_at h).symm.trans hsame)
    · exact Or.inl ⟨j - 1, (ht.name_serve_behind h hgt).symm.trans hsame⟩
  · rintro (⟨j, hsame⟩ | hsame)
    · rcases Nat.lt_or_ge j pos with hlt | hge
      · exact ⟨j, (ht.name_serve_before h hlt).trans hsame⟩
      · exact ⟨j + 1, (ht.name_serve_behind h (Nat.lt_succ_of_le hge)).trans hsame⟩
    · exact ⟨pos, (ht.name_serve_at h).trans hsame⟩

theorem Trimmed.exists_le_serve (hm : n ≠ m) :
    (∃ j ≤ pos, (d.serve pos n v).name j = m) ↔ ∃ j < pos, d.name j = m := by
  constructor
  · rintro ⟨j, hj, hsame⟩
    rcases Nat.lt_or_eq_of_le hj with hlt | rfl
    · exact ⟨j, hlt, (ht.name_serve_before h hlt).symm.trans hsame⟩
    · exact absurd ((ht.name_serve_at h).symm.trans hsame) hm
  · rintro ⟨j, hj, hsame⟩
    exact ⟨j, hj.le, (ht.name_serve_before h hj).trans hsame⟩

omit ht in
theorem value_serve_before (hj : j < pos) : (d.serve pos n v).value j = d.value j := by
  simp only [serve, h]
  split
  · exact value_put_of_ne d n v hj.ne
  · exact value_insert_before d n v hj

theorem Trimmed.value_serve_behind (hj : pos < j) (hname : d.name (j - 1) ≠ blank) :
    (d.serve pos n v).value j = d.value (j - 1) := by
  have hend : ¬ d.count ≤ pos := fun hle => hname (ht (j - 1) (by omega))
  simp only [serve, h, if_neg hend]
  exact value_insert_behind d n v hj

theorem Trimmed.serve_made : (d.serve pos n v).Trimmed blank := by
  simp only [serve, h]
  intro j hj
  split at hj
  · have hj' : pos + 1 ≤ j := (Nat.le_max_right ..).trans hj
    rw [if_pos ‹_›, name_put_of_ne _ _ _ (by omega)]
    exact ht j (by omega)
  · have hj' : d.count + 1 ≤ j := hj
    rw [if_neg ‹_›, name_insert_behind _ _ _ (by omega)]
    exact ht (j - 1) (by omega)

end Made

theorem Trimmed.serve : (d.serve pos n v).Trimmed blank := by
  cases h : d.find n with
  | some i =>
    rw [serve_found h]
    exact ht.put_found h
  | none => exact ht.serve_made h

end Trimmed

theorem found_serve_same (ht : d.Trimmed blank) (hn : n ≠ blank) :
    (d.serve pos n v).found n = some v := by
  cases h : d.find n with
  | some i =>
    rw [serve_found h, found_of_find ((find_put_found h v n).trans h), value_put_at]
  | none =>
    have hfront : ∀ j < pos, d.name j ≠ n := fun j _ => (ht.find_eq_none hn).mp h j
    have hfind : (d.serve pos n v).find n = some pos := by
      rw [ht.serve.find_eq_some hn]
      constructor
      · exact ht.name_serve_at h
      · intro j hj
        rw [ht.name_serve_before h hj]
        exact hfront j hj
    rw [found_of_find hfind]
    simp only [serve, h]
    split
    · rw [value_put_at]
    · rw [value_insert_at]

theorem found_serve_of_ne (hm : m ≠ n) {b : β} (hfound : d.found m = some b) :
    (d.serve pos n v).found m = some b := by
  cases h : d.find n with
  | some i =>
    rw [serve_found h]
    cases hj : d.find m with
    | none => simp [found, hj] at hfound
    | some j =>
      rw [found_of_find ((find_put_found h v m).trans hj), ← hfound, found_of_find hj]
      refine congrArg some (value_put_of_ne d n v ?_)
      rintro rfl
      exact hm ((find_eq_some.mp hj).2.1.symm.trans (find_eq_some.mp h).2.1)
  | none =>
    simp only [serve, h]
    split
    · exact found_put_new_of_some n ‹_› v hfound
    · rw [found_insert_of_ne n v (by omega) hm, hfound]

/-- A second service writes the same again. -/
theorem serve_serve (ht : d.Trimmed blank) (hn : n ≠ blank) :
    (d.serve pos n v).serve pos n v = d.serve pos n v := by
  obtain ⟨i, hfind⟩ : ∃ i, (d.serve pos n v).find n = some i := by
    refine Option.ne_none_iff_exists'.mp fun hnone => ?_
    have hfound := @found_serve_same _ _ _ d blank n v pos ht hn
    rw [found, hnone] at hfound
    cases hfound
  have hvalue : (d.serve pos n v).value i = v := by
    have hfound := @found_serve_same _ _ _ d blank n v pos ht hn
    rw [found_of_find hfind] at hfound
    exact Option.some.inj hfound
  rw [serve_found hfind]
  apply ext_slots
  · exact name_put_found hfind v
  · intro j
    by_cases hj : j = i
    · rw [hj, value_put_at, hvalue]
    · rw [value_put_of_ne _ _ _ hj]
  · exact Nat.max_eq_left (find_eq_some.mp hfind).1

/-! ## Requests in order -/

section Requests

variable (d : Directory ν β) (want : ℕ → Option (ν × β))

/-- A name that the directory does not have and no earlier request asks for. -/
def IsNew (q : ℕ) : Prop :=
  ((want q).any fun r => d.find r.1 = none ∧ ∀ p < q, (want p).map Prod.fst ≠ some r.1) = true

instance : DecidablePred (d.IsNew want) := fun _ => inferInstanceAs (Decidable (_ = true))

/-- The slot that stands in the place of a request when its turn comes: one is put in for every new
name before. -/
def slotOf (q : ℕ) : ℕ := q + 1 - Nat.count (d.IsNew want) q

/-- In the place of the request stands a slot with its name that is not the first one. -/
def Second (q : ℕ) (n : ν) : Prop :=
  d.name (d.slotOf want q) = n ∧ d.find n ≠ some (d.slotOf want q)

instance (q : ℕ) (n : ν) : Decidable (d.Second want q n) := inferInstanceAs (Decidable (_ ∧ _))

/-- Second slots hold the value already, and requests that share the first slot want one value. -/
structure Compatible (m : ℕ) : Prop where
  second : ∀ q < m, ∀ r ∈ want q, d.Second want q r.1 → d.value (d.slotOf want q) = r.2
  shared : ∀ q < m, ∀ r ∈ want q, ∀ p < m, ∀ r' ∈ want p, r.1 = r'.1 →
    ¬ d.Second want q r.1 → ¬ d.Second want p r'.1 → r.2 = r'.2

end Requests

variable {want : ℕ → Option (ν × β)} {q : ℕ}

theorem isNew_iff {r : ν × β} (hr : want q = some r) :
    d.IsNew want q ↔ d.find r.1 = none ∧ ∀ p < q, ∀ r' ∈ want p, r'.1 ≠ r.1 := by
  simp only [IsNew, hr, Option.any_some, decide_eq_true_eq]
  refine and_congr_right fun _ => forall₂_congr fun p _ => ?_
  cases want p <;> simp

theorem not_isNew_of_none (hr : want q = none) : ¬ d.IsNew want q := by
  simp [IsNew, hr]

theorem slotOf_le (d : Directory ν β) (want : ℕ → Option (ν × β)) (q : ℕ) :
    Nat.count (d.IsNew want) q ≤ q :=
  Nat.count_le _

/-- What the directory before the turn of request q has of the one before the first. -/
structure Follows (blank : ν) (want : ℕ → Option (ν × β)) (d : Directory ν β) (q : ℕ)
    (e : Directory ν β) : Prop where
  trimmed : e.Trimmed blank
  behind : ∀ j, q < j → e.name j = d.name (j - Nat.count (d.IsNew want) q)
  before : ∀ n ≠ blank, (∃ j, d.name j = n) →
    ((∃ j ≤ q, e.name j = n) ↔ ∃ j, j + Nat.count (d.IsNew want) q ≤ q ∧ d.name j = n)
  present : ∀ n ≠ blank,
    (∃ j, e.name j = n) ↔ (∃ j, d.name j = n) ∨ ∃ p < q, ∃ r ∈ want p, r.1 = n
  values : ∀ j, q < j → e.name j ≠ blank → (∃ i < j, e.name i = e.name j) →
    e.value j = d.value (j - Nat.count (d.IsNew want) q)

theorem follows_zero (ht : d.Trimmed blank) : Follows blank want d 0 d where
  trimmed := ht
  behind _ _ := by rw [Nat.count_zero, Nat.sub_zero]
  before n _ _ := by simp
  present n _ := by simp
  values _ _ _ _ := by rw [Nat.count_zero, Nat.sub_zero]

section Step

variable {e e' : Directory ν β} (h : Follows blank want d q e)

include h

theorem Follows.isNew_iff {r : ν × β} (ht : d.Trimmed blank) (hr : want q = some r)
    (hblank : r.1 ≠ blank) : d.IsNew want q ↔ e.find r.1 = none := by
  rw [Directory.isNew_iff hr, h.trimmed.find_eq_none hblank, ht.find_eq_none hblank]
  have hpresent := h.present r.1 hblank
  constructor
  · rintro ⟨hnone, hearlier⟩ j hj
    rcases hpresent.mp ⟨j, hj⟩ with ⟨i, hi⟩ | ⟨p, hp, r', hr', hsame⟩
    · exact hnone i hi
    · exact hearlier p hp r' hr' hsame
  · intro hnone
    have habsent : ¬ ∃ j, e.name j = r.1 := fun ⟨j, hj⟩ => hnone j hj
    rw [hpresent, not_or] at habsent
    exact ⟨fun i hi => habsent.1 ⟨i, hi⟩, fun p hp r' hr' hsame => habsent.2 ⟨p, hp, r', hr', hsame⟩⟩

/-- A turn that makes no slot. -/
theorem Follows.same (hnew : ¬ d.IsNew want q) (hnames : ∀ j, e'.name j = e.name j)
    (htrim : e'.Trimmed blank) (hasked : ∀ r ∈ want q, ∃ j, e.name j = r.1)
    (hvalues : ∀ j, (∃ i < j, e.name i = e.name j) → e'.value j = e.value j) :
    Follows blank want d (q + 1) e' := by
  have hcount : Nat.count (d.IsNew want) (q + 1) = Nat.count (d.IsNew want) q := by
    rw [Nat.count_succ, if_neg hnew, Nat.add_zero]
  have hle := slotOf_le d want q
  refine ⟨htrim, fun j hj => ?_, fun n hn hhas => ?_, fun n hn => ?_, fun j hj hname hfirst => ?_⟩
  · rw [hnames, hcount]
    exact h.behind j (by omega)
  · have hbefore := h.before n hn hhas
    have hplace := h.behind (q + 1) (Nat.lt_succ_self q)
    simp only [hnames, hcount]
    constructor
    · rintro ⟨j, hj, hname⟩
      rcases Nat.le_or_eq_of_le_succ hj with hj | rfl
      · obtain ⟨i, hi, hsame⟩ := hbefore.mp ⟨j, hj, hname⟩
        exact ⟨i, by omega, hsame⟩
      · exact ⟨_, by omega, hplace.symm.trans hname⟩
    · rintro ⟨i, hi, hname⟩
      rcases Nat.lt_or_ge q (i + Nat.count (d.IsNew want) q) with hlt | hge
      · have heq : i = q + 1 - Nat.count (d.IsNew want) q := by omega
        exact ⟨q + 1, le_rfl, hplace.trans (heq ▸ hname)⟩
      · obtain ⟨j, hj, hsame⟩ := hbefore.mpr ⟨i, hge, hname⟩
        exact ⟨j, by omega, hsame⟩
  · simp only [hnames, h.present n hn]
    constructor
    · rintro (hhas | ⟨p, hp, hr⟩)
      · exact Or.inl hhas
      · exact Or.inr ⟨p, by omega, hr⟩
    · rintro (hhas | ⟨p, hp, r, hr, hsame⟩)
      · exact Or.inl hhas
      · rcases Nat.lt_succ_iff_lt_or_eq.mp hp with hp | rfl
        · exact Or.inr ⟨p, hp, r, hr, hsame⟩
        · obtain ⟨j, hj⟩ := hasked r hr
          exact (h.present n hn).mp ⟨j, hj.trans hsame⟩
  · simp only [hnames] at hname hfirst
    rw [hvalues j hfirst, hcount]
    exact h.values j (by omega) hname hfirst

/-- A turn that makes a slot. -/
theorem Follows.made {r : ν × β} (ht : d.Trimmed blank) (hr : want q = some r) (hblank : r.1 ≠ blank)
    (hnone : e.find r.1 = none) : Follows blank want d (q + 1) (e.serve (q + 1) r.1 r.2) := by
  have hnew : d.IsNew want q := (h.isNew_iff ht hr hblank).mpr hnone
  have hcount : Nat.count (d.IsNew want) (q + 1) = Nat.count (d.IsNew want) q + 1 := by
    rw [Nat.count_succ, if_pos hnew]
  have habsent : ∀ j, e.name j ≠ r.1 := (h.trimmed.find_eq_none hblank).mp hnone
  have htrim := h.trimmed
  refine ⟨htrim.serve, fun j hj => ?_, fun n hn hhas => ?_, fun n hn => ?_,
    fun j hj hne hfirst => ?_⟩
  · rw [htrim.name_serve_behind hnone hj, h.behind (j - 1) (by omega), hcount]
    congr 1
    omega
  · have hother : r.1 ≠ n := by
      rintro rfl
      obtain ⟨j, hj⟩ := (h.present r.1 hblank).mpr (Or.inl hhas)
      exact habsent j hj
    simp only [htrim.exists_le_serve hnone hother, Nat.lt_succ_iff]
    rw [h.before n hn hhas, hcount]
    refine exists_congr fun j => and_congr_left fun _ => ?_
    omega
  · rw [htrim.exists_serve hnone, h.present n hn]
    constructor
    · rintro ((hhas | ⟨p, hp, hasked⟩) | hsame)
      · exact Or.inl hhas
      · exact Or.inr ⟨p, by omega, hasked⟩
      · exact Or.inr ⟨q, Nat.lt_succ_self q, r, hr, hsame⟩
    · rintro (hhas | ⟨p, hp, r', hr', hsame⟩)
      · exact Or.inl (Or.inl hhas)
      · rcases Nat.lt_succ_iff_lt_or_eq.mp hp with hp | rfl
        · exact Or.inl (Or.inr ⟨p, hp, r', hr', hsame⟩)
        · rw [hr] at hr'
          cases hr'
          exact Or.inr hsame
  · rw [htrim.name_serve_behind hnone hj] at hne hfirst
    rw [htrim.value_serve_behind hnone hj hne, hcount]
    obtain ⟨i, hi, hsame⟩ := hfirst
    have hearlier : ∃ i < j - 1, e.name i = e.name (j - 1) := by
      rcases lt_trichotomy i (q + 1) with hlt | rfl | hgt
      · exact ⟨i, by omega, (htrim.name_serve_before hnone hlt).symm.trans hsame⟩
      · exact absurd ((htrim.name_serve_at hnone).symm.trans hsame).symm (habsent (j - 1))
      · exact ⟨i - 1, by omega, (htrim.name_serve_behind hnone hgt).symm.trans hsame⟩
    rw [h.values (j - 1) (by omega) hne hearlier]
    congr 1
    omega

end Step

/-! ## What the lookups show -/

variable [DecidableEq β]

def attend (d : Directory ν β) (pos : ℕ) (n : ν) (v : β) : Directory ν β :=
  if d.lookup n pos = some v then d else d.serve pos n v

/-- Before the turn of a request. -/
def attended (d : Directory ν β) (want : ℕ → Option (ν × β)) : ℕ → Directory ν β
  | 0 => d
  | q + 1 =>
    match want q with
    | none => attended d want q
    | some r => (attended d want q).attend (q + 1) r.1 r.2

theorem attended_succ_cases (d : Directory ν β) (want : ℕ → Option (ν × β)) (q : ℕ) :
    (d.attended want (q + 1) = d.attended want q ∧
        ∀ r ∈ want q, (d.attended want q).lookup r.1 (q + 1) = some r.2) ∨
      ∃ r, want q = some r ∧ (d.attended want q).lookup r.1 (q + 1) ≠ some r.2 ∧
        d.attended want (q + 1) = (d.attended want q).serve (q + 1) r.1 r.2 := by
  cases hr : want q with
  | none => exact Or.inl ⟨by simp only [attended, hr], by simp⟩
  | some r =>
    simp only [attended, hr, attend]
    by_cases hlookup : (d.attended want q).lookup r.1 (q + 1) = some r.2
    · rw [if_pos hlookup]
      refine Or.inl ⟨rfl, fun r' hr' => ?_⟩
      cases hr'
      exact hlookup
    · rw [if_neg hlookup]
      exact Or.inr ⟨r, rfl, hlookup, rfl⟩

omit [DecidableEq β] in
theorem name_of_lookup {b : β} (h : d.lookup n pos = some b) : ∃ j, d.name j = n := by
  by_cases hname : d.name pos = n
  · exact ⟨pos, hname⟩
  · rw [lookup_of_ne hname] at h
    cases hfind : d.find n with
    | none => simp [found, hfind] at h
    | some i => exact ⟨i, (find_eq_some.mp hfind).2.1⟩

omit [DecidableEq β] in
/-- An overwrite spares the slots that are not the first with their name. -/
theorem value_put_second (h : d.find n = some i) (hj : ∃ k < j, d.name k = d.name j) :
    (d.put i n v).value j = d.value j := by
  apply value_put_of_ne
  rintro rfl
  obtain ⟨k, hk, hsame⟩ := hj
  have hfirst := find_eq_some.mp h
  exact hfirst.2.2 k hk (hsame.trans hfirst.2.1)

section Attended

variable (ht : d.Trimmed blank) (hblank : ∀ q, ∀ r ∈ want q, r.1 ≠ blank)

include ht hblank

theorem follows_attended (q : ℕ) : Follows blank want d q (d.attended want q) := by
  induction q with
  | zero => exact follows_zero ht
  | succ q ih =>
    rcases attended_succ_cases d want q with ⟨heq, hlookup⟩ | ⟨r, hr, -, heq⟩
    · have hasked : ∀ r ∈ want q, ∃ j, (d.attended want q).name j = r.1 :=
        fun r hr => name_of_lookup (hlookup r hr)
      rw [heq]
      refine ih.same ?_ (fun _ => rfl) ih.trimmed hasked fun _ _ => rfl
      cases hr : want q with
      | none => exact not_isNew_of_none hr
      | some r =>
        rw [ih.isNew_iff ht hr (hblank q r hr), ih.trimmed.find_eq_none (hblank q r hr)]
        obtain ⟨j, hj⟩ := hasked r hr
        exact fun hnone => hnone j hj
    · rw [heq]
      cases hfind : (d.attended want q).find r.1 with
      | none => exact ih.made ht hr (hblank q r hr) hfind
      | some i =>
        rw [serve_found hfind]
        refine ih.same ?_ (name_put_found hfind r.2) (ih.trimmed.put_found hfind) ?_
          fun j hj => value_put_second hfind hj
        · rw [ih.isNew_iff ht hr (hblank q r hr), hfind]
          simp
        · intro r' hr'
          rw [hr] at hr'
          cases hr'
          exact ⟨i, (find_eq_some.mp hfind).2.1⟩

/-- A turn leaves the names up to its place alone, and there the values of second slots. -/
theorem attended_succ_before (hj : j ≤ q) :
    (d.attended want (q + 1)).name j = (d.attended want q).name j ∧
      ((∃ k < j, (d.attended want q).name k = (d.attended want q).name j) →
        (d.attended want (q + 1)).value j = (d.attended want q).value j) := by
  have htrim := (follows_attended ht hblank q).trimmed
  rcases attended_succ_cases d want q with ⟨heq, _⟩ | ⟨r, hr, -, heq⟩
  · rw [heq]
    exact ⟨rfl, fun _ => rfl⟩
  · rw [heq]
    cases hfind : (d.attended want q).find r.1 with
    | none =>
      constructor
      · exact htrim.name_serve_before hfind (Nat.lt_succ_of_le hj)
      · exact fun _ => value_serve_before hfind (Nat.lt_succ_of_le hj)
    | some i =>
      rw [serve_found hfind]
      exact ⟨name_put_found hfind r.2 j, value_put_second hfind⟩

theorem name_attended_before {p : ℕ} (hj : j ≤ q) (hp : q ≤ p) :
    (d.attended want p).name j = (d.attended want q).name j := by
  induction p, hp using Nat.le_induction with
  | base => rfl
  | succ p hp ih => exact (attended_succ_before ht hblank (hj.trans hp)).1.trans ih

theorem value_attended_before {p : ℕ} (hj : j ≤ q) (hp : q ≤ p)
    (hfirst : ∃ k < j, (d.attended want q).name k = (d.attended want q).name j) :
    (d.attended want p).value j = (d.attended want q).value j := by
  induction p, hp using Nat.le_induction with
  | base => rfl
  | succ p hp ih =>
    rw [(attended_succ_before ht hblank (hj.trans hp)).2 ?_, ih]
    obtain ⟨k, hk, hsame⟩ := hfirst
    refine ⟨k, hk, ?_⟩
    rw [name_attended_before ht hblank (hk.le.trans hj) hp, name_attended_before ht hblank hj hp]
    exact hsame

section Own

variable {r : ν × β} (hr : want q = some r)

include hr

/-- A second slot is one still when the turn comes. -/
theorem second_iff :
    (d.attended want q).name (q + 1) = r.1 ∧ (∃ j ≤ q, (d.attended want q).name j = r.1) ↔
      d.Second want q r.1 := by
  have h := follows_attended ht hblank q
  have hn := hblank q r hr
  have hle := slotOf_le d want q
  rw [Second, h.behind (q + 1) (Nat.lt_succ_self q)]
  refine and_congr_right fun hname => ?_
  rw [h.before r.1 hn ⟨_, hname⟩, Ne, ht.find_eq_some hn]
  constructor
  · rintro ⟨j, hj, hsame⟩ ⟨_, hfirst⟩
    refine hfirst j ?_ hsame
    rw [slotOf]
    omega
  · intro hfirst
    by_contra hnone
    refine hfirst ⟨hname, fun j hj hsame => hnone ⟨j, ?_, hsame⟩⟩
    rw [slotOf] at hj
    omega

theorem second_slot (hs : d.Second want q r.1) :
    (∃ k < q + 1, (d.attended want q).name k = (d.attended want q).name (q + 1)) ∧
      (d.attended want q).value (q + 1) = d.value (d.slotOf want q) := by
  obtain ⟨hname, j, hj, hsame⟩ := (second_iff ht hblank hr).mpr hs
  have hfirst : ∃ k < q + 1, (d.attended want q).name k = (d.attended want q).name (q + 1) :=
    ⟨j, Nat.lt_succ_of_le hj, hsame.trans hname.symm⟩
  exact ⟨hfirst, (follows_attended ht hblank q).values (q + 1) (Nat.lt_succ_self q)
    (hname ▸ hblank q r hr) hfirst⟩

/-- The slot in the request's place behind its turn. -/
theorem own_slot :
    ((d.attended want (q + 1)).name (q + 1) = r.1 ∧
        (∃ j ≤ q, (d.attended want (q + 1)).name j = r.1) ↔ d.Second want q r.1) ∧
      (d.Second want q r.1 →
        (d.attended want (q + 1)).value (q + 1) = d.value (d.slotOf want q)) := by
  have h := follows_attended ht hblank q
  have hn := hblank q r hr
  have hsecond := second_iff ht hblank hr
  have hvalue := second_slot ht hblank hr
  rcases attended_succ_cases d want q with ⟨heq, _⟩ | ⟨r', hr', -, heq⟩
  · rw [heq]
    exact ⟨hsecond, fun hs => (hvalue hs).2⟩
  · obtain rfl : r = r' := Option.some.inj (hr.symm.trans hr')
    rw [heq]
    cases hfind : (d.attended want q).find r.1 with
    | some i =>
      rw [serve_found hfind]
      simp only [name_put_found hfind]
      refine ⟨hsecond, fun hs => ?_⟩
      rw [value_put_second hfind (hvalue hs).1, (hvalue hs).2]
    | none =>
      have habsent := (h.trimmed.find_eq_none hn).mp hfind
      have hnot : ¬ d.Second want q r.1 := fun hs => habsent _ (hsecond.mpr hs).1
      refine ⟨iff_of_false ?_ hnot, fun hs => absurd hs hnot⟩
      rintro ⟨_, j, hj, hsame⟩
      rw [h.trimmed.name_serve_before hfind (Nat.lt_succ_of_le hj)] at hsame
      exact habsent j hsame

/-- From its turn on a request reads a second slot, or what a search finds. -/
theorem lookup_attended (hm : q < i) :
    (d.Second want q r.1 →
        (d.attended want i).lookup r.1 (q + 1) = some (d.value (d.slotOf want q))) ∧
      (¬ d.Second want q r.1 →
        (d.attended want i).lookup r.1 (q + 1) = (d.attended want i).found r.1) := by
  have hn := hblank q r hr
  obtain ⟨hslot, hvalue⟩ := own_slot ht hblank hr
  have hnames : ∀ j ≤ q + 1, (d.attended want i).name j = (d.attended want (q + 1)).name j :=
    fun j hj => name_attended_before ht hblank hj hm
  constructor
  · intro hs
    obtain ⟨hname, j, hj, hsame⟩ := hslot.mpr hs
    rw [lookup_of_name ((hnames _ le_rfl).trans hname),
      value_attended_before ht hblank le_rfl hm
        ⟨j, Nat.lt_succ_of_le hj, hsame.trans hname.symm⟩, hvalue hs]
  · intro hs
    by_cases hname : (d.attended want i).name (q + 1) = r.1
    · have hfind : (d.attended want i).find r.1 = some (q + 1) := by
        rw [(follows_attended ht hblank i).trimmed.find_eq_some hn]
        refine ⟨hname, fun j hj hsame => hs (hslot.mp ⟨?_, j, Nat.le_of_lt_succ hj, ?_⟩)⟩
        · exact (hnames _ le_rfl).symm.trans hname
        · exact (hnames j hj.le).symm.trans hsame
      rw [lookup_of_name hname, found_of_find hfind]
    · exact lookup_of_ne hname

end Own

/-- Where the requests are compatible, a search finds what those without a second slot want. -/
theorem found_attended {p : ℕ} (h : d.Compatible want p) : ∀ q < p, ∀ r ∈ want q,
    ¬ d.Second want q r.1 → (d.attended want p).found r.1 = some r.2 := by
  induction p with
  | zero => exact fun q hq => absurd hq (Nat.not_lt_zero q)
  | succ p ih =>
    have hbefore : d.Compatible want p :=
      ⟨fun q hq => h.second q (Nat.lt_succ_of_lt hq),
        fun q hq r hr p' hp' => h.shared q (Nat.lt_succ_of_lt hq) r hr p' (Nat.lt_succ_of_lt hp')⟩
    have hfollows := follows_attended ht hblank p
    intro q hq r hr hs
    have hn := hblank q r hr
    rcases attended_succ_cases d want p with ⟨heq, hlookup⟩ | ⟨r', hr', hunread, heq⟩
    · rcases Nat.lt_succ_iff_lt_or_eq.mp hq with hq | rfl
      · rw [heq]
        exact ih hbefore q hq r hr hs
      · rw [← (lookup_attended ht hblank hr (Nat.lt_succ_self q)).2 hs, heq]
        exact hlookup r hr
    · rw [heq]
      by_cases hsame : r.1 = r'.1
      · have hp : ¬ d.Second want p r'.1 := by
          intro hsecond
          have hname := ((second_iff ht hblank hr').mpr hsecond).1
          have hvalue := (second_slot ht hblank hr' hsecond).2
          rw [lookup_of_name hname, hvalue, h.second p (Nat.lt_succ_self p) r' hr' hsecond] at hunread
          exact hunread rfl
        have hvalue := h.shared q hq r hr p (Nat.lt_succ_self p) r' hr' hsame hs hp
        rw [hsame, hvalue]
        exact found_serve_same hfollows.trimmed (hsame ▸ hn)
      · rcases Nat.lt_succ_iff_lt_or_eq.mp hq with hq | rfl
        · exact found_serve_of_ne hsame (ih hbefore q hq r hr hs)
        · exact absurd (congrArg Prod.fst (Option.some.inj (hr.symm.trans hr'))) hsame

/-- Just compatible requests all find their values in the end. -/
theorem attended_iff (p : ℕ) :
    (∀ q < p, ∀ r ∈ want q, (d.attended want p).lookup r.1 (q + 1) = some r.2) ↔
      d.Compatible want p := by
  constructor
  · intro h
    refine ⟨fun q hq r hr hs => ?_, fun q hq r hr p' hp' r' hr' hsame hs hs' => ?_⟩
    · have hread := h q hq r hr
      rw [(lookup_attended ht hblank hr hq).1 hs] at hread
      exact Option.some.inj hread
    · have hread := h q hq r hr
      have hread' := h p' hp' r' hr'
      rw [(lookup_attended ht hblank hr hq).2 hs] at hread
      rw [(lookup_attended ht hblank hr' hp').2 hs', ← hsame, hread] at hread'
      exact Option.some.inj hread'
  · intro h q hq r hr
    by_cases hs : d.Second want q r.1
    · rw [(lookup_attended ht hblank hr hq).1 hs, h.second q hq r hr hs]
    · rw [(lookup_attended ht hblank hr hq).2 hs]
      exact found_attended ht hblank h q hq r hr hs

end Attended

end Directory

end SlotDirectory
