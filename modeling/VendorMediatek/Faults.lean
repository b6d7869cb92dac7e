import Mathlib.Data.Int.Notation
import Mathlib.Data.List.Basic

/-!
# Programs that stop at a fault

A program gives a result, or stops where it would read outside an array, go through a null pointer
or set a list to a negative size.
-/

namespace Faults

universe u v

inductive Fault where
  | outside | null | negativeSize
  deriving DecidableEq, Repr

abbrev Checked (α : Type u) := Except Fault α

/-- The program comes to its end. -/
def Ok {α : Type u} (m : Checked α) : Prop := ∃ a, m = .ok a

section Rules

variable {α β : Type u} {m : Checked α} {f : α → Checked β}

@[simp] theorem ok_pure (a : α) : Ok (pure a : Checked α) := ⟨a, rfl⟩

@[simp] theorem ok_ok (a : α) : Ok (.ok a : Checked α) := ⟨a, rfl⟩

@[simp] theorem not_ok_error (e : Fault) : ¬ Ok (.error e : Checked α) := nofun

theorem ok_bind : Ok (m >>= f) ↔ ∃ a, m = .ok a ∧ Ok (f a) := by
  cases m with
  | error e => exact iff_of_false nofun (fun ⟨_, h, _⟩ => nomatch h)
  | ok a => exact ⟨fun h => ⟨a, rfl, h⟩, fun ⟨_, h, hf⟩ => by cases h; exact hf⟩

theorem bind_eq_ok {b : β} : m >>= f = .ok b ↔ ∃ a, m = .ok a ∧ f a = .ok b := by
  cases m with
  | error e => exact iff_of_false nofun (fun ⟨_, h, _⟩ => nomatch h)
  | ok a => exact ⟨fun h => ⟨a, rfl, h⟩, fun ⟨_, h, hf⟩ => by cases h; exact hf⟩

/-- What comes after a part that comes to its end with a known result. -/
theorem bind_of_ok {a : α} (h : m = .ok a) : m >>= f = f a := by rw [h]; rfl

theorem return_eq_ok_iff {g : α → β} (hg : Function.Injective g) {a : α} :
    (do return g (← m)) = .ok (g a) ↔ m = .ok a := by
  cases m with
  | error e => exact iff_of_false nofun nofun
  | ok b =>
    exact ⟨fun h => congrArg Except.ok (hg (Except.ok.inj h)), fun h => Except.ok.inj h ▸ rfl⟩

theorem ok_bind_iff {p : Prop} (h : ∀ a, Ok (f a) ↔ p) : Ok (m >>= f) ↔ Ok m ∧ p := by
  rw [ok_bind]
  constructor
  · rintro ⟨a, ha, hf⟩
    exact ⟨⟨a, ha⟩, (h a).mp hf⟩
  · rintro ⟨⟨a, ha⟩, hp⟩
    exact ⟨a, ha, (h a).mpr hp⟩

theorem ok_seq (hm : Ok m) (hf : ∀ a, Ok (f a)) : Ok (m >>= f) := by
  obtain ⟨a, ha⟩ := hm
  exact ok_bind.mpr ⟨a, ha, hf a⟩

theorem ok_bind_of (h : ∀ a, Ok (f a)) : Ok (m >>= f) ↔ Ok m := by
  rw [ok_bind_iff (p := True) fun a => iff_true_intro (h a), and_true]

theorem ok_unless {c : Bool} {a : α} {p : Prop} (h : Ok m ↔ p) :
    Ok (if c = false then pure a else m) ↔ (c = true → p) := by
  cases c with
  | false => exact iff_of_true (ok_pure a) nofun
  | true => exact h.trans ⟨fun hp _ => hp, fun hp => hp rfl⟩

end Rules

/-! ## Lists and pointers -/

section Data

variable {α : Type u}

def read (list : List α) (i : ℕ) : Checked α :=
  match list[i]? with
  | some a => .ok a
  | none => .error .outside

def put (list : List α) (i : ℕ) (a : α) : Checked (List α) :=
  if i < list.length then .ok (list.set i a) else .error .outside

def deref : Option α → Checked α
  | some a => .ok a
  | none => .error .null

/-- A new list of default elements. -/
def resize (size : ℤ) (a : α) : Checked (List α) :=
  if 0 ≤ size then .ok (List.replicate size.toNat a) else .error .negativeSize

theorem read_eq_ok {list : List α} {i : ℕ} {a : α} : read list i = .ok a ↔ list[i]? = some a := by
  unfold read
  cases list[i]? with
  | none => simp
  | some b => simp

@[simp] theorem ok_read {list : List α} {i : ℕ} : Ok (read list i) ↔ i < list.length := by
  constructor
  · rintro ⟨a, h⟩
    exact (List.getElem?_eq_some_iff.mp (read_eq_ok.mp h)).1
  · intro h
    exact ⟨list[i], read_eq_ok.mpr (List.getElem?_eq_getElem h)⟩

@[simp] theorem ok_put {list : List α} {i : ℕ} {a : α} : Ok (put list i a) ↔ i < list.length := by
  unfold put
  split_ifs with h
  · exact iff_of_true (ok_ok _) h
  · exact iff_of_false (not_ok_error _) h

theorem put_length {list changed : List α} {i : ℕ} {a : α} (h : put list i a = .ok changed) :
    changed.length = list.length := by
  unfold put at h
  split_ifs at h
  cases h
  exact List.length_set

@[simp] theorem ok_deref {p : Option α} : Ok (deref p) ↔ p ≠ none := by
  cases p with
  | none => exact iff_of_false (not_ok_error _) (· rfl)
  | some a => exact iff_of_true (ok_ok a) nofun

@[simp] theorem ok_resize {size : ℤ} {a : α} : Ok (resize size a) ↔ 0 ≤ size := by
  unfold resize
  split_ifs with h
  · exact iff_of_true (ok_ok _) h
  · exact iff_of_false (not_ok_error _) h

theorem resize_length {size : ℤ} {a : α} {list : List α} (h : resize size a = .ok list) :
    list.length = size.toNat := by
  unfold resize at h
  split_ifs at h
  cases h
  exact List.length_replicate

end Data

/-! ## Loops -/

section Loops

variable {α β σ : Type u}

theorem ok_mapM {f : α → Checked β} {l : List α} (h : ∀ a ∈ l, Ok (f a)) : Ok (l.mapM f) := by
  induction l with
  | nil => exact ok_pure _
  | cons a l ih =>
    obtain ⟨ha, hl⟩ := List.forall_mem_cons.mp h
    rw [List.mapM_cons]
    exact ok_seq ha fun _ => ok_seq (ih hl) fun _ => ok_pure _

/-- for (i = 0; i < n; i++) -/
def loop (body : ℕ → σ → Checked σ) : ℕ → σ → Checked σ
  | 0, s => .ok s
  | n + 1, s => loop body n s >>= body n

theorem loop_keeps (inv : σ → Prop) {body : ℕ → σ → Checked σ} {n : ℕ} {s t : σ} (h0 : inv s)
    (hstep : ∀ i s t, i < n → inv s → body i s = .ok t → inv t) (h : loop body n s = .ok t) :
    inv t := by
  induction n generalizing t with
  | zero => exact Except.ok.inj h ▸ h0
  | succ n ih =>
    obtain ⟨u, hn, hbody⟩ := bind_eq_ok.mp h
    have hu := ih (fun i s t hi => hstep i s t (by omega)) hn
    exact hstep n u t (by omega) hu hbody

/-- A loop comes to its end when each turn does; under the invariant a turn needs only what is
known of its number. -/
theorem ok_loop_iff (inv : σ → Prop) (p : ℕ → Prop) {body : ℕ → σ → Checked σ} {n : ℕ} {s : σ}
    (h0 : inv s) (hok : ∀ i s, i < n → inv s → (Ok (body i s) ↔ p i))
    (hstep : ∀ i s t, i < n → inv s → body i s = .ok t → inv t) :
    Ok (loop body n s) ↔ ∀ i < n, p i := by
  induction n with
  | zero => exact iff_of_true (ok_ok s) nofun
  | succ n ih =>
    have ih := ih (fun i s hi => hok i s (by omega)) (fun i s t hi => hstep i s t (by omega))
    rw [loop, ok_bind]
    constructor
    · rintro ⟨t, ht, hbody⟩ i hi
      have hinv := loop_keeps inv h0 (fun i s t hi => hstep i s t (by omega)) ht
      rcases Nat.lt_succ_iff_lt_or_eq.mp hi with hlt | rfl
      · exact ih.mp ⟨t, ht⟩ i hlt
      · exact (hok i t hi hinv).mp hbody
    · intro h
      obtain ⟨t, ht⟩ := ih.mpr fun i hi => h i (by omega)
      have hinv := loop_keeps inv h0 (fun i s t hi => hstep i s t (by omega)) ht
      exact ⟨t, ht, (hok n t (by omega) hinv).mpr (h n (by omega))⟩

/-- One turn of a loop that fills a list from the entries of an array. -/
def fillTurn (entries : List α) (convert : α → Checked β) (i : ℕ) (s : List β) :
    Checked (List β) := do
  put s i (← convert (← read entries i))

theorem mapM_length {f : α → Checked β} {l : List α} {r : List β} (h : l.mapM f = .ok r) :
    r.length = l.length := by
  induction l generalizing r with
  | nil => cases h; rfl
  | cons a l ih =>
    rw [List.mapM_cons] at h
    obtain ⟨b, -, h⟩ := bind_eq_ok.mp h
    obtain ⟨bs, hbs, h⟩ := bind_eq_ok.mp h
    cases h
    exact congrArg (· + 1) (ih hbs)

theorem fillTurn_eq {entries : List α} {convert : α → Checked β} {r : List β} {m : ℕ} {b : β}
    (hr : r.length < entries.length) :
    fillTurn entries convert r.length (r ++ List.replicate (m + 1) b) =
      (do return r ++ (← convert entries[r.length]) :: List.replicate m b) := by
  have hread : read entries r.length = .ok entries[r.length] :=
    read_eq_ok.mpr (List.getElem?_eq_getElem hr)
  rw [fillTurn, bind_of_ok hread]
  cases convert entries[r.length] with
  | error e => rfl
  | ok c =>
    have hset : (r ++ List.replicate (m + 1) b).set r.length c = r ++ c :: List.replicate m b := by
      rw [List.set_append_right _ _ (Nat.le_refl _), Nat.sub_self, List.replicate_succ,
        List.set_cons_zero]
    have hlength : r.length < (r ++ List.replicate (m + 1) b).length := by simp
    rw [bind_of_ok rfl, bind_of_ok rfl, put, if_pos hlength, hset]
    rfl

theorem loop_fillTurn {entries : List α} {convert : α → Checked β} {n m : ℕ} {b : β}
    (hn : n ≤ entries.length) :
    loop (fillTurn entries convert) n (List.replicate (n + m) b) =
      (do return (← (entries.take n).mapM convert) ++ List.replicate m b) := by
  induction n generalizing m with
  | zero =>
    rw [Nat.zero_add, List.take_zero, List.mapM_nil]
    rfl
  | succ n ih =>
    have hlt : n < entries.length := hn
    have htake : entries.take (n + 1) = entries.take n ++ [entries[n]] := by
      rw [List.take_add_one, List.getElem?_eq_getElem hlt]
      rfl
    rw [loop, Nat.add_assoc, Nat.add_comm 1 m, ih (Nat.le_of_lt hlt), htake, List.mapM_append,
      List.mapM_cons, List.mapM_nil]
    cases hr : (entries.take n).mapM convert with
    | error e => rfl
    | ok r =>
      have hlength : r.length = n := (mapM_length hr).trans (List.length_take_of_le (by omega))
      subst hlength
      rw [bind_of_ok rfl, bind_of_ok rfl, pure_bind, fillTurn_eq hlt]
      cases convert entries[r.length] with
      | error e => rfl
      | ok c =>
        exact congrArg Except.ok (List.append_cons r c _)

/-- Filling a list of the right size is converting one entry after the other. -/
theorem loop_fill {entries : List α} {convert : α → Checked β} {n : ℕ} {b : β}
    (hn : n ≤ entries.length) :
    loop (fillTurn entries convert) n (List.replicate n b) = (entries.take n).mapM convert := by
  have h : loop (fillTurn entries convert) n (List.replicate (n + 0) b) =
      (do return (← (entries.take n).mapM convert) ++ List.replicate 0 b) := loop_fillTurn hn
  rw [Nat.add_zero] at h
  rw [h]
  cases (entries.take n).mapM convert with
  | error e => rfl
  | ok r => exact congrArg Except.ok (List.append_nil r)

theorem mapM_eq_ok_map {f : α → Checked β} {g : α → β} {l : List α} :
    l.mapM f = .ok (l.map g) ↔ ∀ a ∈ l, f a = .ok (g a) := by
  induction l with
  | nil => exact iff_of_true rfl nofun
  | cons a l ih =>
    rw [List.mapM_cons, List.forall_mem_cons, ← ih]
    constructor
    · intro h
      obtain ⟨b, hb, h⟩ := bind_eq_ok.mp h
      obtain ⟨bs, hbs, h⟩ := bind_eq_ok.mp h
      obtain ⟨rfl, rfl⟩ := List.cons.inj (Except.ok.inj h)
      exact ⟨hb, hbs⟩
    · rintro ⟨ha, hl⟩
      rw [bind_of_ok ha, bind_of_ok hl]
      rfl

/-- A vector is set to a size and filled from the entries of an array. -/
def fillVector (num : ℤ) (b : β) (entries : List α) (convert : α → Checked β) :
    Checked (List β) := do
  loop (fillTurn entries convert) num.toNat (← resize num b)

theorem fillVector_eq {num : ℤ} {b : β} {entries : List α} {convert : α → Checked β}
    (h0 : 0 ≤ num) (hn : num ≤ entries.length) :
    fillVector num b entries convert = (entries.take num.toNat).mapM convert := by
  have hresize : resize num b = .ok (List.replicate num.toNat b) := if_pos h0
  rw [fillVector, bind_of_ok hresize]
  exact loop_fill (by omega)

/-- The vector gets what is meant exactly when it has room for all entries and each one is
converted right. -/
theorem fillVector_eq_map_iff {num : ℤ} {b : β} {entries : List α} {convert : α → Checked β}
    {g : α → β} (hn : num ≤ entries.length) :
    fillVector num b entries convert = .ok (entries.map g) ↔
      num = entries.length ∧ ∀ a ∈ entries, convert a = .ok (g a) := by
  constructor
  · intro h
    obtain ⟨_, hresize, -⟩ := bind_eq_ok.mp h
    have h0 := ok_resize.mp ⟨_, hresize⟩
    rw [fillVector_eq h0 hn] at h
    have hlength := mapM_length h
    rw [List.length_map, List.length_take_of_le (by omega)] at hlength
    rw [List.take_of_length_le (by omega)] at h
    exact ⟨by omega, mapM_eq_ok_map.mp h⟩
  · rintro ⟨rfl, hconvert⟩
    rw [fillVector_eq (Int.natCast_nonneg _) (Int.le_refl _), Int.toNat_natCast, List.take_length]
    exact mapM_eq_ok_map.mpr hconvert

end Loops

end Faults
