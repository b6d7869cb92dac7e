import Mathlib.Data.List.Basic
import Mathlib.Tactic.Ring

/-!
# Erasing before writing

A history of a flash device lists its erased and written ranges, the latest first. A range is
clean if it has been erased since it was last written. A ring of blocks is written page by page at
positions that follow a counter, and each block is erased when the counter comes to its first page;
the counter counts up, or goes back to a multiple of the pages in a block.
-/

namespace FlashHistory

inductive Touch where
  | erase (start len : ℕ)
  | write (start len : ℕ)
  deriving DecidableEq, Repr

def Clean : List Touch → ℕ → ℕ → Prop
  | [], _, _ => False
  | .erase start n :: h, off, len => (start ≤ off ∧ off + len ≤ start + n) ∨ Clean h off len
  | .write start n :: h, off, len => (off + len ≤ start ∨ start + n ≤ off) ∧ Clean h off len

instance decidableClean : ∀ h off len, Decidable (Clean h off len)
  | [], _, _ => isFalse id
  | .erase start n :: h, off, len =>
    have := decidableClean h off len
    inferInstanceAs (Decidable ((start ≤ off ∧ off + len ≤ start + n) ∨ Clean h off len))
  | .write start n :: h, off, len =>
    have := decidableClean h off len
    inferInstanceAs (Decidable ((off + len ≤ start ∨ start + n ≤ off) ∧ Clean h off len))

/-- Every write that came on top of an old history went to a range that was clean then. -/
def WritesClean (old : List Touch) : List Touch → Prop
  | [] => True
  | .erase _ _ :: h => WritesClean old h
  | .write start n :: h => Clean (h ++ old) start n ∧ WritesClean old h

instance decidableWritesClean (old : List Touch) : ∀ h, Decidable (WritesClean old h)
  | [] => isTrue trivial
  | .erase _ _ :: h => decidableWritesClean old h
  | .write start n :: h =>
    have := decidableWritesClean old h
    inferInstanceAs (Decidable (Clean (h ++ old) start n ∧ WritesClean old h))

theorem clean_erased {h : List Touch} {start n off len : ℕ} (hlo : start ≤ off)
    (hhi : off + len ≤ start + n) : Clean (.erase start n :: h) off len := Or.inl ⟨hlo, hhi⟩

theorem Clean.erase {h : List Touch} {off len : ℕ} (hc : Clean h off len) (start n : ℕ) :
    Clean (.erase start n :: h) off len := Or.inr hc

theorem Clean.write {h : List Touch} {start n off len : ℕ} (hc : Clean h off len)
    (hapart : off + len ≤ start ∨ start + n ≤ off) : Clean (.write start n :: h) off len :=
  ⟨hapart, hc⟩

/-! ## Rings -/

/-- A ring of blocks from an offset on. -/
structure Ring where
  start : ℕ
  pageSize : ℕ
  pages : ℕ
  blocks : ℕ
  pages_pos : 0 < pages
  blocks_pos : 0 < blocks

namespace Ring

variable (r : Ring)

def blockSize : ℕ := r.pageSize * r.pages

/-- Where the page of a counter stands. -/
def offset (s : ℕ) : ℕ := r.start + r.pageSize * (s % (r.pages * r.blocks))

/-- The page j places from the first one in the block of a counter. -/
def pageOf (s j : ℕ) : ℕ := r.start + r.pageSize * (s % (r.pages * r.blocks) - s % r.pages + j)

/-- The pages that the block of a counter still has to take are clean. -/
def Open (h : List Touch) (s : ℕ) : Prop :=
  s % r.pages = 0 ∨ ∀ j, s % r.pages ≤ j → j < r.pages → Clean h (r.pageOf s j) r.pageSize

/-- The block of a counter is erased when the counter comes to its first page. -/
def prepared (h : List Touch) (s : ℕ) : List Touch :=
  if s % r.pages = 0 then .erase (r.offset s) r.blockSize :: h else h

theorem mod_pages (s : ℕ) : s % (r.pages * r.blocks) % r.pages = s % r.pages :=
  Nat.mod_mul_right_mod s r.pages r.blocks

theorem mod_pages_le (s : ℕ) : s % r.pages ≤ s % (r.pages * r.blocks) := by
  rw [← r.mod_pages s]
  exact Nat.mod_le ..

theorem pageOf_self (s : ℕ) : r.pageOf s (s % r.pages) = r.offset s := by
  rw [pageOf, offset, Nat.sub_add_cancel (r.mod_pages_le s)]

theorem block_within (s : ℕ) {j : ℕ} (hj : j < r.pages) :
    r.start ≤ r.pageOf s j ∧
      r.pageOf s j + r.pageSize ≤ r.start + r.blockSize * r.blocks := by
  have hlt : s % (r.pages * r.blocks) < r.pages * r.blocks :=
    Nat.mod_lt _ (Nat.mul_pos r.pages_pos r.blocks_pos)
  -- the block of the page is one of the ring's
  have hblock : s % (r.pages * r.blocks) - s % r.pages + r.pages ≤ r.pages * r.blocks := by
    have hdiv := Nat.div_add_mod (s % (r.pages * r.blocks)) r.pages
    rw [r.mod_pages] at hdiv
    have hindex : s % (r.pages * r.blocks) / r.pages < r.blocks :=
      Nat.div_lt_of_lt_mul hlt
    have hroom : r.pages * (s % (r.pages * r.blocks) / r.pages + 1) ≤ r.pages * r.blocks :=
      Nat.mul_le_mul_left _ hindex
    rw [Nat.mul_succ] at hroom
    omega
  constructor
  · exact Nat.le_add_right ..
  · have hpage : s % (r.pages * r.blocks) - s % r.pages + j + 1 ≤ r.pages * r.blocks := by omega
    have hmul := Nat.mul_le_mul_left r.pageSize hpage
    rw [Nat.mul_succ, ← Nat.mul_assoc] at hmul
    rw [pageOf, blockSize]
    omega

theorem offset_within (s : ℕ) :
    r.start ≤ r.offset s ∧ r.offset s + r.pageSize ≤ r.start + r.blockSize * r.blocks := by
  rw [← r.pageOf_self]
  exact r.block_within s (Nat.mod_lt _ r.pages_pos)

theorem pageOf_apart (s : ℕ) {i j : ℕ} (h : i < j) : r.pageOf s i + r.pageSize ≤ r.pageOf s j := by
  have hmul : r.pageSize * (s % (r.pages * r.blocks) - s % r.pages + i + 1) ≤
      r.pageSize * (s % (r.pages * r.blocks) - s % r.pages + j) := Nat.mul_le_mul_left _ (by omega)
  rw [Nat.mul_succ] at hmul
  rw [pageOf, pageOf]
  omega

/-- Once the block is prepared, all of it that is still to come is clean. -/
theorem clean_prepared {h : List Touch} {s : ℕ} (hopen : r.Open h s) {j : ℕ}
    (hle : s % r.pages ≤ j) (hlt : j < r.pages) :
    Clean (r.prepared h s) (r.pageOf s j) r.pageSize := by
  unfold prepared
  by_cases hzero : s % r.pages = 0
  · rw [if_pos hzero]
    have hself : r.offset s = r.pageOf s 0 := by rw [← r.pageOf_self, hzero]
    rw [hself]
    have hmul := Nat.mul_le_mul_left r.pageSize (Nat.succ_le_of_lt hlt)
    rw [Nat.mul_succ] at hmul
    apply clean_erased
    · rw [pageOf, pageOf]
      exact Nat.add_le_add_left (Nat.mul_le_mul_left _ (by omega)) _
    · rw [pageOf, pageOf, Nat.mul_add, blockSize, Nat.add_zero]
      omega
  · rw [if_neg hzero]
    exact hopen.resolve_left hzero j hle hlt

theorem clean_offset {h : List Touch} {s : ℕ} (hopen : r.Open h s) :
    Clean (r.prepared h s) (r.offset s) r.pageSize := by
  rw [← r.pageOf_self]
  exact r.clean_prepared hopen (Nat.le_refl _) (Nat.mod_lt _ r.pages_pos)

theorem succ_mod {s : ℕ} (hnext : (s + 1) % r.pages ≠ 0) :
    (s + 1) % r.pages = s % r.pages + 1 ∧
      (s + 1) % (r.pages * r.blocks) = s % (r.pages * r.blocks) + 1 := by
  have hlt : s % r.pages < r.pages := Nat.mod_lt _ r.pages_pos
  have hring : s % (r.pages * r.blocks) < r.pages * r.blocks :=
    Nat.mod_lt _ (Nat.mul_pos r.pages_pos r.blocks_pos)
  have hsmall : s % r.pages + 1 < r.pages := by
    by_contra hge
    have heq : s % r.pages + 1 = r.pages := by omega
    apply hnext
    rw [← Nat.mod_add_mod, heq, Nat.mod_self]
  have hfirst : (s + 1) % r.pages = s % r.pages + 1 := by
    rw [← Nat.mod_add_mod, Nat.mod_eq_of_lt hsmall]
  refine ⟨hfirst, ?_⟩
  have hwithin : s % (r.pages * r.blocks) + 1 < r.pages * r.blocks := by
    by_contra hge
    have heq : s % (r.pages * r.blocks) + 1 = r.pages * r.blocks := by omega
    apply hnext
    rw [← r.mod_pages (s + 1), ← Nat.mod_add_mod, heq, Nat.mod_self, Nat.zero_mod]
  rw [← Nat.mod_add_mod, Nat.mod_eq_of_lt hwithin]

/-- After the page of the counter is written the rest of its block is clean for the next. -/
theorem open_succ {h : List Touch} {s : ℕ} (hopen : r.Open h s) :
    r.Open (.write (r.offset s) r.pageSize :: r.prepared h s) (s + 1) := by
  by_cases hnext : (s + 1) % r.pages = 0
  · exact Or.inl hnext
  · right
    obtain ⟨hpage, hring⟩ := r.succ_mod hnext
    intro j hle hlt
    have hsame : r.pageOf (s + 1) j = r.pageOf s j := by
      rw [pageOf, pageOf, hpage, hring, Nat.add_sub_add_right]
    rw [hsame]
    apply (r.clean_prepared hopen (by omega) hlt).write
    right
    rw [← r.pageOf_self]
    exact r.pageOf_apart s (by omega)

theorem open_of_multiple (h : List Touch) {s : ℕ} (hs : s % r.pages = 0) : r.Open h s := Or.inl hs

theorem Open.apart {r : Ring} {h h' : List Touch} {s : ℕ} (hopen : r.Open h s)
    (hkeep : ∀ off, r.start ≤ off → off + r.pageSize ≤ r.start + r.blockSize * r.blocks →
      Clean h off r.pageSize → Clean h' off r.pageSize) : r.Open h' s := by
  rcases hopen with hzero | hclean
  · exact Or.inl hzero
  · right
    intro j hle hlt
    obtain ⟨hlo, hhi⟩ := r.block_within s hlt
    exact hkeep _ hlo hhi (hclean j hle hlt)

end Ring

end FlashHistory
