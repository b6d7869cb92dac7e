import Mathlib.Data.List.Basic
import Mathlib.Data.List.Count
import Mathlib.Logic.Function.Basic

/-!
# C objects in memory

Blocks of cells, pointers between them, and what a declared type reads behind a pointer. A cell
holds a byte or one piece of a pointer; a cell whose content is indeterminate is left open. W is
the size of a pointer.
-/

namespace CMemory

structure Pointer where
  block : ℕ
  offset : ℕ
  deriving DecidableEq, Repr

inductive Cell where
  | byte (b : UInt8)
  | fragment (p : Pointer) (k : ℕ)
  deriving DecidableEq, Repr

/-- What lies behind one address, at every distance from it. -/
abbrev View := ℕ → Cell

abbrev Memory := ℕ → View

def View.drop (view : View) (n : ℕ) : View := fun k => view (n + k)

def Memory.deref (m : Memory) (p : Pointer) : View := (m p.block).drop p.offset

/-- Cells as an object has them; none is indeterminate. -/
abbrev Contents := List (Option Cell)

def View.Shows (view : View) (cells : Contents) : Prop :=
  ∀ k c, cells[k]? = some (some c) → view k = c

def bytes (l : List UInt8) : Contents := l.map fun b => some (.byte b)

def pointerCells (W : ℕ) : Option Pointer → Contents
  | none => bytes (List.replicate W 0)
  | some p => (List.range W).map fun k => some (.fragment p k)

@[simp] theorem length_bytes (l : List UInt8) : (bytes l).length = l.length := by simp [bytes]

@[simp] theorem length_pointerCells (W : ℕ) (p : Option Pointer) :
    (pointerCells W p).length = W := by
  cases p <;> simp [pointerCells]

@[simp] theorem drop_zero (view : View) : view.drop 0 = view := by
  funext k
  simp [View.drop]

@[simp] theorem drop_drop (view : View) (a b : ℕ) :
    (view.drop a).drop b = view.drop (a + b) := by
  funext k
  simp [View.drop, Nat.add_assoc]

@[simp] theorem shows_nil (view : View) : view.Shows [] := by
  intro k c h
  simp at h

theorem shows_append {view : View} {a b : Contents} :
    view.Shows (a ++ b) ↔ view.Shows a ∧ (view.drop a.length).Shows b := by
  constructor
  · intro h
    constructor
    · intro k c hk
      obtain ⟨hlt, -⟩ := List.getElem?_eq_some_iff.mp hk
      exact h k c (by rwa [List.getElem?_append_left hlt])
    · intro k c hk
      exact h _ c (by rwa [List.getElem?_append_right (by omega), Nat.add_sub_cancel_left])
  · rintro ⟨ha, hb⟩ k c hk
    rcases Nat.lt_or_ge k a.length with hlt | hge
    · exact ha k c (by rwa [List.getElem?_append_left hlt] at hk)
    · rw [List.getElem?_append_right hge] at hk
      have h := hb (k - a.length) c hk
      rwa [View.drop, Nat.add_sub_cancel' hge] at h

theorem shows_bytes {view : View} {l : List UInt8} :
    view.Shows (bytes l) ↔ ∀ k (h : k < l.length), view k = .byte l[k] := by
  constructor
  · intro h k hk
    exact h k _ (by simp [bytes, hk])
  · intro h k c hc
    obtain ⟨hk, he⟩ := List.getElem?_eq_some_iff.mp hc
    rw [h k (by simpa using hk)]
    simpa [bytes] using he

theorem shows_pointer {W : ℕ} {view : View} {p : Pointer} :
    view.Shows (pointerCells W (some p)) ↔ ∀ k < W, view k = .fragment p k := by
  constructor
  · intro h k hk
    exact h k _ (by simp [pointerCells, hk])
  · intro h k c hc
    obtain ⟨hk, he⟩ := List.getElem?_eq_some_iff.mp hc
    rw [h k (by simpa using hk)]
    simpa [pointerCells] using he

theorem shows_null {W : ℕ} {view : View} :
    view.Shows (pointerCells W none) ↔ ∀ k < W, view k = .byte 0 := by
  simp [pointerCells, shows_bytes]

/-! ## Types and the values they read -/

/-- A C string may not be NULL here; a member of type char * is a ptr to it. -/
inductive CType where
  | bytes (n : ℕ)
  | cstr
  | ptr (t : CType)
  | member (offset : ℕ) (t rest : CType)
  | done
  deriving DecidableEq, Repr

inductive CValue where
  | bytes (l : List UInt8)
  | str (l : List UInt8)
  | null
  | to (v : CValue)
  | member (v rest : CValue)
  | done
  deriving DecidableEq, Repr

def Reads (W : ℕ) (m : Memory) : CType → View → CValue → Prop
  | .bytes n, view, .bytes l => l.length = n ∧ view.Shows (bytes l)
  | .cstr, view, .str l => 0 ∉ l ∧ view.Shows (bytes (l ++ [0]))
  | .ptr _, view, .null => view.Shows (pointerCells W none)
  | .ptr t, view, .to v =>
    ∃ p, view.Shows (pointerCells W (some p)) ∧ Reads W m t (m.deref p) v
  | .member offset t rest, view, .member v w =>
    Reads W m t (view.drop offset) v ∧ Reads W m rest view w
  | .done, _, .done => True
  | _, _, _ => False

/-- The value behind a data pointer. NULL stands for no elements where the type has none. -/
def ReadsData (W : ℕ) (m : Memory) (t : CType) : Option View → CValue → Prop
  | some view, v => Reads W m t view v
  | none, v => v = if t = .done then .done else .null

theorem bytes_unique {view : View} {l l' : List UInt8} (hl : l.length = l'.length)
    (h : view.Shows (bytes l)) (h' : view.Shows (bytes l')) : l = l' := by
  refine List.ext_getElem hl fun k hk hk' => ?_
  have he := (shows_bytes.mp h k hk).symm.trans (shows_bytes.mp h' k hk')
  exact Cell.byte.inj he

theorem cstr_length_le {view : View} {l l' : List UInt8} (hz : 0 ∉ l')
    (h : view.Shows (bytes (l ++ [0]))) (h' : view.Shows (bytes (l' ++ [0]))) :
    l'.length ≤ l.length := by
  by_contra hlt
  have hlt : l.length < l'.length := by omega
  have hend := shows_bytes.mp h l.length (by simp)
  have hin := shows_bytes.mp h' l.length (by simp; omega)
  simp only [List.getElem_append_left hlt, List.getElem_concat_length] at hend hin
  have he := Cell.byte.inj (hin.symm.trans hend)
  exact hz (he ▸ List.getElem_mem hlt)

theorem cstr_unique {view : View} {l l' : List UInt8} (hz : 0 ∉ l) (hz' : 0 ∉ l')
    (h : view.Shows (bytes (l ++ [0]))) (h' : view.Shows (bytes (l' ++ [0]))) : l = l' := by
  have hl : l.length = l'.length :=
    Nat.le_antisymm (cstr_length_le hz h' h) (cstr_length_le hz' h h')
  exact List.append_cancel_right (bytes_unique (by simp [hl]) h h')

theorem pointer_unique {W : ℕ} (hW : 0 < W) {view : View} {p q : Pointer}
    (h : view.Shows (pointerCells W (some p))) (h' : view.Shows (pointerCells W (some q))) :
    p = q := by
  have he := (shows_pointer.mp h 0 hW).symm.trans (shows_pointer.mp h' 0 hW)
  exact (Cell.fragment.inj he).1

theorem pointer_ne_null {W : ℕ} (hW : 0 < W) {view : View} {p : Pointer}
    (h : view.Shows (pointerCells W (some p))) : ¬ view.Shows (pointerCells W none) := by
  intro h'
  have he := (shows_pointer.mp h 0 hW).symm.trans (shows_null.mp h' 0 hW)
  cases he

theorem reads_unique {W : ℕ} (hW : 0 < W) {m : Memory} {t : CType} {view : View} {v w : CValue}
    (hv : Reads W m t view v) (hw : Reads W m t view w) : v = w := by
  induction t generalizing view v w with
  | bytes n =>
    cases v <;> cases w <;> simp only [Reads] at hv hw
    exact congrArg _ (bytes_unique (hv.1.trans hw.1.symm) hv.2 hw.2)
  | cstr =>
    cases v <;> cases w <;> simp only [Reads] at hv hw
    exact congrArg _ (cstr_unique hv.1 hw.1 hv.2 hw.2)
  | ptr t ih =>
    cases v <;> cases w <;> simp only [Reads] at hv hw
    · rfl
    · obtain ⟨p, hp, -⟩ := hw
      exact absurd hv (pointer_ne_null hW hp)
    · obtain ⟨p, hp, -⟩ := hv
      exact absurd hw (pointer_ne_null hW hp)
    · obtain ⟨p, hp, hv⟩ := hv
      obtain ⟨q, hq, hw⟩ := hw
      obtain rfl := pointer_unique hW hp hq
      exact congrArg _ (ih hv hw)
  | member offset t rest ih ihr =>
    cases v <;> cases w <;> simp only [Reads] at hv hw
    rw [ih hv.1 hw.1, ihr hv.2 hw.2]
  | done =>
    cases v <;> cases w <;> simp only [Reads] at hv hw
    rfl

theorem readsData_unique {W : ℕ} (hW : 0 < W) {m : Memory} {t : CType} {buf : Option View}
    {v w : CValue} (hv : ReadsData W m t buf v) (hw : ReadsData W m t buf w) : v = w := by
  cases buf with
  | none => exact hv.trans hw.symm
  | some view => exact reads_unique hW hv hw

/-! ## Blocks and what they make readable -/

inductive Storage where
  | stack | heap | static
  deriving DecidableEq, Repr

structure Block where
  storage : Storage
  cells : Contents
  deriving DecidableEq, Repr

/-- The blocks a function has set up; a number without one has no cells. -/
abbrev Frame := ℕ → Block

def Frame.ofBlocks (blocks : List Block) : Frame := fun b => blocks.getD b ⟨.static, []⟩

/-- What is left once the function has returned. -/
def Frame.lasting (frame : Frame) : Frame := fun b =>
  if (frame b).storage = .stack then ⟨.stack, []⟩ else frame b

def Memory.Holds (m : Memory) (frame : Frame) : Prop := ∀ b, (m b).Shows (frame b).cells

/-- The frame's cells, and other memory wherever it has none. -/
def Frame.fill (frame : Frame) (other : Memory) : Memory := fun b k =>
  ((frame b).cells.getD k none).getD (other b k)

theorem fill_holds (frame : Frame) (other : Memory) : (frame.fill other).Holds frame := by
  intro b k c hc
  simp [Frame.fill, List.getD_eq_getElem?_getD, hc]

theorem Memory.Holds.lasting {m : Memory} {frame : Frame} (h : m.Holds frame) :
    m.Holds frame.lasting := by
  intro b
  unfold Frame.lasting
  split
  · exact shows_nil _
  · exact h b

theorem lasting_of_ne_stack {frame : Frame} {b : ℕ} (h : (frame b).storage ≠ .stack) :
    frame.lasting b = frame b := if_neg h

theorem lasting_fill_stack {frame : Frame} {b : ℕ} (h : (frame b).storage = .stack)
    (other : Memory) : frame.lasting.fill other b = other b := by
  funext k
  simp [Frame.fill, Frame.lasting, h]

/-- Wherever the cells show, the type reads one and the same value while the frame is held. -/
def Stored (W : ℕ) (frame : Frame) (cells : Contents) (t : CType) : Prop :=
  ∃ v, ∀ m : Memory, m.Holds frame → ∀ view : View, view.Shows cells → Reads W m t view v

variable {W : ℕ} {frame : Frame}

theorem stored_bytes (l : List UInt8) : Stored W frame (bytes l) (.bytes l.length) :=
  ⟨.bytes l, fun _ _ _ h => ⟨rfl, h⟩⟩

theorem stored_cstr {l : List UInt8} (h : 0 ∈ l) : Stored W frame (bytes l) .cstr := by
  obtain ⟨pre, post, rfl, hpre⟩ := List.eq_append_cons_of_mem h
  refine ⟨.str pre, fun m _ view hs => ⟨hpre, ?_⟩⟩
  have he : bytes (pre ++ 0 :: post) = bytes (pre ++ [0]) ++ bytes post := by simp [bytes]
  exact (shows_append.mp (he ▸ hs)).1

theorem stored_null (t : CType) : Stored W frame (pointerCells W none) (.ptr t) :=
  ⟨.null, fun _ _ _ h => h⟩

theorem stored_pointer {p : Pointer} (cells : Contents) {t : CType}
    (hp : ∀ m : Memory, m.Holds frame → (m.deref p).Shows cells) (h : Stored W frame cells t) :
    Stored W frame (pointerCells W (some p)) (.ptr t) := by
  obtain ⟨v, hv⟩ := h
  exact ⟨.to v, fun m hm _ hs => ⟨p, hs, hv m hm _ (hp m hm)⟩⟩

theorem deref_shows {b : ℕ} {m : Memory} (hm : m.Holds frame) :
    (m.deref ⟨b, 0⟩).Shows (frame b).cells := by
  simpa [Memory.deref] using hm b

/-! ## Structs and arrays -/

structure Member where
  align : ℕ
  cells : Contents
  type : CType

/-- The first offset from off on that a member may stand at. -/
def padding (align off : ℕ) : ℕ := (align - off % align) % align

@[simp] theorem padding_zero (align : ℕ) : padding align 0 = 0 := by simp [padding]

def structFields : ℕ → List Member → Contents
  | _, [] => []
  | off, x :: xs =>
    List.replicate (padding x.align off) none ++ x.cells ++
      structFields (off + padding x.align off + x.cells.length) xs

def structType : ℕ → List Member → CType
  | _, [] => .done
  | off, x :: xs =>
    .member (off + padding x.align off) x.type
      (structType (off + padding x.align off + x.cells.length) xs)

def maxAlign (xs : List Member) : ℕ := (xs.map Member.align).foldr max 1

/-- The members and the padding behind the last of them. -/
def structCells (xs : List Member) : Contents :=
  structFields 0 xs ++
    List.replicate (padding (maxAlign xs) (structFields 0 xs).length) none

/-- Elements follow one another without padding. -/
def packed (xs : List Member) : List Member := xs.map fun x => { x with align := 1 }

theorem stored_fields {xs : List Member} (h : ∀ x ∈ xs, Stored W frame x.cells x.type) (off : ℕ) :
    ∃ v, ∀ m : Memory, m.Holds frame → ∀ view : View,
      (view.drop off).Shows (structFields off xs) → Reads W m (structType off xs) view v := by
  induction xs generalizing off with
  | nil => exact ⟨.done, fun _ _ _ _ => trivial⟩
  | cons x xs ih =>
    obtain ⟨v, hv⟩ := h x List.mem_cons_self
    obtain ⟨w, hw⟩ := ih (fun y hy => h y (List.mem_cons_of_mem x hy))
      (off + padding x.align off + x.cells.length)
    refine ⟨.member v w, fun m hm view hs => ?_⟩
    rw [structFields, List.append_assoc, shows_append, shows_append] at hs
    obtain ⟨-, hx, hrest⟩ := hs
    simp only [List.length_replicate, drop_drop] at hx hrest
    exact ⟨hv m hm _ hx, hw m hm view hrest⟩

theorem stored_struct {xs : List Member} (h : ∀ x ∈ xs, Stored W frame x.cells x.type) :
    Stored W frame (structCells xs) (structType 0 xs) := by
  obtain ⟨v, hv⟩ := stored_fields h 0
  refine ⟨v, fun m hm view hs => hv m hm view ?_⟩
  rw [drop_zero]
  exact (shows_append.mp hs).1

theorem stored_array {xs : List Member} (h : ∀ x ∈ xs, Stored W frame x.cells x.type) :
    Stored W frame (structFields 0 (packed xs)) (structType 0 (packed xs)) := by
  have hpacked : ∀ x ∈ packed xs, Stored W frame x.cells x.type := by simpa [packed] using h
  obtain ⟨v, hv⟩ := stored_fields hpacked 0
  exact ⟨v, fun m hm view hs => hv m hm view (by rwa [drop_zero])⟩

theorem length_array {xs : List Member} {n : ℕ} (h : ∀ x ∈ xs, x.cells.length = n) (off : ℕ) :
    (structFields off (packed xs)).length = xs.length * n := by
  induction xs generalizing off with
  | nil => simp [packed, structFields]
  | cons x xs ih =>
    have hx := h x List.mem_cons_self
    have hrest := ih (fun y hy => h y (List.mem_cons_of_mem x hy))
    simp only [packed, List.map_cons, structFields, List.length_append, List.length_replicate]
    rw [← packed, hrest, hx, padding, Nat.mod_one, List.length_cons, Nat.succ_mul]
    omega

/-- The elements of an array of structs, each at its multiple of their size. -/
theorem shows_flatMap {α : Type} {f : α → Contents} {n : ℕ} {xs : List α} {view : View}
    (h : view.Shows (xs.flatMap f)) (hn : ∀ x ∈ xs, (f x).length = n) (i : ℕ)
    (hi : i < xs.length) : (view.drop (i * n)).Shows (f xs[i]) := by
  induction xs generalizing view i with
  | nil => cases hi
  | cons x xs ih =>
    rw [List.flatMap_cons, shows_append] at h
    cases i with
    | zero => simpa using h.1
    | succ i =>
      have hrest := h.2
      rw [hn x List.mem_cons_self] at hrest
      have hshown := ih hrest (fun y hy => hn y (List.mem_cons_of_mem x hy)) i
        (Nat.lt_of_succ_lt_succ hi)
      rw [drop_drop, Nat.add_comm, ← Nat.succ_mul] at hshown
      exact hshown

/-- Where a member stands that needs this alignment, behind pre. -/
def memberOffset : ℕ → List Member → ℕ → ℕ
  | off, [], align => off + padding align off
  | off, x :: xs, align => memberOffset (off + padding x.align off + x.cells.length) xs align

theorem shows_member {view : View} (off : ℕ) (pre : List Member) {post : List Member} {x : Member}
    (h : (view.drop off).Shows (structFields off (pre ++ x :: post))) :
    (view.drop (memberOffset off pre x.align)).Shows x.cells := by
  induction pre generalizing off with
  | nil =>
    rw [List.nil_append, structFields, List.append_assoc, shows_append, shows_append] at h
    simpa [memberOffset] using h.2.1
  | cons y ys ih =>
    rw [List.cons_append, structFields, List.append_assoc, shows_append, shows_append] at h
    simp only [List.length_replicate, drop_drop] at h
    exact ih _ h.2.2

/-- Two memories in which a struct reads the same value agree on each of its members. -/
theorem reads_member {m m' : Memory} {view view' : View} {v : CValue} {off : ℕ}
    (pre : List Member) {post : List Member} {x : Member}
    (h : Reads W m (structType off (pre ++ x :: post)) view v)
    (h' : Reads W m' (structType off (pre ++ x :: post)) view' v) :
    ∃ w, Reads W m x.type (view.drop (memberOffset off pre x.align)) w ∧
      Reads W m' x.type (view'.drop (memberOffset off pre x.align)) w := by
  induction pre generalizing off v with
  | nil =>
    cases v <;> simp only [List.nil_append, structType, Reads] at h h'
    exact ⟨_, h.1, h'.1⟩
  | cons y ys ih =>
    cases v <;> simp only [List.cons_append, structType, Reads] at h h'
    exact ih h.2 h'.2

theorem reads_bytes_agree {m m' : Memory} {view view' : View} {n : ℕ} {v : CValue}
    (h : Reads W m (.bytes n) view v) (h' : Reads W m' (.bytes n) view' v) {k : ℕ} (hk : k < n) :
    view k = view' k := by
  cases v <;> simp only [Reads] at h h'
  have hl := h.1
  exact (shows_bytes.mp h.2 k (by omega)).trans (shows_bytes.mp h'.2 k (by omega)).symm

/-- The same pointer read in two memories leads to the same value in both. -/
theorem reads_pointer_agree (hW : 0 < W) {m m' : Memory} {view view' : View} {t : CType}
    {v : CValue} {p : Pointer} (h : Reads W m (.ptr t) view v) (h' : Reads W m' (.ptr t) view' v)
    (hs : view.Shows (pointerCells W (some p))) (hs' : view'.Shows (pointerCells W (some p))) :
    ∃ w, Reads W m t (m.deref p) w ∧ Reads W m' t (m'.deref p) w := by
  cases v <;> simp only [Reads] at h h'
  · exact absurd h (pointer_ne_null hW hs)
  · obtain ⟨q, hq, h⟩ := h
    obtain ⟨r, hr, h'⟩ := h'
    obtain rfl := pointer_unique hW hs hq
    obtain rfl := pointer_unique hW hs' hr
    exact ⟨_, h, h'⟩

/-! ## memcpy into a fresh block -/

/-- junk is what lies behind the copy, and all of it where the source is NULL. -/
def memcpy (junk : View) (buf : Option View) (n : ℕ) : View := fun k =>
  match buf with
  | some view => if k < n then view k else junk k
  | none => junk k

theorem memcpy_inside (junk view : View) {n k : ℕ} (h : k < n) :
    memcpy junk (some view) n k = view k := if_pos h

theorem memcpy_behind (junk view : View) {n k : ℕ} (h : n ≤ k) :
    memcpy junk (some view) n k = junk k := if_neg (by omega)

theorem memcpy_shows (junk : View) {view : View} {cells : Contents} {n : ℕ} (off : ℕ)
    (hn : off + cells.length ≤ n) (h : (view.drop off).Shows cells) :
    ((memcpy junk (some view) n).drop off).Shows cells := by
  intro k c hc
  obtain ⟨hk, -⟩ := List.getElem?_eq_some_iff.mp hc
  rw [View.drop, memcpy_inside junk view (by omega)]
  exact h k c hc

end CMemory
