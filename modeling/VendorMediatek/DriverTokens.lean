import VendorMediatek.CStrings
import VendorMediatek.Faults

/-!
# tokenize_space

The function cuts a string in place: it writes the start of each piece to argv and a terminator over
the separator behind it.
-/

namespace DriverTokens

open CStrings Faults

/-! ## The pieces of a string -/

def isSeparator (c : UInt8) : Bool := c = 10 ∨ c = 32

/-- What is between the separators, in order; a separator at the very end has nothing behind it. -/
def pieces (s : CString) : List CString :=
  if s.getLast?.any isSeparator then (s.splitOnP isSeparator).dropLast
  else s.splitOnP isSeparator

theorem pieces_of_piece {piece : CString} (h : ∀ c ∈ piece, isSeparator c = false) :
    pieces piece = [piece] := by
  have hlast : piece.getLast?.any isSeparator = false := by
    rw [Option.any_eq_false_iff_get]
    intro hsome
    exact h _ (List.mem_of_getLast? (Option.some_get hsome).symm)
  rw [pieces, hlast, List.splitOnP_eq_singleton h]
  rfl

section Split

variable {piece : CString} {sep : UInt8} (h : ∀ c ∈ piece, isSeparator c = false)
  (hsep : isSeparator sep = true)

include h hsep

theorem pieces_of_last : pieces (piece ++ [sep]) = [piece] := by
  rw [pieces, List.getLast?_append, List.getLast?_singleton, Option.some_or, Option.any_some,
    if_pos hsep, List.splitOnP_append_cons_of_forall_mem h sep hsep, List.splitOnP_nil]
  rfl

theorem pieces_of_cons {rest : CString} (hrest : rest ≠ []) :
    pieces (piece ++ sep :: rest) = piece :: pieces rest := by
  have hlast : (piece ++ sep :: rest).getLast? = rest.getLast? := by
    obtain ⟨c, rest, rfl⟩ := List.exists_cons_of_ne_nil hrest
    rw [List.getLast?_append, List.getLast?_cons_cons, List.getLast?_cons, Option.some_or]
  rw [pieces, pieces, hlast, List.splitOnP_append_cons_of_forall_mem h sep hsep]
  by_cases hend : rest.getLast?.any isSeparator = true
  · rw [if_pos hend, if_pos hend, List.dropLast_cons_of_ne_nil (List.splitOnP_ne_nil _ _)]
  · rw [if_neg hend, if_neg hend]

end Split

/-! ## The function -/

/-- The inner loop, over the bytes from pos on. -/
def skipPiece (len : ℕ) : List UInt8 → ℕ → Checked ℕ
  | [], _ => .error .outside
  | c :: rest, pos =>
    if c ≠ 10 ∧ c ≠ 32 ∧ c ≠ 0 then
      if len ≤ pos + 1 then pure (pos + 1) else skipPiece len rest (pos + 1)
    else pure pos

/-- The outer loop, with the number of entries that argv has left. -/
def tokenLoop (len : ℕ) : ℕ → List UInt8 → List ℕ → ℕ → Checked (List ℕ × List UInt8)
  | 0, _, _, _ => .error .outside
  | left + 1, cmd, argv, pos => do
    let stop ← skipPiece len (cmd.drop pos) pos
    let c ← read cmd stop
    if c = 0 then pure (argv ++ [pos], cmd)
    else if c = 10 ∨ c = 32 then
      let cut ← put cmd stop 0
      if len ≤ stop + 1 then pure (argv ++ [pos], cut)
      else tokenLoop len left cut (argv ++ [pos]) (stop + 1)
    else tokenLoop len left cmd (argv ++ [pos]) stop

/-- The offsets in argv, argc of them, and the bytes of the command afterwards. -/
def tokenize_space (cmd : List UInt8) (entries len : ℕ) : Checked (List ℕ × List UInt8) :=
  tokenLoop len entries cmd [] 0

/-- The string that starts at an offset. -/
def stringAt (memory : List UInt8) (offset : ℕ) : CString := (memory.drop offset).takeWhile (· ≠ 0)

/-! ## One piece -/

/-- A string has one piece, or one piece and a separator, or a piece in front of more. -/
inductive Shape : CString → Prop where
  | piece {p : CString} (h : ∀ c ∈ p, isSeparator c = false) : Shape p
  | last {p : CString} {sep : UInt8} (h : ∀ c ∈ p, isSeparator c = false)
      (hsep : isSeparator sep = true) : Shape (p ++ [sep])
  | more {p rest : CString} {sep : UInt8} (h : ∀ c ∈ p, isSeparator c = false)
      (hsep : isSeparator sep = true) (hrest : rest ≠ []) : Shape (p ++ sep :: rest)

theorem shape (s : CString) : Shape s := by
  cases hfind : s.find? isSeparator with
  | none =>
    rw [List.find?_eq_none] at hfind
    exact .piece fun c hc => Bool.eq_false_iff.mpr (hfind c hc)
  | some sep =>
    rcases List.find?_eq_some_iff_append.mp hfind with ⟨hsep, p, rest, rfl, hbefore⟩
    have hp : ∀ c ∈ p, isSeparator c = false := fun c hc => by simpa using hbefore c hc
    cases rest with
    | nil => exact .last hp hsep
    | cons c rest => exact .more hp hsep (List.cons_ne_nil c rest)

theorem pieces_ne_nil (s : CString) : pieces s ≠ [] := by
  cases shape s with
  | piece h => rw [pieces_of_piece h]; exact List.cons_ne_nil _ _
  | last h hsep => rw [pieces_of_last h hsep]; exact List.cons_ne_nil _ _
  | more h hsep hrest => rw [pieces_of_cons h hsep hrest]; exact List.cons_ne_nil _ _

theorem skipPiece_eq {len pos : ℕ} {p rest : List UInt8} {stop : UInt8}
    (hp : ∀ c ∈ p, isSeparator c = false) (hzero : 0 ∉ p)
    (hstop : isSeparator stop = true ∨ stop = 0) (hlen : pos + p.length ≤ len) :
    skipPiece len (p ++ stop :: rest) pos = .ok (pos + p.length) := by
  induction p generalizing pos with
  | nil =>
    have hnot : ¬ (stop ≠ 10 ∧ stop ≠ 32 ∧ stop ≠ 0) := by
      rintro ⟨hline, hspace, hend⟩
      exact (hstop.resolve_right hend |> of_decide_eq_true).elim hline hspace
    exact if_neg hnot
  | cons c p ih =>
    rcases List.forall_mem_cons.mp hp with ⟨hc, hp⟩
    rw [List.mem_cons, not_or] at hzero
    rw [List.length_cons] at hlen ⊢
    have hgo : c ≠ 10 ∧ c ≠ 32 ∧ c ≠ 0 := by
      rw [← and_assoc]
      exact ⟨not_or.mp (of_decide_eq_false hc), Ne.symm hzero.1⟩
    rw [List.cons_append, skipPiece, if_pos hgo]
    by_cases hend : len ≤ pos + 1
    · -- the bound is met at the last byte only
      rw [if_pos hend, show p.length = 0 by omega]
      rfl
    · rw [if_neg hend, ih hp hzero.2 (by omega)]
      congr 1
      omega

section Turn

variable {len left : ℕ} {done p : List UInt8} {argv : List ℕ}

theorem read_behind (stop : UInt8) (rest : List UInt8) :
    read (done ++ (p ++ stop :: rest)) (done.length + p.length) = .ok stop := by
  rw [read_eq_ok, ← List.append_assoc, ← List.length_append,
    List.getElem?_append_right (Nat.le_refl _), Nat.sub_self]
  rfl

theorem put_behind (stop c : UInt8) (rest : List UInt8) :
    put (done ++ (p ++ stop :: rest)) (done.length + p.length) c =
      .ok (done ++ (p ++ c :: rest)) := by
  have hlt : done.length + p.length < (done ++ (p ++ stop :: rest)).length := by
    rw [List.length_append, List.length_append, List.length_cons]
    omega
  refine (if_pos hlt).trans ?_
  rw [← List.append_assoc, ← List.length_append, List.set_append_right _ _ (Nat.le_refl _),
    Nat.sub_self, List.set_cons_zero, List.append_assoc]

theorem turn_reads {stop : UInt8} {rest : List UInt8} {α : Type} {f : ℕ → UInt8 → Checked α}
    (hp : ∀ c ∈ p, isSeparator c = false) (hzero : 0 ∉ p)
    (hstop : isSeparator stop = true ∨ stop = 0) (hlen : done.length + p.length ≤ len) :
    (do
      let stop' ← skipPiece len ((done ++ (p ++ stop :: rest)).drop done.length) done.length
      let c ← read (done ++ (p ++ stop :: rest)) stop'
      f stop' c) = f (done.length + p.length) stop := by
  rw [List.drop_left, bind_of_ok (skipPiece_eq hp hzero hstop hlen)]
  exact bind_of_ok (read_behind stop rest)

theorem tokenLoop_piece (hp : ∀ c ∈ p, isSeparator c = false) (hzero : 0 ∉ p)
    (hlen : done.length + p.length ≤ len) :
    tokenLoop len (left + 1) (done ++ (p ++ [0])) argv done.length =
      .ok (argv ++ [done.length], done ++ (p ++ [0])) :=
  (turn_reads hp hzero (.inr rfl) hlen).trans (if_pos rfl)

variable {sep : UInt8}

theorem tokenLoop_sep {rest : List UInt8} (hp : ∀ c ∈ p, isSeparator c = false) (hzero : 0 ∉ p)
    (hsep : isSeparator sep = true) (hlen : done.length + p.length ≤ len) :
    tokenLoop len (left + 1) (done ++ (p ++ sep :: rest)) argv done.length =
      if len ≤ done.length + p.length + 1 then
        .ok (argv ++ [done.length], done ++ (p ++ 0 :: rest))
      else tokenLoop len left (done ++ (p ++ 0 :: rest)) (argv ++ [done.length])
        (done.length + p.length + 1) := by
  have hor : sep = 10 ∨ sep = 32 := of_decide_eq_true hsep
  have hne : sep ≠ 0 := by rcases hor with rfl | rfl <;> decide
  refine (turn_reads hp hzero (.inl hsep) hlen).trans ?_
  rw [if_neg hne, if_pos hor, bind_of_ok (put_behind sep 0 rest)]
  rfl

end Turn

/-! ## The whole string -/

def cut (c : UInt8) : UInt8 := if isSeparator c then 0 else c

theorem map_cut_piece {p : List UInt8} (hp : ∀ c ∈ p, isSeparator c = false) : p.map cut = p := by
  refine (List.map_congr_left fun c hc => ?_).trans (List.map_id p)
  exact if_neg (Bool.eq_false_iff.mp (hp c hc))

theorem stringAt_piece {done p rest : List UInt8} (hzero : 0 ∉ p) :
    stringAt (done ++ (p ++ 0 :: rest)) done.length = p := by
  rw [stringAt, List.drop_left, List.takeWhile_append_of_pos]
  · exact List.append_nil p
  · intro c hc
    exact decide_eq_true fun h => hzero (h ▸ hc)

section Loop

variable {s done p rest : List UInt8} {argv : List ℕ} {len left : ℕ} {sep : UInt8}

theorem zero_notMem_of_more (hzero : 0 ∉ p ++ sep :: rest) : 0 ∉ p ∧ 0 ∉ rest :=
  ⟨fun h => hzero (List.mem_append_left _ h),
    fun h => hzero (List.mem_append_right _ (List.mem_cons_of_mem _ h))⟩

theorem tokenLoop_more (hp : ∀ c ∈ p, isSeparator c = false) (hzero : 0 ∉ p)
    (hsep : isSeparator sep = true) (hrest : rest ≠ [])
    (hlen : done.length + (p ++ sep :: rest).length = len) :
    tokenLoop len (left + 1) (done ++ (p ++ sep :: rest ++ [0])) argv done.length =
      tokenLoop len left (done ++ (p ++ [0]) ++ (rest ++ [0])) (argv ++ [done.length])
        (done ++ (p ++ [0])).length := by
  have hpos := List.length_pos_iff.mpr hrest
  rw [List.length_append, List.length_cons] at hlen
  have hmem : done ++ (p ++ [0]) ++ (rest ++ [0]) = done ++ (p ++ 0 :: (rest ++ [0])) := by
    simp only [List.append_assoc, List.cons_append, List.nil_append]
  have hdone : (done ++ (p ++ [0])).length = done.length + p.length + 1 := by
    rw [List.length_append, List.length_append, List.length_singleton]
    rfl
  rw [List.append_assoc p, List.cons_append, tokenLoop_sep hp hzero hsep (by omega),
    if_neg (by omega), hmem, hdone]

/-- The rest of a string is cut into its pieces when argv has room for them. -/
theorem tokenLoop_eq (hzero : 0 ∉ s) (hlen : done.length + s.length = len)
    (hroom : (pieces s).length ≤ left) :
    ∃ offsets, tokenLoop len left (done ++ (s ++ [0])) argv done.length =
        .ok (argv ++ offsets, done ++ (s.map cut ++ [0])) ∧
      offsets.map (stringAt (done ++ (s.map cut ++ [0]))) = pieces s := by
  induction left generalizing s done argv with
  | zero => exact absurd (List.eq_nil_of_length_eq_zero (by omega)) (pieces_ne_nil s)
  | succ left ih =>
    cases shape s with
    | piece hp =>
      rw [pieces_of_piece hp, map_cut_piece hp]
      refine ⟨[done.length], tokenLoop_piece hp hzero (Nat.le_of_eq hlen), ?_⟩
      rw [List.map_singleton, stringAt_piece hzero]
    | @last p sep hp hsep =>
      have hp0 : 0 ∉ p := (zero_notMem_of_more hzero).1
      rw [List.length_append, List.length_singleton] at hlen
      have hcut : (p ++ [sep]).map cut = p ++ [0] := by
        rw [List.map_append, map_cut_piece hp, List.map_singleton, cut, if_pos hsep]
      rw [pieces_of_last hp hsep, hcut, List.append_assoc, List.append_assoc]
      refine ⟨[done.length], ?_, ?_⟩
      · exact (tokenLoop_sep hp hp0 hsep (by omega)).trans (if_pos (by omega))
      · rw [List.map_singleton]
        exact congrArg (fun t => [t]) (stringAt_piece hp0)
    | @more p rest sep hp hsep hrest =>
      rcases zero_notMem_of_more hzero with ⟨hp0, hrest0⟩
      have hnext : (done ++ (p ++ [0])).length + rest.length = len := by
        simp only [List.length_append, List.length_cons, List.length_nil] at hlen ⊢
        omega
      rw [pieces_of_cons hp hsep hrest] at hroom ⊢
      rcases @ih rest (done ++ (p ++ [0])) (argv ++ [done.length]) hrest0 hnext
        (Nat.le_of_succ_le_succ hroom) with ⟨offsets, hrun, hstrings⟩
      have hmem : done ++ ((p ++ sep :: rest).map cut ++ [0]) =
          done ++ (p ++ [0]) ++ (rest.map cut ++ [0]) := by
        rw [List.map_append, map_cut_piece hp, List.map_cons, cut, if_pos hsep]
        simp only [List.append_assoc, List.cons_append, List.nil_append]
      refine ⟨done.length :: offsets, ?_, ?_⟩
      · rw [tokenLoop_more hp hp0 hsep hrest hlen, hrun, hmem, List.append_assoc argv]
        rfl
      · rw [List.map_cons, hmem, hstrings, List.append_assoc, List.append_assoc]
        exact congrArg (· :: pieces rest) (stringAt_piece hp0)

theorem tokenLoop_outside (hzero : 0 ∉ s) (hlen : done.length + s.length = len)
    (hroom : left < (pieces s).length) :
    tokenLoop len left (done ++ (s ++ [0])) argv done.length = .error .outside := by
  induction left generalizing s done argv with
  | zero => rfl
  | succ left ih =>
    cases shape s with
    | piece hp =>
      rw [pieces_of_piece hp, List.length_singleton] at hroom
      omega
    | last hp hsep =>
      rw [pieces_of_last hp hsep, List.length_singleton] at hroom
      omega
    | @more p rest sep hp hsep hrest =>
      rcases zero_notMem_of_more hzero with ⟨hp0, hrest0⟩
      have hnext : (done ++ (p ++ [0])).length + rest.length = len := by
        simp only [List.length_append, List.length_cons, List.length_nil] at hlen ⊢
        omega
      rw [pieces_of_cons hp hsep hrest] at hroom
      rw [tokenLoop_more hp hp0 hsep hrest hlen]
      exact ih hrest0 hnext (Nat.lt_of_succ_lt_succ hroom)

end Loop

/-- The string was cut into its pieces inside its own bytes and inside argv. -/
def Splits (entries : ℕ) (s : CString) : Prop :=
  ∃ argv memory, tokenize_space (s ++ [0]) entries s.length = .ok (argv, memory) ∧
    argv.map (stringAt memory) = pieces s

theorem tokenize_space_eq {entries : ℕ} {s : CString} (hzero : 0 ∉ s)
    (hroom : (pieces s).length ≤ entries) :
    ∃ argv, tokenize_space (s ++ [0]) entries s.length = .ok (argv, s.map cut ++ [0]) ∧
      argv.map (stringAt (s.map cut ++ [0])) = pieces s :=
  @tokenLoop_eq s [] [] s.length entries hzero (Nat.zero_add _) hroom

theorem tokenize_space_outside {entries : ℕ} {s : CString} (hzero : 0 ∉ s)
    (hroom : entries < (pieces s).length) :
    tokenize_space (s ++ [0]) entries s.length = .error .outside :=
  @tokenLoop_outside s [] [] s.length entries hzero (Nat.zero_add _) hroom

theorem splits_iff (entries : ℕ) {s : CString} (hzero : 0 ∉ s) :
    Splits entries s ↔ (pieces s).length ≤ entries := by
  constructor
  · rintro ⟨argv, memory, hrun, -⟩
    by_contra hroom
    rw [tokenize_space_outside hzero (Nat.not_le.mp hroom)] at hrun
    nomatch hrun
  · intro hroom
    rcases tokenize_space_eq hzero hroom with ⟨argv, hrun, hstrings⟩
    exact ⟨argv, _, hrun, hstrings⟩

end DriverTokens
