import Mathlib.Data.List.Basic
import Mathlib.Tactic.Tauto

/-!
# The checksum of the backup

`NVM_ComputeCheckSum` reads the words of the data file in blocks of 4096. The version beside it
reads them one at a time. `NVM_CheckData_OneFile` compares the sum with the one in the map file
before it restores.
-/

namespace CheckSum

/-- What a cleared unsigned int holds after a read of up to four bytes. -/
def leWord (bytes : List UInt8) : UInt32 := bytes.foldr (fun b rest => b.toUInt32 + 256 * rest) 0

/-- The whole words of a buffer. -/
def words : List UInt8 → List UInt32
  | b₀ :: b₁ :: b₂ :: b₃ :: rest => leWord [b₀, b₁, b₂, b₃] :: words rest
  | _ => []

/-- One turn, with the sum and the flag. -/
def checkSumStep (acc : UInt32 × Bool) (word : UInt32) : UInt32 × Bool :=
  if acc.2 then (acc.1 ^^^ word, false) else (acc.1 + word, true)

/-- A read that is checked to deliver all the bytes, with what stands behind them. -/
def readFully (succeeds : Bool) (count : ℕ) (rest : List UInt8) :
    Option (List UInt8 × List UInt8) :=
  if succeeds ∧ count ≤ rest.length then some (rest.take count, rest.drop count) else none

/-- Which calls succeed. The reads are counted from 0 and the last is that of the tail. -/
structure SumCalls where
  stats : Bool
  opens : Bool
  reads : ℕ → Bool

def SumCalls.ok : SumCalls := ⟨true, true, fun _ => true⟩

def loopNum : ℕ := 4096

/-- The blocks from round i on: what the file holds behind them and the sum, none when a read
falls short. -/
def blockLoop (reads : ℕ → Bool) (looptime tmplooptime : ℕ) :
    ℕ → ℕ → List UInt8 → UInt32 × Bool → Option (List UInt8 × (UInt32 × Bool))
  | 0, _, rest, acc => some (rest, acc)
  | left + 1, i, rest, acc =>
    let jloop_num := if i ≠ tmplooptime - 1 then loopNum else looptime % loopNum
    match readFully (reads i) (jloop_num * 4) rest with
    | none => none
    | some (tempBuf, rest) =>
      blockLoop reads looptime tmplooptime left (i + 1) rest ((words tempBuf).foldl checkSumStep acc)

/-- The tail behind the words, added to the sum. -/
def addTail (succeeds : Bool) (iLength : ℕ) :
    Option (List UInt8 × (UInt32 × Bool)) → Option UInt32
  | none => none
  | some (rest, acc) =>
    match readFully succeeds iLength rest with
    | none => none
    | some (tempNum, _) => some (acc.1 + leWord tempNum)

/-- The sum, none where a call fails. -/
def checkSumOf (calls : SumCalls) : Option (List UInt8) → Option UInt32
  | none => none
  | some file =>
    let iFileSize := file.length % 4294967296
    let looptime := iFileSize / 4
    let tmplooptime := looptime / loopNum + 1
    if calls.stats && calls.opens then
      addTail (calls.reads tmplooptime) (iFileSize % 4)
        (blockLoop calls.reads looptime tmplooptime tmplooptime 0 file (0, true))
    else none

/-- A failing call makes the function return 0. -/
def nvmComputeCheckSum (calls : SumCalls) (file : Option (List UInt8)) : UInt32 :=
  (checkSumOf calls file).getD 0

/-- The loop of the version that reads a word at a time. -/
def wordLoop (reads : ℕ → Bool) :
    ℕ → ℕ → List UInt8 → UInt32 × Bool → Option (List UInt8 × (UInt32 × Bool))
  | 0, _, rest, acc => some (rest, acc)
  | left + 1, i, rest, acc =>
    match readFully (reads i) 4 rest with
    | none => none
    | some (tempNum, rest) => wordLoop reads left (i + 1) rest (checkSumStep acc (leWord tempNum))

/-- The version under `#if 0`. -/
def nvmComputeCheckSumByWord (calls : SumCalls) : Option (List UInt8) → UInt32
  | none => 0
  | some file =>
    let iFileSize := file.length % 4294967296
    let looptime := iFileSize / 4
    if calls.stats && calls.opens then
      (addTail (calls.reads looptime) (iFileSize % 4)
        (wordLoop calls.reads looptime 0 file (0, true))).getD 0
    else 0

/-! ## The sum of a content -/

/-- The words in order, alternately xored and added, and the tail of up to three bytes. -/
def sumOf (content : List UInt8) : UInt32 :=
  ((words content).foldl checkSumStep (0, true)).1 +
    leWord (content.drop (4 * (content.length / 4)))

theorem words_append (k : ℕ) {block : List UInt8} (h : block.length = 4 * k) (rest : List UInt8) :
    words (block ++ rest) = words block ++ words rest := by
  induction k generalizing block with
  | zero =>
    rw [List.length_eq_zero_iff.mp h]
    rfl
  | succ k ih =>
    match block, h with
    | b₀ :: b₁ :: b₂ :: b₃ :: block, h =>
      simp only [List.length_cons] at h
      simp only [List.cons_append, words, ih (show block.length = 4 * k by omega)]

theorem words_short : ∀ {bytes : List UInt8}, bytes.length < 4 → words bytes = []
  | [], _ => rfl
  | [_], _ => rfl
  | [_, _], _ => rfl
  | [_, _, _], _ => rfl
  | _ :: _ :: _ :: _ :: _, h => by
    simp only [List.length_cons] at h
    omega

theorem words_take (content : List UInt8) :
    words (content.take (4 * (content.length / 4))) = words content := by
  have hblock : (content.take (4 * (content.length / 4))).length = 4 * (content.length / 4) := by
    rw [List.length_take]
    omega
  have htail : (content.drop (4 * (content.length / 4))).length < 4 := by
    rw [List.length_drop]
    omega
  have happend := words_append _ hblock (content.drop (4 * (content.length / 4)))
  rw [List.take_append_drop, words_short htail, List.append_nil] at happend
  exact happend.symm

theorem words_take_add (j k : ℕ) {rest : List UInt8} (h : 4 * j ≤ rest.length) :
    words (rest.take (4 * j + 4 * k)) =
      words (rest.take (4 * j)) ++ words ((rest.drop (4 * j)).take (4 * k)) := by
  rw [List.take_add, words_append j (by rw [List.length_take]; omega)]

theorem readFully_ok {count : ℕ} {rest : List UInt8} (h : count ≤ rest.length) :
    readFully true count rest = some (rest.take count, rest.drop count) :=
  if_pos ⟨rfl, h⟩

theorem readFully_fails (count : ℕ) (rest : List UInt8) : readFully false count rest = none :=
  if_neg fun h => Bool.false_ne_true h.1

theorem wordLoop_ok {reads : ℕ → Bool} (left i : ℕ) {rest : List UInt8} (acc : UInt32 × Bool)
    (hreads : ∀ j, reads j = true) (hlen : 4 * left ≤ rest.length) :
    wordLoop reads left i rest acc =
      some (rest.drop (4 * left), (words (rest.take (4 * left))).foldl checkSumStep acc) := by
  induction left generalizing i rest acc with
  | zero => rfl
  | succ left ih =>
    have hword : words (rest.take 4) = [leWord (rest.take 4)] := by
      match rest, hlen with
      | b₀ :: b₁ :: b₂ :: b₃ :: rest, _ => rfl
      | [_, _, _], hlen => simp only [List.length_cons, List.length_nil] at hlen; omega
      | [_, _], hlen => simp only [List.length_cons, List.length_nil] at hlen; omega
      | [_], hlen => simp only [List.length_cons, List.length_nil] at hlen; omega
      | [], hlen => simp only [List.length_nil] at hlen; omega
    have hsplit : words (rest.take (4 * 1 + 4 * left)) = _ := words_take_add 1 left (by omega)
    have hleft : 4 * left ≤ (rest.drop 4).length := by
      rw [List.length_drop]
      omega
    rw [Nat.mul_one, hword] at hsplit
    rw [wordLoop, hreads, readFully_ok (by omega), show 4 * (left + 1) = 4 + 4 * left by omega,
      hsplit, List.foldl_append]
    simp only [ih (i + 1) _ hleft, List.drop_drop]
    rfl

/-- The rounds from round i on take the words from the block of that round on. -/
theorem blockLoop_ok {reads : ℕ → Bool} {looptime tmplooptime : ℕ} (left i : ℕ)
    {rest : List UInt8} (acc : UInt32 × Bool) (hrounds : i + left + 1 = tmplooptime)
    (htmp : tmplooptime = looptime / loopNum + 1)
    (hreads : ∀ j < tmplooptime, reads j = true)
    (hlen : 4 * (looptime - i * loopNum) ≤ rest.length) :
    blockLoop reads looptime tmplooptime (left + 1) i rest acc =
      some (rest.drop (4 * (looptime - i * loopNum)),
        (words (rest.take (4 * (looptime - i * loopNum)))).foldl checkSumStep acc) := by
  induction left generalizing i rest acc with
  | zero =>
    have hlast : (if i ≠ tmplooptime - 1 then loopNum else looptime % loopNum) * 4 =
        4 * (looptime - i * loopNum) := by
      rw [if_neg (by omega)]
      have hdiv := Nat.div_add_mod looptime loopNum
      have hi : i = looptime / loopNum := by omega
      rw [hi, Nat.mul_comm (looptime / loopNum)]
      omega
    rw [blockLoop]
    simp only [hlast, hreads i (by omega), readFully_ok hlen, blockLoop]
  | succ left ih =>
    have hblock : (i + 1) * loopNum ≤ looptime := by
      rw [← Nat.le_div_iff_mul_le (by decide)]
      omega
    have hmul : (i + 1) * loopNum = i * loopNum + loopNum := Nat.succ_mul ..
    have hsum : 4 * (looptime - i * loopNum) =
        4 * loopNum + 4 * (looptime - (i + 1) * loopNum) := by omega
    have hfull : (if i ≠ tmplooptime - 1 then loopNum else looptime % loopNum) * 4 =
        4 * loopNum := by
      rw [if_pos (by omega), Nat.mul_comm]
    rw [hsum] at hlen ⊢
    rw [words_take_add _ _ (by omega), List.foldl_append, ← List.drop_drop, blockLoop]
    simp only [hfull, hreads i (by omega), readFully_ok (show 4 * loopNum ≤ rest.length by omega)]
    exact ih (i + 1) _ (by omega) (by rw [List.length_drop]; omega)

theorem addTail_ok {n : ℕ} {file : List UInt8} (hn : n ≤ file.length) (acc : UInt32 × Bool)
    (hacc : acc = (words ((file.take n).take (4 * (n / 4)))).foldl checkSumStep (0, true)) :
    addTail true (n % 4) (some (file.drop (4 * (n / 4)), acc)) = some (sumOf (file.take n)) := by
  have hlen : (file.take n).length = n := by
    rw [List.length_take]
    omega
  have htail : (file.drop (4 * (n / 4))).take (n % 4) = (file.take n).drop (4 * (n / 4)) := by
    rw [List.drop_take]
    congr 1
    omega
  have hwords := words_take (file.take n)
  rw [hlen] at hwords
  rw [addTail, readFully_ok (by rw [List.length_drop]; omega)]
  simp only [htail, hacc, hwords, sumOf, hlen]

/-- A call of the computation fails. -/
def SumFails (calls : SumCalls) : Option (List UInt8) → Prop
  | none => True
  | some file => calls.stats = false ∨ calls.opens = false ∨
      ∃ i ≤ file.length % 4294967296 / 4 / loopNum + 1, calls.reads i = false

theorem checkSumOf_some {calls : SumCalls} {file : List UInt8} (h : ¬ SumFails calls (some file)) :
    checkSumOf calls (some file) = some (sumOf (file.take (file.length % 4294967296))) := by
  simp only [SumFails, not_or, Bool.not_eq_false, not_exists, not_and] at h
  obtain ⟨hstat, hopen, hreads⟩ := h
  have hmod : file.length % 4294967296 ≤ file.length := Nat.mod_le ..
  have hlen : 4 * (file.length % 4294967296 / 4 - 0 * loopNum) ≤ file.length := by omega
  have hloop := blockLoop_ok (file.length % 4294967296 / 4 / loopNum) 0 (0, true) (by omega) rfl
    (fun j hj => hreads j (Nat.le_of_lt hj)) hlen
  simp only [Nat.zero_mul, Nat.sub_zero] at hloop
  simp only [checkSumOf, hstat, hopen, Bool.and_self, if_true, hloop, hreads _ (Nat.le_refl _)]
  apply addTail_ok hmod
  rw [List.take_take, Nat.min_eq_left (by omega)]

theorem blockLoop_fails {reads : ℕ → Bool} {looptime tmplooptime : ℕ} (left : ℕ) {i : ℕ}
    {rest : List UInt8} {acc : UInt32 × Bool} {j : ℕ} (hij : i ≤ j) (hj : j < i + left)
    (hread : reads j = false) :
    blockLoop reads looptime tmplooptime left i rest acc = none := by
  induction left generalizing i rest acc with
  | zero => omega
  | succ left ih =>
    rw [blockLoop]
    by_cases hnow : i = j
    · subst hnow
      simp only [hread, readFully_fails]
    · match readFully (reads i) _ rest with
      | none => rfl
      | some (tempBuf, rest) => exact ih (by omega) (by omega)

theorem checkSumOf_none {calls : SumCalls} {file : Option (List UInt8)} (h : SumFails calls file) :
    checkSumOf calls file = none := by
  cases file with
  | none => rfl
  | some file =>
    rcases h with h | h | ⟨i, hi, hread⟩
    · simp [checkSumOf, h]
    · simp [checkSumOf, h]
    · simp only [checkSumOf]
      by_cases hlast : i = file.length % 4294967296 / 4 / loopNum + 1
      · subst hlast
        simp only [hread]
        split
        · match blockLoop .. with
          | none => rfl
          | some (rest, acc) => simp only [addTail, readFully_fails]
        · rfl
      · rw [blockLoop_fails _ (Nat.zero_le i) (by omega) hread]
        simp [addTail]

theorem nvmComputeCheckSum_fails {calls : SumCalls} {file : Option (List UInt8)}
    (h : SumFails calls file) : nvmComputeCheckSum calls file = 0 := by
  rw [nvmComputeCheckSum, checkSumOf_none h, Option.getD_none]

theorem nvmComputeCheckSum_some {calls : SumCalls} {file : List UInt8}
    (h : ¬ SumFails calls (some file)) :
    nvmComputeCheckSum calls (some file) = sumOf (file.take (file.length % 4294967296)) := by
  rw [nvmComputeCheckSum, checkSumOf_some h, Option.getD_some]

theorem nvmComputeCheckSum_ok (file : List UInt8) :
    nvmComputeCheckSum .ok (some file) = sumOf (file.take (file.length % 4294967296)) := by
  apply nvmComputeCheckSum_some
  simp [SumFails, SumCalls.ok]

/-- Both versions compute the sum of the content, cut to the bytes that an unsigned int counts. -/
theorem nvmComputeCheckSum_eq_byWord (file : List UInt8) :
    nvmComputeCheckSum .ok (some file) = nvmComputeCheckSumByWord .ok (some file) ∧
    nvmComputeCheckSum .ok (some file) = sumOf (file.take (file.length % 4294967296)) ∧
    (file.length < 4294967296 → nvmComputeCheckSum .ok (some file) = sumOf file) := by
  have hblocks := nvmComputeCheckSum_ok file
  have hmod : file.length % 4294967296 ≤ file.length := Nat.mod_le ..
  have hwords : nvmComputeCheckSumByWord .ok (some file) =
      sumOf (file.take (file.length % 4294967296)) := by
    have hlen : 4 * (file.length % 4294967296 / 4) ≤ file.length := by omega
    have hreads : ∀ j, SumCalls.ok.reads j = true := fun _ => rfl
    have hloop := wordLoop_ok _ 0 (0, true) hreads hlen
    have htail := addTail_ok hmod _ rfl
    rw [List.take_take, Nat.min_eq_left (by omega)] at htail
    simp only [nvmComputeCheckSumByWord, hloop]
    exact congrArg (·.getD 0) htail
  refine ⟨hblocks.trans hwords.symm, hblocks, ?_⟩
  intro hlen
  rw [hblocks, Nat.mod_eq_of_lt hlen, List.take_length]

theorem words_replicate_zero (k : ℕ) : words (List.replicate (4 * k) 0) = List.replicate k 0 := by
  induction k with
  | zero => rfl
  | succ k ih =>
    rw [Nat.mul_succ, Nat.add_comm, List.replicate_add,
      words_append 1 (by rw [List.length_replicate]), ih, List.replicate_succ]
    rfl

theorem foldl_replicate_zero (k : ℕ) (acc : UInt32 × Bool) :
    ((List.replicate k 0).foldl checkSumStep acc).1 = acc.1 := by
  induction k generalizing acc with
  | zero => rfl
  | succ k ih =>
    rw [List.replicate_succ, List.foldl_cons, ih, checkSumStep]
    cases acc.2 with
    | false => simp
    | true => simp

theorem sumOf_one_zeros (k : ℕ) : sumOf ([1, 0, 0, 0] ++ List.replicate (4 * k) 0) = 1 := by
  have hlen : ([1, 0, 0, 0] ++ List.replicate (4 * k) (0 : UInt8)).length = 4 * (1 + k) := by
    rw [List.length_append, List.length_replicate, Nat.mul_add]
    rfl
  rw [sumOf, words_append 1 rfl, words_replicate_zero, List.foldl_append, foldl_replicate_zero,
    hlen, Nat.mul_div_cancel_left _ (by decide), ← hlen, List.drop_length]
  rfl

/-- Of a content of 4 GiB neither version reads a byte. -/
theorem checkSum_of_nothing :
    ¬ ∀ file : List UInt8,
      nvmComputeCheckSum .ok (some file) = nvmComputeCheckSumByWord .ok (some file) ∧
        nvmComputeCheckSum .ok (some file) = sumOf file := by
  intro h
  obtain ⟨k, hk⟩ : ∃ k, 4 + 4 * k = 4294967296 := ⟨1073741823, rfl⟩
  have hlen : ([1, 0, 0, 0] ++ List.replicate (4 * k) (0 : UInt8)).length = 4294967296 := by
    rw [List.length_append, List.length_replicate, ← hk]
    rfl
  have hsum := (h ([1, 0, 0, 0] ++ List.replicate (4 * k) 0)).2
  rw [nvmComputeCheckSum_ok, sumOf_one_zeros, hlen, Nat.mod_self, List.take_zero] at hsum
  revert hsum
  decide

example : nvmComputeCheckSum .ok (some [0x01, 0, 0, 0, 0x03, 0x01, 0, 0, 0x05]) = 0x109 := by
  decide

end CheckSum
