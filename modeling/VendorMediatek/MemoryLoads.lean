import VendorMediatek.CMemory

/-!
# Loads from memory

The bytes, words and strings that a program reads behind an address. A load of bytes fails on the
pieces of a pointer.
-/

namespace CMemory

def Cell.toByte : Cell → Option UInt8
  | .byte b => some b
  | .fragment _ _ => none

def loadBytes (view : View) : ℕ → Option (List UInt8)
  | 0 => some []
  | n + 1 => do
    let b ← (view 0).toByte
    return b :: (← loadBytes (view.drop 1) n)

/-- A string is read up to its terminator, which is looked for in the next n cells. -/
def loadString (view : View) : ℕ → Option (List UInt8)
  | 0 => none
  | n + 1 => do
    let b ← (view 0).toByte
    if b = 0 then return [] else return b :: (← loadString (view.drop 1) n)

/-- A word of 32 bits, lowest byte first. -/
def loadWord (view : View) : Option UInt32 := do
  let l ← loadBytes view 4
  return UInt32.ofNat (l.foldr (fun b n => b.toNat + 256 * n) 0)

theorem shows_cons {view : View} {b : UInt8} {l : List UInt8} :
    view.Shows (bytes (b :: l)) ↔ view 0 = .byte b ∧ (view.drop 1).Shows (bytes l) := by
  have hsplit : bytes (b :: l) = bytes [b] ++ bytes l := rfl
  rw [hsplit, shows_append, shows_bytes (l := [b])]
  refine and_congr_left fun _ => ⟨fun h => h 0 Nat.one_pos, fun h k hk => ?_⟩
  obtain rfl : k = 0 := Nat.lt_one_iff.mp hk
  exact h

theorem loadBytes_eq {view : View} {l : List UInt8} (h : view.Shows (bytes l)) :
    loadBytes view l.length = some l := by
  induction l generalizing view with
  | nil => rfl
  | cons b l ih =>
    obtain ⟨hb, hl⟩ := shows_cons.mp h
    simp only [List.length_cons, loadBytes, hb, Cell.toByte, ih hl]
    rfl

theorem loadString_eq {view : View} {l : List UInt8} (hzero : 0 ∉ l)
    (h : view.Shows (bytes (l ++ [0]))) {n : ℕ} (hn : l.length < n) :
    loadString view n = some l := by
  induction l generalizing view n with
  | nil =>
    obtain ⟨n, rfl⟩ := Nat.exists_eq_succ_of_ne_zero (Nat.ne_of_gt hn)
    simp only [loadString, (shows_cons.mp h).1, Cell.toByte]
    rfl
  | cons b l ih =>
    obtain ⟨n, rfl⟩ := Nat.exists_eq_succ_of_ne_zero (Nat.ne_zero_of_lt hn)
    obtain ⟨hb, hl⟩ := shows_cons.mp h
    have hne : b ≠ 0 := fun hb => hzero (hb ▸ List.mem_cons_self)
    have hrest := ih (fun hmem => hzero (List.mem_cons_of_mem b hmem)) hl (Nat.lt_of_succ_lt_succ hn)
    simp only [loadString, hb, Cell.toByte, hrest, Option.bind_eq_bind, Option.bind_some]
    rw [if_neg hne]
    rfl

theorem loadString_of_terminated {view : View} {l rest : List UInt8} (hzero : 0 ∉ l)
    (h : view.Shows (bytes (l ++ 0 :: rest))) {n : ℕ} (hn : l.length < n) :
    loadString view n = some l := by
  have hsplit : bytes (l ++ 0 :: rest) = bytes (l ++ [0]) ++ bytes rest := by simp [bytes]
  exact loadString_eq hzero (shows_append.mp (hsplit ▸ h)).1 hn

end CMemory
