import VendorMediatek.H4Receive

/-!
# HCI packets sent over the UART

`H4Protocol::Send` writes a packet with one writev, `HciProtocol::WriteSafely` with as many calls of
write as it takes. What the UART answers to each call is arbitrary.
-/

namespace HciSend

open H4Receive

/-- What comes of one call of write or writev. A ssize_t is below 2 ^ bits. -/
inductive WriteOutcome (bits : ℕ) where
  | sent (n : Fin (2 ^ bits))
  | eagain
  | eintr
  | error
  deriving DecidableEq, Repr

variable {bits : ℕ}

def sizeT (bits : ℕ) (ret : ℤ) : ℕ := (ret % 2 ^ (bits + 1)).toNat

/-- What a send leaves on the wire and returns, and whether a call that it made failed: with an
error, or by taking nothing. -/
structure Sent where
  wire : List UInt8
  count : ℕ
  failed : Bool
  deriving DecidableEq, Repr

/-- The two loops around writev: TEMP_FAILURE_RETRY for EINTR, and the one for EAGAIN. -/
def writevRetried : List (WriteOutcome bits) → Option (WriteOutcome bits)
  | [] => none
  | .eintr :: outcomes => writevRetried outcomes
  | .eagain :: outcomes => writevRetried outcomes
  | o :: _ => some o

/-- H4Protocol::Send; none while it has not returned. -/
def h4Send (type : UInt8) (data : List UInt8) (outcomes : List (WriteOutcome bits)) : Option Sent :=
  match writevRetried outcomes with
  | none => none
  | some (.sent n) =>
    let ret := min n.val (data.length + 1)
    some ⟨(type :: data).take ret, sizeT bits ret, ret = 0⟩
  | some _ => some ⟨[], sizeT bits (-1), true⟩

def writeSafelyFrom : List (WriteOutcome bits) → ℕ → List UInt8 → Option Sent
  | [], transmitted, data => if data = [] then some ⟨[], transmitted, false⟩ else none
  | o :: outcomes, transmitted, data =>
    if data = [] then some ⟨[], transmitted, false⟩
    else
      match o with
      | .eintr => writeSafelyFrom outcomes transmitted data
      | .eagain => writeSafelyFrom outcomes transmitted data
      | .error => some ⟨[], transmitted, true⟩
      | .sent n =>
        let ret := min n.val data.length
        if ret = 0 then some ⟨[], transmitted, true⟩
        else
          match writeSafelyFrom outcomes (transmitted + ret) (data.drop ret) with
          | none => none
          | some r => some { r with wire := data.take ret ++ r.wire }

def writeSafely (data : List UInt8) (outcomes : List (WriteOutcome bits)) : Option Sent :=
  writeSafelyFrom outcomes 0 data

inductive MctChannel where
  | cmd | aclOut
  deriving DecidableEq, Repr

/-- MctProtocol::Send, none for a type that is fatal: the channel and what comes of the write. -/
def mctSend (type : UInt8) (data : List UInt8) (outcomes : List (WriteOutcome bits)) :
    Option (MctChannel × Option Sent) :=
  if type = HciPacketType.command.toByte then some (.cmd, writeSafely data outcomes)
  else if type = HciPacketType.aclData.toByte then some (.aclOut, writeSafely data outcomes)
  else none

/-- The whole message is on the wire, or a call failed, a prefix is there and the count says how
many bytes. -/
def Sent.Guaranteed (message : List UInt8) (r : Sent) : Prop :=
  (r.wire = message ∧ r.count = message.length) ∨
    (r.failed ∧ r.wire <+: message ∧ r.count = r.wire.length)

def WriteOutcome.final : WriteOutcome bits → Bool
  | .eintr | .eagain => false
  | _ => true

/-! ## WriteSafely -/

theorem writeSafelyFrom_guaranteed {outcomes : List (WriteOutcome bits)} {transmitted : ℕ}
    {data : List UInt8} {r : Sent} (h : writeSafelyFrom outcomes transmitted data = some r) :
    (r.wire = data ∨ r.failed ∧ r.wire <+: data) ∧ r.count = transmitted + r.wire.length := by
  induction outcomes generalizing transmitted data r with
  | nil =>
    simp only [writeSafelyFrom] at h
    split at h
    · rename_i hdata
      cases h
      exact ⟨Or.inl hdata.symm, rfl⟩
    · cases h
  | cons o outcomes ih =>
    simp only [writeSafelyFrom] at h
    split at h
    · rename_i hdata
      cases h
      exact ⟨Or.inl hdata.symm, rfl⟩
    · cases o with
      | eagain => exact ih h
      | eintr => exact ih h
      | error =>
        cases h
        exact ⟨Or.inr ⟨rfl, List.nil_prefix⟩, rfl⟩
      | sent n =>
        dsimp only at h
        split at h
        · cases h
          exact ⟨Or.inr ⟨rfl, List.nil_prefix⟩, rfl⟩
        · split at h
          · cases h
          · rename_i rest hrest
            cases h
            obtain ⟨hwire, hcount⟩ := ih hrest
            have hsplit := List.take_append_drop (min n.val data.length) data
            refine ⟨?_, ?_⟩
            · rcases hwire with hw | ⟨hf, hp⟩
              · left
                dsimp only
                rw [hw, hsplit]
              · right
                refine ⟨hf, ?_⟩
                conv => rhs; rw [← hsplit]
                exact (List.prefix_append_right_inj _).mpr hp
            · dsimp only
              rw [hcount, List.length_append, List.length_take_of_le (Nat.min_le_right _ _)]
              omega

theorem writeSafely_guaranteed {data : List UInt8} {outcomes : List (WriteOutcome bits)} {r : Sent}
    (h : writeSafely data outcomes = some r) : r.Guaranteed data := by
  obtain ⟨hwire | ⟨hf, hp⟩, hcount⟩ := writeSafelyFrom_guaranteed h
  · exact Or.inl ⟨hwire, by rw [hcount, hwire, Nat.zero_add]⟩
  · exact Or.inr ⟨hf, hp, by rw [hcount, Nat.zero_add]⟩

theorem mctSend_guaranteed {type : UInt8} {data : List UInt8} {outcomes : List (WriteOutcome bits)}
    {channel : MctChannel} {r : Sent} (h : mctSend type data outcomes = some (channel, some r)) :
    r.Guaranteed data := by
  rw [mctSend] at h
  split at h
  · exact writeSafely_guaranteed (congrArg Prod.snd (Option.some.inj h))
  · split at h
    · exact writeSafely_guaranteed (congrArg Prod.snd (Option.some.inj h))
    · cases h

/-! ## The vectored send -/

theorem writevRetried_eq (outcomes : List (WriteOutcome bits)) :
    writevRetried outcomes = outcomes.find? WriteOutcome.final := by
  induction outcomes with
  | nil => rfl
  | cons o outcomes ih => cases o <;> first | exact ih | rfl

theorem sizeT_of_lt {n : ℕ} (h : n < 2 ^ bits) : sizeT bits n = n := by
  have hlt : n < 2 ^ (bits + 1) := h.trans (Nat.pow_lt_pow_right (by decide) bits.lt_succ_self)
  rw [sizeT, Int.emod_eq_of_lt (by omega) (by exact_mod_cast hlt)]
  exact Int.toNat_natCast n

theorem sizeT_neg_one_pos (bits : ℕ) : 0 < sizeT bits (-1) := by
  have hone : (1 : ℤ) < 2 ^ (bits + 1) := by
    exact_mod_cast Nat.one_lt_two_pow bits.succ_ne_zero
  have hdvd : ¬(2 : ℤ) ^ (bits + 1) ∣ -1 := fun h => by
    have := Int.le_of_dvd one_pos (Int.dvd_neg.mp h)
    omega
  rcases Int.emod_pos_of_not_dvd hdvd with hz | hpos
  · omega
  · exact Int.pos_iff_toNat_pos.mp hpos

theorem h4Send_returns_iff (type : UInt8) (data : List UInt8)
    (outcomes : List (WriteOutcome bits)) :
    (h4Send type data outcomes).isSome ↔ ∃ o ∈ outcomes, o.final := by
  rw [← List.find?_isSome, ← writevRetried_eq, h4Send]
  cases writevRetried outcomes with
  | none => simp
  | some o => cases o <;> simp

/-- What the first final outcome must be: a write of the whole packet, or of nothing. -/
def WriteOutcome.WholeOrNone (size : ℕ) (o : WriteOutcome bits) : Prop :=
  ∃ n, o = .sent n ∧ (size ≤ n.val ∨ n.val = 0)

theorem error_not_guaranteed (message : List UInt8) :
    ¬Sent.Guaranteed message ⟨[], sizeT bits (-1), true⟩ := by
  have hpos := sizeT_neg_one_pos bits
  rintro (⟨hw, hc⟩ | ⟨_, _, hc⟩)
  · rw [← hw] at hc
    exact hpos.ne' hc
  · exact hpos.ne' hc

theorem written_guaranteed_iff (message : List UInt8) {ret : ℕ} (hr : ret ≤ message.length) :
    Sent.Guaranteed message ⟨message.take ret, ret, ret = 0⟩ ↔ ret = message.length ∨ ret = 0 := by
  constructor
  · rintro (⟨_, hc⟩ | ⟨hf, _, _⟩)
    · exact Or.inl hc
    · exact Or.inr (of_decide_eq_true hf)
  · rintro (rfl | rfl)
    · exact Or.inl ⟨List.take_length, rfl⟩
    · exact Or.inr ⟨rfl, List.nil_prefix, rfl⟩

/-- A send that returns meets the guarantee exactly if the first outcome that is not repeated is a
write of the whole packet, or of nothing. -/
theorem h4Send_guaranteed_iff (type : UInt8) (data : List UInt8)
    (outcomes : List (WriteOutcome bits)) :
    (∀ r ∈ h4Send type data outcomes, r.Guaranteed (type :: data)) ↔
      ∀ o ∈ outcomes.find? WriteOutcome.final, o.WholeOrNone (data.length + 1) := by
  rw [h4Send, writevRetried_eq]
  cases hfind : outcomes.find? WriteOutcome.final with
  | none => simp
  | some o =>
    have hfinal := List.find?_some hfind
    simp only [Option.mem_def, Option.some.injEq, forall_eq']
    cases o with
    | eagain => cases hfinal
    | eintr => cases hfinal
    | error =>
      simp only [Option.some.injEq, forall_eq']
      exact iff_of_false (error_not_guaranteed _) fun ⟨_, hn, _⟩ => by cases hn
    | sent n =>
      have hret : min n.val (data.length + 1) < 2 ^ bits := (Nat.min_le_left _ _).trans_lt n.isLt
      have hsize : min n.val (data.length + 1) ≤ (type :: data).length := Nat.min_le_right _ _
      simp only [Option.some.injEq, forall_eq', sizeT_of_lt hret]
      rw [written_guaranteed_iff (type :: data) hsize, List.length_cons]
      constructor
      · intro h
        exact ⟨n, rfl, by omega⟩
      · rintro ⟨m, hm, h⟩
        cases hm
        omega

/-- Three bytes of a four byte packet are taken, and the next packet follows them. -/
theorem h4Send_short :
    h4Send 1 [3, 12, 0] ([.eintr, .eagain, .sent 3] : List (WriteOutcome 31)) =
        some ⟨[1, 3, 12], 3, false⟩ ∧
      ¬Sent.Guaranteed [1, 3, 12, 0] ⟨[1, 3, 12], 3, false⟩ ∧
      writeSafely [1, 3, 12, 0] ([.eintr, .eagain, .sent 3, .sent 9] : List (WriteOutcome 31)) =
        some ⟨[1, 3, 12, 0], 4, false⟩ := by
  refine ⟨by decide, ?_, by decide⟩
  rintro (⟨h, _⟩ | ⟨h, _⟩)
  · exact absurd h (by decide)
  · exact absurd h (by decide)

end HciSend
