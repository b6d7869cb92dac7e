import Mathlib.Algebra.GroupWithZero.Nat
import VendorMediatek.Faults
import VendorMediatek.NetlinkAttributes

/-!
# Netlink messages that are put together

A message has room for so many bytes. libnl puts an item at its end if it fits, and leaves the
message as it is otherwise. A nested attribute is started, and closed when all that belongs into it
has been put.
-/

namespace NetlinkMessages

open Faults NetlinkAttributes

universe u

inductive Item where
  | attr (type : ℕ) (data : List UInt8)
  | nestStart (type : ℕ)
  | nestEnd
  deriving DecidableEq, Repr

/-- The bytes that an item takes. -/
def Item.size : Item → ℕ
  | .attr _ data => NLA_ALIGN (NLA_HDRLEN + data.length)
  | .nestStart _ => NLA_HDRLEN
  | .nestEnd => 0

def total (items : List Item) : ℕ := (items.map Item.size).sum

structure Message where
  capacity : ℕ
  used : ℕ
  items : List Item
  deriving DecidableEq, Repr

def u32Bytes (x : UInt32) : List UInt8 :=
  [x.toUInt8, (x >>> 8).toUInt8, (x >>> 16).toUInt8, (x >>> 24).toUInt8]

namespace Message

/-- The message with more items at its end. -/
def append (msg : Message) (items : List Item) : Message :=
  { msg with used := msg.used + total items, items := msg.items ++ items }

def Fits (msg : Message) (items : List Item) : Prop := msg.used + total items ≤ msg.capacity

instance (msg : Message) (items : List Item) : Decidable (msg.Fits items) :=
  inferInstanceAs (Decidable (_ ≤ _))

section Put

variable {ε : Type u} (full : ε)

def put (msg : Message) (item : Item) : Except ε Message :=
  if msg.Fits [item] then .ok (msg.append [item]) else .error full

/-- One put after the other, up to the first that fails. -/
def putAll (msg : Message) (items : List Item) : Except ε Message := items.foldlM (put full) msg

end Put

/-- nla_nest_start gives a null pointer when the header does not fit. -/
def nestStart (msg : Message) (type : ℕ) : Option ℕ × Message :=
  if msg.Fits [.nestStart type] then (some msg.used, msg.append [.nestStart type])
  else (none, msg)

/-- nla_nest_end writes the length into the attribute that was started. -/
def nestEnd (msg : Message) (start : Option ℕ) : Checked Message := do
  let _ ← deref start
  return msg.append [.nestEnd]

/-! ## What fits -/

@[simp] theorem append_nil (msg : Message) : msg.append [] = msg := by
  simp [append, total]

@[simp] theorem append_append (msg : Message) (xs ys : List Item) :
    (msg.append xs).append ys = msg.append (xs ++ ys) := by
  simp [append, total, Nat.add_assoc]

@[simp] theorem append_items (msg : Message) (xs : List Item) :
    (msg.append xs).items = msg.items ++ xs := rfl

theorem append_fits_iff {msg : Message} {xs ys : List Item} :
    (msg.append xs).Fits ys ↔ msg.Fits (xs ++ ys) := by
  simp [Fits, append, total, Nat.add_assoc]

theorem fits_of_append {msg : Message} {xs ys : List Item} (h : msg.Fits (xs ++ ys)) :
    msg.Fits xs := by
  simp only [Fits, total, List.map_append, List.sum_append] at *
  omega

section Put

variable {ε : Type u} {full : ε} {msg : Message}

theorem putAll_singleton (item : Item) : msg.putAll full [item] = msg.put full item := by
  rw [putAll, List.foldlM_cons]
  exact bind_pure _

theorem putAll_append (xs ys : List Item) :
    msg.putAll full (xs ++ ys) = msg.putAll full xs >>= (putAll full · ys) :=
  List.foldlM_append

theorem putAll_of_fits {items : List Item} (h : msg.Fits items) :
    msg.putAll full items = .ok (msg.append items) := by
  induction items generalizing msg with
  | nil => exact congrArg Except.ok (append_nil msg).symm
  | cons item items ih =>
    have hfirst : msg.Fits [item] := @fits_of_append msg [item] items h
    have hput : msg.put full item = .ok (msg.append [item]) := if_pos hfirst
    have hrest : (msg.append [item]).Fits items := append_fits_iff.mpr h
    rw [putAll, List.foldlM_cons, hput]
    exact (ih hrest).trans (congrArg Except.ok (append_append msg [item] items))

theorem putAll_of_not_fits {items : List Item} (h0 : items = [] → msg.Fits [])
    (h : ¬msg.Fits items) : msg.putAll full items = .error full := by
  induction items generalizing msg with
  | nil => exact absurd (h0 rfl) h
  | cons item items ih =>
    rw [putAll, List.foldlM_cons]
    by_cases hfirst : msg.Fits [item]
    · have hput : msg.put full item = .ok (msg.append [item]) := if_pos hfirst
      have hroom : (msg.append [item]).Fits [] := append_fits_iff.mpr (by simpa using hfirst)
      have hrest : ¬(msg.append [item]).Fits items := fun hrest => h (append_fits_iff.mp hrest)
      rw [hput]
      exact ih (fun _ => hroom) hrest
    · have hput : msg.put full item = .error full := if_neg hfirst
      rw [hput]
      rfl

/-- A nest whose header does not fit has no room for an attribute either. -/
theorem put_nestStart (type : ℕ) (attr : ℕ) (data : List UInt8) :
    (msg.nestStart type).2.put full (.attr attr data) =
      msg.putAll full [.nestStart type, .attr attr data] := by
  by_cases h : msg.Fits [.nestStart type]
  · have hnest : msg.put full (.nestStart type) = .ok (msg.append [.nestStart type]) := if_pos h
    rw [nestStart, if_pos h, putAll, List.foldlM_cons, hnest]
    exact (bind_pure _).symm
  · have hnest : msg.put full (.nestStart type) = .error full := if_neg h
    have hattr : ¬msg.Fits [.attr attr data] := by
      have halign := Iterator.le_NLA_ALIGN (NLA_HDRLEN + data.length)
      simp only [Fits, total, List.map_singleton, List.sum_singleton, Item.size] at *
      omega
    rw [nestStart, if_neg h, putAll, List.foldlM_cons, hnest]
    exact if_neg hattr

end Put

end Message

end NetlinkMessages
