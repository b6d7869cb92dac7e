import VendorMediatek.AccessTraces
import VendorMediatek.FirmwareInit
import VendorMediatek.H4Receive

/-!
# The bytes that an event's handlers read

`VendorInterface::HandleIncomingEvent` and the completion callbacks on the bytes of the packet. They
read at fixed offsets; what stands behind the packet is arbitrary.
-/

namespace EventBounds

open FirmwareInit AccessTraces
open H4Receive (H4Packet)

/-- A packet, and the bytes that a read behind its end finds. -/
structure EventPacket where
  bytes : List UInt8
  behind : ℕ → UInt8

def EventPacket.byteAt (p : EventPacket) (i : ℕ) : UInt8 := p.bytes.getD i (p.behind i)

/-- A read of `packet[i]`, or through p in the copy. -/
def EventPacket.read (p : EventPacket) (i : ℕ) : Traced UInt8 :=
  .touch [⟨p.bytes.length, i, 1⟩] (.pure (p.byteAt i))

/-- Two bytes, the low one first. -/
def EventPacket.readUint16 (p : EventPacket) (i : ℕ) : Traced UInt16 :=
  (p.read i).bind fun lo => (p.read (i + 1)).bind fun hi =>
    .pure (lo.toUInt16 ||| hi.toUInt16 <<< 8)

def hciEventPreambleSize : ℕ := 2

def internalCommandEventMatch (s : State) (p : EventPacket) : Traced Bool :=
  (p.read 0).bind fun eventCode =>
    if eventCode ≠ hciCommandCompleteEvent then .pure false
    else
      (p.readUint16 (hciEventPreambleSize + 1)).bind fun opcode =>
        .pure (opcode = s.internalCommand.opcode)

/-- The copy reads the packet from end to end. -/
def wrapPacketAndCopy (p : EventPacket) : Traced Unit :=
  .touch [⟨p.bytes.length, 0, p.bytes.length⟩] (.pure ())

/-- How both callbacks start: the event code, the opcode and the status. -/
def readStatus (p : EventPacket) : Traced (UInt8 × UInt16 × UInt8) :=
  (p.read 0).bind fun event => (p.readUint16 3).bind fun opcode => (p.read 5).bind fun status =>
    .pure (event, opcode, status)

/-- The address is read whatever the status says. -/
def gormevtHceGetLocalBdAddr (p : EventPacket) : Traced HciEvent :=
  (readStatus p).bind fun (event, opcode, status) =>
    (p.read 6).bind fun a5 => (p.read 7).bind fun a4 => (p.read 8).bind fun a3 =>
      (p.read 9).bind fun a2 => (p.read 10).bind fun a1 => (p.read 11).bind fun a0 =>
        .pure ⟨event, opcode, status, [a0, a1, a2, a3, a4, a5]⟩

def gormevtHceCommonComplete (p : EventPacket) : Traced HciEvent :=
  (readStatus p).bind fun (event, opcode, status) => .pure ⟨event, opcode, status, []⟩

def CompletionCallback.fields (p : EventPacket) : CompletionCallback → Traced HciEvent
  | .getLocalBdAddr => gormevtHceGetLocalBdAddr p
  | .commonComplete => gormevtHceCommonComplete p

/-- An event that no internal command waits for goes to event_cb_ as it is. -/
def handleIncomingEvent (s : State) (p : EventPacket) : Traced State :=
  match s.internalCommand.cb with
  | none => .pure s
  | some cb =>
    (internalCommandEventMatch s p).bind fun found =>
      if found then
        (wrapPacketAndCopy p).bind fun _ => (CompletionCallback.fields p cb).bind fun ev =>
          .pure (cb.run { s with internalCommand := { s.internalCommand with cb := none } } ev)
      else .pure s

/-! ## What a read needs and yields -/

def EventPacket.uint16At (p : EventPacket) (i : ℕ) : UInt16 :=
  (p.byteAt i).toUInt16 ||| (p.byteAt (i + 1)).toUInt16 <<< 8

section Reads

variable (p : EventPacket) (i : ℕ)

@[simp] theorem read_result : (p.read i).result = some (p.byteAt i) := rfl

@[simp] theorem readUint16_result : (p.readUint16 i).result = some (p.uint16At i) := rfl

@[simp] theorem read_inBounds : (p.read i).InBounds ↔ i < p.bytes.length := by
  simp only [EventPacket.read, Traced.inBounds_touch, Traced.inBounds_pure, and_true,
    List.forall_mem_singleton, Access.InBounds]
  omega

@[simp] theorem readUint16_inBounds : (p.readUint16 i).InBounds ↔ i + 1 < p.bytes.length := by
  simp only [EventPacket.readUint16, Traced.inBounds_bind, read_inBounds, read_result,
    Option.mem_def, Option.some.injEq, forall_eq', Traced.inBounds_pure, and_true]
  omega

end Reads

@[simp] theorem wrapPacketAndCopy_inBounds (p : EventPacket) : (wrapPacketAndCopy p).InBounds := by
  simp [wrapPacketAndCopy, Access.InBounds]

@[simp] theorem wrapPacketAndCopy_result (p : EventPacket) :
    (wrapPacketAndCopy p).result = some () := rfl

/-! ## The handlers -/

/-- The event in the bytes of a packet. -/
def EventPacket.event (p : EventPacket) : HciEvent where
  code := p.byteAt 0
  opcode := p.uint16At 3
  status := p.byteAt 5
  bdAddr := [p.byteAt 11, p.byteAt 10, p.byteAt 9, p.byteAt 8, p.byteAt 7, p.byteAt 6]

/-- How far into the packet a callback reads. -/
def CompletionCallback.extent : CompletionCallback → ℕ
  | .getLocalBdAddr => 12
  | .commonComplete => 6

theorem internalCommandEventMatch_result (s : State) (p : EventPacket) :
    (internalCommandEventMatch s p).result =
      some (FirmwareInit.internalCommandEventMatch s p.event) := by
  rw [internalCommandEventMatch, Traced.result_bind_of_some (read_result p 0)]
  by_cases hcode : p.byteAt 0 = hciCommandCompleteEvent
  · rw [if_neg (not_not.mpr hcode), Traced.result_bind_of_some (readUint16_result p _)]
    simp [FirmwareInit.internalCommandEventMatch, EventPacket.event, hcode, hciEventPreambleSize,
      Traced.pure]
    rfl
  · rw [if_pos hcode]
    simp [FirmwareInit.internalCommandEventMatch, EventPacket.event, hcode, Traced.pure]

theorem internalCommandEventMatch_inBounds_iff (s : State) (p : EventPacket) :
    (internalCommandEventMatch s p).InBounds ↔
      0 < p.bytes.length ∧ (p.event.code = hciCommandCompleteEvent → 4 < p.bytes.length) := by
  rw [internalCommandEventMatch, Traced.inBounds_bind_of_some (read_result p 0), read_inBounds]
  refine and_congr_right fun _ => ?_
  by_cases hcode : p.byteAt 0 = hciCommandCompleteEvent
  · rw [if_neg (not_not.mpr hcode), Traced.inBounds_bind_of_some (readUint16_result p _),
      readUint16_inBounds, and_iff_left (Traced.inBounds_pure _)]
    exact ⟨fun h _ => h, fun h => h hcode⟩
  · rw [if_pos hcode]
    exact iff_of_true (Traced.inBounds_pure _) fun h => absurd h hcode

theorem readStatus_result (p : EventPacket) :
    (readStatus p).result = some (p.event.code, p.event.opcode, p.event.status) := rfl

theorem readStatus_inBounds_iff (p : EventPacket) :
    (readStatus p).InBounds ↔ 6 ≤ p.bytes.length := by
  rw [readStatus, Traced.inBounds_bind_of_some (read_result p 0),
    Traced.inBounds_bind_of_some (readUint16_result p 3),
    Traced.inBounds_bind_of_some (read_result p 5), read_inBounds, readUint16_inBounds,
    read_inBounds, and_iff_left (Traced.inBounds_pure _)]
  omega

theorem fields_inBounds_iff (p : EventPacket) (cb : CompletionCallback) :
    (CompletionCallback.fields p cb).InBounds ↔ CompletionCallback.extent cb ≤ p.bytes.length := by
  cases cb with
  | getLocalBdAddr =>
    rw [CompletionCallback.fields, gormevtHceGetLocalBdAddr,
      Traced.inBounds_bind_of_some (readStatus_result p), readStatus_inBounds_iff]
    simp only [Traced.inBounds_bind, read_inBounds, read_result, Option.mem_def, Option.some.injEq,
      forall_eq', Traced.inBounds_pure, and_true, CompletionCallback.extent]
    omega
  | commonComplete =>
    rw [CompletionCallback.fields, gormevtHceCommonComplete,
      Traced.inBounds_bind_of_some (readStatus_result p), readStatus_inBounds_iff]
    exact and_iff_left (Traced.inBounds_pure _)

/-- A callback does with the fields it reads what it does with the event in the packet. -/
theorem fields_run (s : State) (p : EventPacket) (cb : CompletionCallback) :
    ∃ ev, (CompletionCallback.fields p cb).result = some ev ∧ cb.run s ev = cb.run s p.event := by
  cases cb with
  | getLocalBdAddr => exact ⟨p.event, rfl, rfl⟩
  | commonComplete => exact ⟨{ p.event with bdAddr := [] }, rfl, rfl⟩

/-- The handlers on the bytes do what they do with the event in them. -/
theorem handleIncomingEvent_result (s : State) (p : EventPacket) :
    (handleIncomingEvent s p).result = some (FirmwareInit.handleIncomingEvent s p.event) := by
  rw [handleIncomingEvent, FirmwareInit.handleIncomingEvent]
  cases s.internalCommand.cb with
  | none => rfl
  | some cb =>
    dsimp only
    rw [Traced.result_bind_of_some (internalCommandEventMatch_result s p)]
    split
    · obtain ⟨ev, hev, hrun⟩ :=
        fields_run { s with internalCommand := { s.internalCommand with cb := none } } p cb
      rw [Traced.result_bind_of_some (wrapPacketAndCopy_result p), Traced.result_bind_of_some hev,
        ← hrun]
      rfl
    · rfl

theorem handleIncomingEvent_inBounds_iff (s : State) (p : EventPacket) :
    (handleIncomingEvent s p).InBounds ↔
      ∀ cb ∈ s.internalCommand.cb, 0 < p.bytes.length ∧
        (p.event.code = hciCommandCompleteEvent → 4 < p.bytes.length ∧
          (p.event.opcode = s.internalCommand.opcode →
            CompletionCallback.extent cb ≤ p.bytes.length)) := by
  rw [handleIncomingEvent]
  cases s.internalCommand.cb with
  | none => exact iff_of_true (Traced.inBounds_pure s) nofun
  | some cb =>
    dsimp only
    rw [Traced.inBounds_bind_of_some (internalCommandEventMatch_result s p),
      internalCommandEventMatch_inBounds_iff]
    have hcopy : ((wrapPacketAndCopy p).bind fun _ =>
        (CompletionCallback.fields p cb).bind fun ev =>
          .pure (cb.run { s with internalCommand := { s.internalCommand with cb := none } }
            ev)).InBounds ↔ CompletionCallback.extent cb ≤ p.bytes.length := by
      rw [Traced.inBounds_bind, and_iff_right (wrapPacketAndCopy_inBounds p)]
      simp only [Option.mem_def, wrapPacketAndCopy_result, forall_const, Traced.inBounds_bind,
        fields_inBounds_iff, Traced.inBounds_pure, implies_true, and_true]
    by_cases hm : FirmwareInit.internalCommandEventMatch s p.event = true
    · have hboth := of_decide_eq_true hm
      rw [if_pos hm, hcopy]
      simp only [Option.mem_def, Option.some.injEq, forall_eq', hboth.1, hboth.2, true_implies]
      rw [and_assoc]
    · rw [if_neg hm, and_iff_left (Traced.inBounds_pure s)]
      have hnot : p.event.code = hciCommandCompleteEvent →
          p.event.opcode ≠ s.internalCommand.opcode := fun hc ho => hm (decide_eq_true ⟨hc, ho⟩)
      simp only [Option.mem_def, Option.some.injEq, forall_eq']
      refine and_congr_right fun _ => forall_congr' fun hc => ?_
      exact (and_iff_left fun ho => absurd ho (hnot hc)).symm

theorem event_length {p : H4Packet} (hp : p.kind = .eventCb) :
    p.body.length = 2 + p.payload.length := by
  rw [p.body_length, ← p.payload_length, hp]
  rfl

/-- For an event as the packetizer delivers it, with at least one parameter, all that is read lies
in the packet exactly if no callback is pending, or the event completes no command, or its
parameters reach as far as the opcode and, where this is the pending one, as the callback reads. -/
theorem event_reads_inBounds_iff (s : State) {p : H4Packet} (hp : p.kind = .eventCb)
    (behind : ℕ → UInt8) :
    (handleIncomingEvent s ⟨p.body, behind⟩).InBounds ↔
      ∀ cb ∈ s.internalCommand.cb, EventPacket.byteAt ⟨p.body, behind⟩ 0 = hciCommandCompleteEvent →
        3 ≤ p.payload.length ∧
          (EventPacket.uint16At ⟨p.body, behind⟩ 3 = s.internalCommand.opcode →
            CompletionCallback.extent cb ≤ 2 + p.payload.length) := by
  rw [handleIncomingEvent_inBounds_iff, event_length hp]
  refine forall_congr' fun cb => forall_congr' fun _ => ?_
  constructor
  · rintro ⟨_, h⟩ hcode
    obtain ⟨hlen, hcb⟩ := h hcode
    exact ⟨by omega, hcb⟩
  · intro h
    refine ⟨by omega, fun hcode => ?_⟩
    obtain ⟨hlen, hcb⟩ := h hcode
    exact ⟨by omega, hcb⟩

/-- The thread waits for the answer to HCI_Read_BD_ADDR. -/
def addressPending : State :=
  { FirmwareInit.initial with internalCommand := ⟨some .getLocalBdAddr, 0x1009⟩ }

/-- A complete answer: status and address. -/
def addressEvent : H4Packet where
  kind := .eventCb
  preamble := [14, 10]
  payload := [1, 9, 16, 0, 6, 5, 4, 3, 2, 1]
  preamble_length := rfl
  payload_length := rfl
  payload_ne := by decide

/-- An answer that is only an error status. -/
def addressError : H4Packet where
  kind := .eventCb
  preamble := [14, 4]
  payload := [1, 9, 16, 12]
  preamble_length := H4Receive.commandCompleteEvent.preamble_length
  payload_length := rfl
  payload_ne := by decide

theorem addressEvent_reads_inBounds :
    (handleIncomingEvent addressPending ⟨addressEvent.body, fun _ => 0⟩).InBounds :=
  (event_reads_inBounds_iff addressPending (p := addressEvent) rfl _).mpr (by
    rintro cb ⟨⟩ -
    decide)

theorem addressError_reads_outside :
    ¬(handleIncomingEvent addressPending ⟨addressError.body, fun _ => 0⟩).InBounds := by
  intro h
  exact absurd (h ⟨6, 6, 1⟩ (by decide)) (by decide)

end EventBounds
