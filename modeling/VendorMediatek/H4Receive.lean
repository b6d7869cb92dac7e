import VendorMediatek.LabelledRuns
import VendorMediatek.ByteFile

/-!
# HCI packets received over the UART

`H4Protocol::OnDataReady` and `HciPacketizer::OnDataReady`. The UART answers a read of n bytes
with any non-empty part of them; the packets handed to the callbacks are compared with the
parse of the bytes consumed so far.
-/

namespace H4Receive

open LabelledRuns ByteFile

inductive HciPacketType where
  | unknown | command | aclData | scoData | event
  deriving DecidableEq, Repr

def HciPacketType.toByte : HciPacketType → UInt8
  | .unknown => 0
  | .command => 1
  | .aclData => 2
  | .scoData => 3
  | .event => 4

/-- The cast of the type byte, none where the byte is no enumerator. -/
def HciPacketType.ofByte (b : UInt8) : Option HciPacketType :=
  [.unknown, .command, .aclData, .scoData, .event].find? fun t => t.toByte = b

def preambleSizeForType : HciPacketType → ℕ
  | .unknown => 0
  | .command => 3
  | .aclData => 4
  | .scoData => 3
  | .event => 2

def packetLengthOffsetForType : HciPacketType → ℕ
  | .unknown => 0
  | .command => 2
  | .aclData => 2
  | .scoData => 2
  | .event => 1

def hciPreambleSizeMax : ℕ := 4

def hciGetPacketLengthForType (type : HciPacketType) (preamble : List UInt8) : ℕ :=
  let offset := packetLengthOffsetForType type
  if type ≠ .aclData then (preamble.getD offset 0).toNat
  else ((preamble.getD (offset + 1) 0).toNat <<< 8) ||| (preamble.getD offset 0).toNat

inductive PacketizerState where
  | hciPreamble | hciPayload
  deriving DecidableEq, Repr

structure HciPacketizer where
  state : PacketizerState
  preamble : List UInt8
  packet : List UInt8
  bytesRemaining : ℕ
  bytesRead : ℕ
  deriving Repr

def resize (vec : List UInt8) (size : ℕ) : List UInt8 :=
  vec.take size ++ List.replicate (size - vec.length) 0

/-- The bytes that were read and whether packet_ready_cb_ ran; none is LOG_ALWAYS_FATAL. -/
def HciPacketizer.onDataReady (p : HciPacketizer) (read : ℕ → List UInt8)
    (packetType : HciPacketType) : Option (HciPacketizer × List UInt8 × Bool) :=
  let preambleSize := preambleSizeForType packetType
  match p.state with
  | .hciPreamble =>
    let bytes := read (preambleSize - p.bytesRead)
    if bytes = [] then none
    else
      let preamble := writeAt p.preamble p.bytesRead bytes
      let bytesRead := p.bytesRead + bytes.length
      if bytesRead = preambleSize then
        let packetLength := hciGetPacketLengthForType packetType preamble
        let packet := resize p.packet (preambleSize + packetLength)
        some ({ state := .hciPayload
                preamble
                packet := writeAt packet 0 (preamble.take preambleSize)
                bytesRemaining := packetLength
                bytesRead := 0 }, bytes, false)
      else some ({ p with preamble, bytesRead }, bytes, false)
  | .hciPayload =>
    let bytes := read p.bytesRemaining
    if bytes = [] then none
    else
      let packet := writeAt p.packet (preambleSize + p.bytesRead) bytes
      let bytesRemaining := p.bytesRemaining - bytes.length
      let bytesRead := p.bytesRead + bytes.length
      if bytesRemaining = 0 then
        some ({ p with state := .hciPreamble, packet, bytesRemaining, bytesRead := 0 }, bytes, true)
      else some ({ p with packet, bytesRemaining, bytesRead }, bytes, false)

inductive Callback where
  | eventCb | aclCb | scoCb
  deriving DecidableEq, Repr

abbrev Delivery := Callback × List UInt8

structure H4Protocol where
  hciPacketType : HciPacketType
  hciPacketizer : HciPacketizer
  deriving Repr

def H4Protocol.onPacketReady (h : H4Protocol) : Option (H4Protocol × Delivery) :=
  let next := { h with hciPacketType := .unknown }
  match h.hciPacketType with
  | .event => some (next, .eventCb, h.hciPacketizer.packet)
  | .aclData => some (next, .aclCb, h.hciPacketizer.packet)
  | .scoData => some (next, .scoCb, h.hciPacketizer.packet)
  | _ => none

/-- packet_ready_cb_ touches the packet type alone, so it may run after the packetizer's call. -/
def H4Protocol.onDataReady (h : H4Protocol) (read : ℕ → List UInt8) :
    Option (H4Protocol × List UInt8 × Option Delivery) :=
  if h.hciPacketType = .unknown then
    match read 1 with
    | [b] =>
      match HciPacketType.ofByte b with
      | none => none
      | some type =>
        if type ≠ .aclData ∧ type ≠ .scoData ∧ type ≠ .event then none
        else some ({ h with hciPacketType := type }, [b], none)
    | _ => none
  else
    match h.hciPacketizer.onDataReady read h.hciPacketType with
    | none => none
    | some (p, bytes, false) => some ({ h with hciPacketizer := p }, bytes, none)
    | some (p, bytes, true) =>
      match { h with hciPacketizer := p : H4Protocol }.onPacketReady with
      | none => none
      | some (next, delivery) => some (next, bytes, some delivery)

/-! ## The packets on the wire -/

def Callback.packetType : Callback → HciPacketType
  | .eventCb => .event
  | .aclCb => .aclData
  | .scoCb => .scoData

def Callback.ofByte (b : UInt8) : Option Callback :=
  if b = 2 then some .aclCb else if b = 3 then some .scoCb else if b = 4 then some .eventCb
  else none

/-- The length of the parameters after a preamble; the data length of ACL is little-endian. -/
def payloadLength : Callback → List UInt8 → ℕ
  | .eventCb, [_, n] => n.toNat
  | .scoCb, [_, _, n] => n.toNat
  | .aclCb, [_, _, lo, hi] => lo.toNat + 256 * hi.toNat
  | _, _ => 0

structure H4Packet where
  kind : Callback
  preamble : List UInt8
  payload : List UInt8
  preamble_length : preamble.length = preambleSizeForType kind.packetType
  payload_length : payload.length = payloadLength kind preamble
  payload_ne : payload ≠ []

def H4Packet.body (p : H4Packet) : List UInt8 := p.preamble ++ p.payload
def H4Packet.encode (p : H4Packet) : List UInt8 := p.kind.packetType.toByte :: p.body
def H4Packet.delivery (p : H4Packet) : Delivery := (p.kind, p.body)

def encode (ps : List H4Packet) : List UInt8 := ps.flatMap H4Packet.encode

/-- H4 traffic, which may stop within a packet. -/
def Traffic (stream : List UInt8) : Prop := ∃ ps, stream <+: encode ps

def parsePacket : List UInt8 → Option (Delivery × List UInt8)
  | [] => none
  | b :: rest =>
    match Callback.ofByte b with
    | none => none
    | some kind =>
      let header := preambleSizeForType kind.packetType
      let size := header + payloadLength kind (rest.take header)
      if rest.length < header ∨ rest.length < size then none
      else some ((kind, rest.take size), rest.drop size)

theorem parsePacket_length {bytes rest : List UInt8} {d : Delivery}
    (h : parsePacket bytes = some (d, rest)) : rest.length < bytes.length := by
  cases bytes with
  | nil => simp [parsePacket] at h
  | cons b bytes =>
    simp only [parsePacket] at h
    split at h
    · cases h
    · split at h
      · cases h
      · simp only [Option.some.injEq, Prod.mk.injEq] at h
        rw [← h.2, List.length_drop, List.length_cons]
        omega

/-- The reference parse: the complete packets at the front of a byte string. -/
def completePackets (bytes : List UInt8) : List Delivery :=
  match _h : parsePacket bytes with
  | none => []
  | some (d, rest) => d :: completePackets rest
termination_by bytes.length
decreasing_by exact parsePacket_length _h

@[simp] theorem callback_ofByte (k : Callback) : Callback.ofByte k.packetType.toByte = some k := by
  cases k <;> rfl

@[simp] theorem hciPacketType_ofByte (k : Callback) :
    HciPacketType.ofByte k.packetType.toByte = some k.packetType := by
  cases k <;> rfl

@[simp] theorem encode_nil : encode [] = [] := rfl
@[simp] theorem encode_cons (p : H4Packet) (ps : List H4Packet) :
    encode (p :: ps) = p.encode ++ encode ps := rfl

theorem H4Packet.body_length (p : H4Packet) : p.body.length =
    preambleSizeForType p.kind.packetType + payloadLength p.kind p.preamble := by
  simp [H4Packet.body, p.preamble_length, p.payload_length]

theorem H4Packet.body_take (p : H4Packet) (rest : List UInt8) :
    (p.body ++ rest).take (preambleSizeForType p.kind.packetType) = p.preamble := by
  rw [H4Packet.body, List.append_assoc, ← p.preamble_length]
  exact List.take_left

theorem parsePacket_encode (p : H4Packet) (rest : List UInt8) :
    parsePacket (p.encode ++ rest) = some (p.delivery, rest) := by
  have hsize : ¬ (p.body ++ rest).length < p.body.length := by simp
  have hheader : ¬ (p.body ++ rest).length < preambleSizeForType p.kind.packetType := by
    have := p.body_length
    rw [List.length_append]
    omega
  simp only [H4Packet.encode, List.cons_append, parsePacket, callback_ofByte, p.body_take,
    ← p.body_length, hsize, hheader, or_self, if_false, List.take_left, List.drop_left]
  rfl

theorem parsePacket_cut {p : H4Packet} {part left : List UInt8} (h : part ++ left = p.encode)
    (hleft : left ≠ []) : parsePacket part = none := by
  cases part with
  | nil => rfl
  | cons b part =>
    rw [List.cons_append] at h
    obtain ⟨rfl, hbody⟩ := List.cons.inj h
    have hlen := congrArg List.length hbody
    have hpos := List.length_pos_iff.mpr hleft
    rw [List.length_append] at hlen
    simp only [parsePacket, callback_ofByte]
    rw [if_pos]
    by_cases hp : part.length < preambleSizeForType p.kind.packetType
    · exact Or.inl hp
    · right
      have htake : part.take (preambleSizeForType p.kind.packetType) = p.preamble := by
        rw [← p.body_take [], List.append_nil, ← hbody, List.take_append_of_le_length (by omega)]
      rw [htake, ← p.body_length]
      omega

theorem completePackets_none {bytes : List UInt8} (h : parsePacket bytes = none) :
    completePackets bytes = [] := by
  unfold completePackets
  split
  · rfl
  · rename_i heq
    rw [h] at heq
    cases heq

theorem completePackets_some {bytes rest : List UInt8} {d : Delivery}
    (h : parsePacket bytes = some (d, rest)) :
    completePackets bytes = d :: completePackets rest := by
  rw [completePackets]
  split
  · rename_i heq
    rw [h] at heq
    cases heq
  · rename_i heq
    rw [h] at heq
    cases heq
    rfl

theorem completePackets_encode (ps : List H4Packet) (part : List UInt8) :
    completePackets (encode ps ++ part) = ps.map H4Packet.delivery ++ completePackets part := by
  induction ps with
  | nil => rfl
  | cons p ps ih =>
    rw [encode_cons, List.append_assoc, completePackets_some (parsePacket_encode p _), ih]
    rfl

/-! ## One call of OnDataReady -/

/-- What a UART that holds these bytes may answer to the reads of one call. -/
structure Answers (read : ℕ → List UInt8) (uart : List UInt8) : Prop where
  order : ∀ n, read n <+: uart
  bound : ∀ n, (read n).length ≤ n
  ready : ∀ n, 0 < n → read n ≠ []

/-- The parser between two packets. -/
structure Idle (h : H4Protocol) : Prop where
  type : h.hciPacketType = .unknown
  state : h.hciPacketizer.state = .hciPreamble
  bytesRead : h.hciPacketizer.bytesRead = 0
  preamble : h.hciPacketizer.preamble.length = hciPreambleSizeMax

/-- The parser within a packet of which these bytes are still to come. -/
inductive Receiving (h : H4Protocol) (p : H4Packet) : List UInt8 → Prop
  | preamble (got rest : List UInt8) (split : p.preamble = got ++ rest) (more : rest ≠ [])
      (type : h.hciPacketType = p.kind.packetType) (state : h.hciPacketizer.state = .hciPreamble)
      (bytesRead : h.hciPacketizer.bytesRead = got.length)
      (size : h.hciPacketizer.preamble.length = hciPreambleSizeMax)
      (held : h.hciPacketizer.preamble.take got.length = got) :
      Receiving h p (rest ++ p.payload)
  | payload (got rest : List UInt8) (split : p.payload = got ++ rest) (more : rest ≠ [])
      (type : h.hciPacketType = p.kind.packetType) (state : h.hciPacketizer.state = .hciPayload)
      (bytesRead : h.hciPacketizer.bytesRead = got.length)
      (bytesRemaining : h.hciPacketizer.bytesRemaining = rest.length)
      (size : h.hciPacketizer.preamble.length = hciPreambleSizeMax)
      (packetSize : h.hciPacketizer.packet.length = p.body.length)
      (held : h.hciPacketizer.packet.take (p.preamble.length + got.length) = p.preamble ++ got) :
      Receiving h p rest

theorem packetType_ne_unknown (k : Callback) : k.packetType ≠ .unknown := by
  cases k <;> simp [Callback.packetType]

theorem preambleSize_bounds (k : Callback) :
    0 < preambleSizeForType k.packetType ∧
      preambleSizeForType k.packetType ≤ hciPreambleSizeMax := by
  cases k <;> simp [Callback.packetType, preambleSizeForType, hciPreambleSizeMax]

/-- The code reads the length field of each type where the format has it. -/
theorem hciGetPacketLengthForType_eq (k : Callback) {preamble : List UInt8}
    (h : preamble.length = preambleSizeForType k.packetType) (rest : List UInt8) :
    hciGetPacketLengthForType k.packetType (preamble ++ rest) = payloadLength k preamble := by
  cases k with
  | eventCb =>
    obtain ⟨a, n, rfl⟩ := List.length_eq_two.mp h
    rfl
  | scoCb =>
    obtain ⟨a, b, n, rfl⟩ := List.length_eq_three.mp h
    rfl
  | aclCb =>
    obtain ⟨a, b, lo, hi, rfl⟩ := List.length_eq_four.mp h
    have hlo : lo.toNat < 2 ^ 8 := lo.toNat_lt
    change hi.toNat <<< 8 ||| lo.toNat = lo.toNat + 256 * hi.toNat
    rw [← Nat.shiftLeft_add_eq_or_of_lt hlo, Nat.shiftLeft_eq]
    omega

theorem length_resize (vec : List UInt8) (size : ℕ) : (resize vec size).length = size := by
  simp only [resize, List.length_append, List.length_take, List.length_replicate]
  omega

theorem Answers.within {read : ℕ → List UInt8} {uart front back : List UInt8} {n : ℕ}
    (h : Answers read uart) (hu : uart <+: front ++ back) (hn : n ≤ front.length) :
    ∃ rest, front = read n ++ rest := by
  obtain ⟨rest, hr⟩ := List.prefix_of_prefix_length_le ((h.order n).trans hu)
    (List.prefix_append front back) ((h.bound n).trans hn)
  exact ⟨rest, hr.symm⟩

/-- The parser within a preamble of which `got` is in and `rest` still to come. -/
structure InPreamble (h : H4Protocol) (k : Callback) (got rest : List UInt8) : Prop where
  length : got.length + rest.length = preambleSizeForType k.packetType
  more : rest ≠ []
  type : h.hciPacketType = k.packetType
  state : h.hciPacketizer.state = .hciPreamble
  bytesRead : h.hciPacketizer.bytesRead = got.length
  size : h.hciPacketizer.preamble.length = hciPreambleSizeMax
  held : h.hciPacketizer.preamble.take got.length = got

/-- The parser behind this preamble, with the packet laid out. -/
structure PayloadExpected (h : H4Protocol) (k : Callback) (preamble : List UInt8) : Prop where
  type : h.hciPacketType = k.packetType
  state : h.hciPacketizer.state = .hciPayload
  bytesRead : h.hciPacketizer.bytesRead = 0
  bytesRemaining : h.hciPacketizer.bytesRemaining = payloadLength k preamble
  size : h.hciPacketizer.preamble.length = hciPreambleSizeMax
  packetSize : h.hciPacketizer.packet.length = preamble.length + payloadLength k preamble
  held : h.hciPacketizer.packet.take preamble.length = preamble

theorem onDataReady_typeByte {h : H4Protocol} (hi : Idle h) {k : Callback} {preamble : List UInt8}
    (hlen : preamble.length = preambleSizeForType k.packetType) {read : ℕ → List UInt8}
    {uart back : List UInt8} (hr : Answers read uart)
    (hu : uart <+: k.packetType.toByte :: back) :
    ∃ h', h.onDataReady read = some (h', [k.packetType.toByte], none) ∧
      InPreamble h' k [] preamble := by
  have hread : read 1 = [k.packetType.toByte] := by
    have hfront : uart <+: [k.packetType.toByte] ++ back := hu
    obtain ⟨rest, he⟩ := hr.within (n := 1) hfront le_rfl
    have hone : (read 1).length = 1 := by
      have := hr.bound 1
      have := List.length_pos_iff.mpr (hr.ready 1 one_pos)
      omega
    obtain ⟨b, hb⟩ := List.length_eq_one_iff.mp hone
    rw [hb] at he ⊢
    rw [(List.cons.inj he).1]
  refine ⟨{ h with hciPacketType := k.packetType }, ?_, ?_⟩
  · have hdispatched : ¬ (k.packetType ≠ .aclData ∧ k.packetType ≠ .scoData ∧
        k.packetType ≠ .event) := by
      cases k <;> simp [Callback.packetType]
    simp [H4Protocol.onDataReady, hi.type, hread, hdispatched]
  · refine ⟨by simpa using hlen, ?_, rfl, hi.state, hi.bytesRead, hi.preamble, rfl⟩
    rw [← List.length_pos_iff, hlen]
    exact (preambleSize_bounds k).1

theorem onDataReady_idle {h : H4Protocol} (hi : Idle h) {p : H4Packet}
    {read : ℕ → List UInt8} {uart back : List UInt8} (hr : Answers read uart)
    (hu : uart <+: p.encode ++ back) :
    ∃ h', h.onDataReady read = some (h', [p.kind.packetType.toByte], none) ∧
      Receiving h' p p.body := by
  obtain ⟨h', hd, hn⟩ := onDataReady_typeByte hi p.preamble_length hr hu
  exact ⟨h', hd, .preamble [] p.preamble rfl hn.more hn.type hn.state hn.bytesRead hn.size hn.held⟩

theorem Answers.first {read : ℕ → List UInt8} {uart rest back : List UInt8}
    (hr : Answers read uart) (hu : uart <+: rest ++ back) (more : rest ≠ []) :
    ∃ bytes rest', read rest.length = bytes ∧ rest = bytes ++ rest' ∧ bytes <+: uart ∧
      bytes ≠ [] := by
  obtain ⟨rest', hrest⟩ := hr.within (n := rest.length) hu le_rfl
  exact ⟨_, rest', rfl, hrest, hr.order _, hr.ready _ (List.length_pos_iff.mpr more)⟩

theorem packetLength_of_preamble {k : Callback} {held preamble : List UInt8}
    (hlen : preamble.length = preambleSizeForType k.packetType)
    (h : held.take (preambleSizeForType k.packetType) = preamble) :
    hciGetPacketLengthForType k.packetType held = payloadLength k preamble := by
  rw [← hciGetPacketLengthForType_eq k hlen (held.drop (preambleSizeForType k.packetType)), ← h,
    List.take_append_drop]

/-- One call within a preamble: some of its bytes are taken, and with the last one the payload is
expected. -/
theorem onDataReady_inPreamble {h : H4Protocol} {k : Callback} {got rest : List UInt8}
    (hp : InPreamble h k got rest) {read : ℕ → List UInt8} {uart back : List UInt8}
    (hr : Answers read uart) (hu : uart <+: rest ++ back) :
    ∃ h' bytes rest', rest = bytes ++ rest' ∧ bytes <+: uart ∧ bytes ≠ [] ∧
      h.onDataReady read = some (h', bytes, none) ∧
      (InPreamble h' k (got ++ bytes) rest' ∨ rest' = [] ∧ PayloadExpected h' k (got ++ rest)) := by
  obtain ⟨hsize, more, type, state, bytesRead, size, held⟩ := hp
  have hmax := (preambleSize_bounds k).2
  have hask : preambleSizeForType k.packetType - got.length = rest.length := by omega
  obtain ⟨bytes, rest', hbytes, hrest, horder, hne⟩ := hr.first hu more
  have hlen : rest.length = bytes.length + rest'.length := by rw [hrest, List.length_append]
  have hgot : got.length ≤ h.hciPacketizer.preamble.length := by omega
  have hwritten : (writeAt h.hciPacketizer.preamble got.length bytes).take
      (got.length + bytes.length) = got ++ bytes := by
    rw [take_writeAt hgot bytes, held]
  have hwlen : (writeAt h.hciPacketizer.preamble got.length bytes).length =
      hciPreambleSizeMax := by
    rw [length_writeAt (by omega), size]
  by_cases hdone : rest' = []
  · -- the last byte of the preamble: the packet buffer is laid out and the payload expected
    subst hdone
    rw [List.append_nil] at hrest
    subst hrest
    have hfull : (writeAt h.hciPacketizer.preamble got.length rest).take
        (preambleSizeForType k.packetType) = got ++ rest := by
      rw [← hsize, hwritten]
    have hlength : hciGetPacketLengthForType k.packetType
        (writeAt h.hciPacketizer.preamble got.length rest) = payloadLength k (got ++ rest) :=
      packetLength_of_preamble (by rw [List.length_append, hsize]) hfull
    refine ⟨⟨k.packetType,
      { state := .hciPayload
        preamble := writeAt h.hciPacketizer.preamble got.length rest
        packet := writeAt (resize h.hciPacketizer.packet
          (preambleSizeForType k.packetType + payloadLength k (got ++ rest))) 0 (got ++ rest)
        bytesRemaining := payloadLength k (got ++ rest)
        bytesRead := 0 }⟩, rest, [], by simp, horder, hne, ?_, Or.inr ⟨rfl, ?_⟩⟩
    · simp only [H4Protocol.onDataReady, type, packetType_ne_unknown, if_false,
        HciPacketizer.onDataReady, state, bytesRead, hask, hbytes, hne, hsize, if_true, hfull,
        hlength]
    · refine ⟨rfl, rfl, rfl, rfl, hwlen, ?_, ?_⟩
      · rw [length_writeAt, length_resize, List.length_append, hsize]
        rw [length_resize, List.length_append]
        omega
      · simpa using take_writeAt (Nat.zero_le (resize h.hciPacketizer.packet
          (preambleSizeForType k.packetType + payloadLength k (got ++ rest))).length) (got ++ rest)
  · have hpos := List.length_pos_iff.mpr hdone
    have hcount : got.length + bytes.length ≠ preambleSizeForType k.packetType := by omega
    refine ⟨⟨k.packetType, { h.hciPacketizer with
      preamble := writeAt h.hciPacketizer.preamble got.length bytes
      bytesRead := got.length + bytes.length }⟩, bytes, rest', hrest, horder, hne, ?_,
      Or.inl ⟨?_, hdone, rfl, state, ?_, hwlen, ?_⟩⟩
    · simp only [H4Protocol.onDataReady, type, packetType_ne_unknown, if_false,
        HciPacketizer.onDataReady, state, bytesRead, hask, hbytes, hne, hcount]
    · rw [List.length_append]
      omega
    · rw [List.length_append]
    · rw [List.length_append, hwritten]

theorem PayloadExpected.receiving {h : H4Protocol} {p : H4Packet}
    (hn : PayloadExpected h p.kind p.preamble) : Receiving h p p.payload := by
  refine .payload [] p.payload rfl p.payload_ne hn.type hn.state hn.bytesRead ?_ hn.size ?_ ?_
  · rw [hn.bytesRemaining, p.payload_length]
  · rw [hn.packetSize, p.body_length, p.preamble_length]
  · simpa using hn.held

theorem onDataReady_preamble {h : H4Protocol} {p : H4Packet} {got rest : List UInt8}
    (split : p.preamble = got ++ rest) (more : rest ≠ [])
    (type : h.hciPacketType = p.kind.packetType) (state : h.hciPacketizer.state = .hciPreamble)
    (bytesRead : h.hciPacketizer.bytesRead = got.length)
    (size : h.hciPacketizer.preamble.length = hciPreambleSizeMax)
    (held : h.hciPacketizer.preamble.take got.length = got)
    {read : ℕ → List UInt8} {uart back : List UInt8} (hr : Answers read uart)
    (hu : uart <+: rest ++ back) :
    ∃ h' bytes rest', rest = bytes ++ rest' ∧ bytes <+: uart ∧ bytes ≠ [] ∧
      h.onDataReady read = some (h', bytes, none) ∧ Receiving h' p (rest' ++ p.payload) := by
  have hp : InPreamble h p.kind got rest :=
    ⟨by rw [← p.preamble_length, split, List.length_append], more, type, state, bytesRead, size,
      held⟩
  obtain ⟨h', bytes, rest', hrest, horder, hne, he, hn | ⟨rfl, hn⟩⟩ :=
    onDataReady_inPreamble hp hr hu
  · refine ⟨h', bytes, rest', hrest, horder, hne, he, ?_⟩
    refine Receiving.preamble (got ++ bytes) rest' ?_ hn.more hn.type hn.state hn.bytesRead hn.size
      hn.held
    rw [split, List.append_assoc, ← hrest]
  · rw [← split] at hn
    exact ⟨h', bytes, [], hrest, horder, hne, he, hn.receiving⟩

theorem onPacketReady_packetType (k : Callback) (p : HciPacketizer) :
    H4Protocol.onPacketReady ⟨k.packetType, p⟩ = some (⟨.unknown, p⟩, k, p.packet) := by
  cases k <;> rfl

theorem onDataReady_payload {h : H4Protocol} {p : H4Packet} {got rest : List UInt8}
    (split : p.payload = got ++ rest) (more : rest ≠ [])
    (type : h.hciPacketType = p.kind.packetType) (state : h.hciPacketizer.state = .hciPayload)
    (bytesRead : h.hciPacketizer.bytesRead = got.length)
    (bytesRemaining : h.hciPacketizer.bytesRemaining = rest.length)
    (size : h.hciPacketizer.preamble.length = hciPreambleSizeMax)
    (packetSize : h.hciPacketizer.packet.length = p.body.length)
    (held : h.hciPacketizer.packet.take (p.preamble.length + got.length) = p.preamble ++ got)
    {read : ℕ → List UInt8} {uart back : List UInt8} (hr : Answers read uart)
    (hu : uart <+: rest ++ back) :
    ∃ h' bytes rest', rest = bytes ++ rest' ∧ bytes <+: uart ∧ bytes ≠ [] ∧
      ((rest' ≠ [] ∧ h.onDataReady read = some (h', bytes, none) ∧ Receiving h' p rest') ∨
        (rest' = [] ∧ h.onDataReady read = some (h', bytes, some p.delivery) ∧ Idle h')) := by
  obtain ⟨bytes, rest', hbytes, hrest, horder, hne⟩ := hr.first hu more
  have hlen : rest.length = bytes.length + rest'.length := by rw [hrest, List.length_append]
  have hbody : p.body.length = p.preamble.length + (got.length + rest.length) := by
    rw [H4Packet.body, split, List.length_append, List.length_append]
  have hwritten : (writeAt h.hciPacketizer.packet (p.preamble.length + got.length) bytes).take
      (p.preamble.length + got.length + bytes.length) = p.preamble ++ got ++ bytes := by
    rw [take_writeAt (by omega) bytes, held]
  have hwlen : (writeAt h.hciPacketizer.packet (p.preamble.length + got.length) bytes).length =
      p.body.length := by
    rw [length_writeAt (by omega), packetSize]
  by_cases hdone : rest' = []
  · subst hdone
    rw [List.append_nil] at hrest
    rw [List.length_nil, Nat.add_zero] at hlen
    have hwhole : writeAt h.hciPacketizer.packet (p.preamble.length + got.length) bytes =
        p.body := by
      have := hwritten
      rw [List.take_of_length_le (by omega)] at this
      rw [this, H4Packet.body, split, hrest, List.append_assoc]
    have hzero : rest.length - bytes.length = 0 := by omega
    refine ⟨⟨.unknown, { h.hciPacketizer with
      state := .hciPreamble
      packet := p.body
      bytesRemaining := 0
      bytesRead := 0 }⟩, bytes, [], by simpa using hrest, horder, hne, Or.inr ⟨rfl, ?_, ?_⟩⟩
    · simp only [H4Protocol.onDataReady, type, packetType_ne_unknown, if_false,
        HciPacketizer.onDataReady, state, bytesRead, bytesRemaining, hbytes, hne,
        ← p.preamble_length, hwhole, hzero, if_true, onPacketReady_packetType,
        H4Packet.delivery]
    · exact ⟨rfl, rfl, rfl, size⟩
  · have hpos := List.length_pos_iff.mpr hdone
    have hcount : rest.length - bytes.length ≠ 0 := by omega
    refine ⟨⟨p.kind.packetType, { h.hciPacketizer with
      packet := writeAt h.hciPacketizer.packet (p.preamble.length + got.length) bytes
      bytesRemaining := rest.length - bytes.length
      bytesRead := got.length + bytes.length }⟩,
      bytes, rest', hrest, horder, hne, Or.inl ⟨hdone, ?_, ?_⟩⟩
    · simp only [H4Protocol.onDataReady, type, packetType_ne_unknown, if_false,
        HciPacketizer.onDataReady, state, bytesRead, bytesRemaining, hbytes, hne, hcount,
        ← p.preamble_length]
    · refine Receiving.payload (got ++ bytes) rest' ?_ hdone rfl state ?_ ?_ size hwlen ?_
      · rw [split, List.append_assoc, ← hrest]
      · simp
      · change rest.length - bytes.length = rest'.length
        omega
      · rw [List.length_append, ← Nat.add_assoc, hwritten, List.append_assoc]

/-! ## Runs -/

/-- h4 is none once a call has ended in LOG_ALWAYS_FATAL. -/
structure State where
  h4 : Option H4Protocol
  uart : List UInt8
  consumed : List UInt8
  delivered : List Delivery

/-- The preamble array is not initialised by the constructor. -/
def initial (junk : Vector UInt8 hciPreambleSizeMax) (stream : List UInt8) : State where
  h4 := some ⟨.unknown, ⟨.hciPreamble, junk.toList, [], 0, 0⟩⟩
  uart := stream
  consumed := []
  delivered := []

/-- The watcher calls when bytes are there; the event is the most that one read returns. -/
def Enabled (s : State) (chunk : ℕ) : Prop := 1 ≤ chunk ∧ s.uart ≠ []

instance (s : State) (chunk : ℕ) : Decidable (Enabled s chunk) :=
  inferInstanceAs (Decidable (_ ∧ _))

def next (s : State) (chunk : ℕ) : State :=
  match s.h4 with
  | none => s
  | some h =>
    match h.onDataReady fun n => s.uart.take (min chunk n) with
    | none => { s with h4 := none }
    | some (h', bytes, delivery) =>
      { h4 := some h'
        uart := s.uart.drop bytes.length
        consumed := s.consumed ++ bytes
        delivered := s.delivered ++ delivery.toList }

def system : System State ℕ := ⟨Enabled, next⟩

instance (s : State) (chunk : ℕ) : Decidable (system.Enabled s chunk) :=
  inferInstanceAs (Decidable (Enabled s chunk))

theorem answers_uart {s : State} {chunk : ℕ} (h : Enabled s chunk) :
    Answers (fun n => s.uart.take (min chunk n)) s.uart where
  order n := List.take_prefix _ _
  bound n := by
    rw [List.length_take]
    omega
  ready n hn := by
    obtain ⟨hc, hu⟩ := h
    have := List.length_pos_iff.mpr hu
    rw [← List.length_pos_iff, List.length_take]
    omega

theorem next_of_onDataReady {s : State} {chunk : ℕ} {h h' : H4Protocol} {bytes : List UInt8}
    {delivery : Option Delivery} (hs : s.h4 = some h)
    (hd : (h.onDataReady fun n => s.uart.take (min chunk n)) = some (h', bytes, delivery)) :
    next s chunk = ⟨some h', s.uart.drop bytes.length, s.consumed ++ bytes,
      s.delivered ++ delivery.toList⟩ := by
  simp only [next, hs, hd]

/-- The packets of the traffic that are done, the one in progress and those to come. -/
inductive Parsed (ps : List H4Packet) (s : State) : Prop
  | between (h : H4Protocol) (done todo : List H4Packet) (h4 : s.h4 = some h) (idle : Idle h)
      (packets : ps = done ++ todo) (consumed : s.consumed = encode done)
      (delivered : s.delivered = done.map H4Packet.delivery) (uart : s.uart <+: encode todo)
  | within (h : H4Protocol) (done todo : List H4Packet) (p : H4Packet) (part left : List UInt8)
      (h4 : s.h4 = some h) (receiving : Receiving h p left) (packets : ps = done ++ p :: todo)
      (split : part ++ left = p.encode) (consumed : s.consumed = encode done ++ part)
      (delivered : s.delivered = done.map H4Packet.delivery) (uart : s.uart <+: left ++ encode todo)

theorem Receiving.left_ne {h : H4Protocol} {p : H4Packet} {left : List UInt8}
    (hr : Receiving h p left) : left ≠ [] := by
  cases hr with
  | preamble _ _ _ more => exact fun he => more (List.append_eq_nil_iff.mp he).1
  | payload _ _ _ more => exact more

/-- One call within a packet: some of its bytes are taken, and none behind it. -/
theorem onDataReady_receiving {h : H4Protocol} {p : H4Packet} {left : List UInt8}
    (hp : Receiving h p left) {read : ℕ → List UInt8} {uart back : List UInt8}
    (hr : Answers read uart) (hu : uart <+: left ++ back) :
    ∃ h' bytes left', left = bytes ++ left' ∧ bytes <+: uart ∧ bytes ≠ [] ∧
      ((left' ≠ [] ∧ h.onDataReady read = some (h', bytes, none) ∧ Receiving h' p left') ∨
        (left' = [] ∧ h.onDataReady read = some (h', bytes, some p.delivery) ∧ Idle h')) := by
  cases hp with
  | preamble got rest split more type state bytesRead size held =>
    rw [List.append_assoc] at hu
    obtain ⟨h', bytes, rest', hrest, hb, hne, he, hn⟩ :=
      onDataReady_preamble split more type state bytesRead size held hr hu
    refine ⟨h', bytes, rest' ++ p.payload, ?_, hb, hne, Or.inl ⟨hn.left_ne, he, hn⟩⟩
    rw [hrest, List.append_assoc]
  | payload got rest split more type state bytesRead bytesRemaining size packetSize held =>
    exact onDataReady_payload split more type state bytesRead bytesRemaining size packetSize held
      hr hu

theorem singleton_ready {uart back : List UInt8} {b : UInt8} (hne : uart ≠ [])
    (hu : uart <+: b :: back) : [b] <+: uart := by
  obtain ⟨c, rest, rfl⟩ := List.exists_cons_of_ne_nil hne
  rw [(List.cons_prefix_cons.mp hu).1]
  exact List.cons_prefix_cons.mpr ⟨rfl, List.nil_prefix⟩

theorem drop_taken {uart bytes back : List UInt8} (hb : bytes <+: uart)
    (hu : uart <+: bytes ++ back) : uart.drop bytes.length <+: back := by
  obtain ⟨rest, rfl⟩ := hb
  rw [List.drop_left]
  exact (List.prefix_append_right_inj bytes).mp hu

theorem parsed_initial (junk : Vector UInt8 hciPreambleSizeMax) {stream : List UInt8}
    {ps : List H4Packet} (h : stream <+: encode ps) : Parsed ps (initial junk stream) :=
  .between _ [] ps rfl ⟨rfl, rfl, rfl, by simp⟩ rfl rfl rfl h

theorem parsed_next {ps : List H4Packet} {s : State} {chunk : ℕ} (hs : Parsed ps s)
    (he : Enabled s chunk) : Parsed ps (next s chunk) := by
  have hr := answers_uart he
  cases hs with
  | between h done todo h4 idle packets consumed delivered uart =>
    cases todo with
    | nil => exact absurd (List.prefix_nil.mp uart) he.2
    | cons p todo =>
      obtain ⟨h', hd, hn⟩ := onDataReady_idle idle hr uart
      rw [next_of_onDataReady h4 hd]
      refine .within h' done todo p [p.kind.packetType.toByte] p.body rfl hn packets rfl ?_ ?_ ?_
      · rw [consumed]
      · simpa using delivered
      · rw [encode_cons, H4Packet.encode, List.cons_append] at uart
        exact drop_taken (singleton_ready he.2 uart) uart
  | within h done todo p part left h4 receiving packets split consumed delivered uart =>
    obtain ⟨h', bytes, left', rfl, hb, _, ⟨_, hd, hn⟩ | ⟨rfl, hd, hn⟩⟩ :=
      onDataReady_receiving receiving hr uart
    · rw [next_of_onDataReady h4 hd]
      rw [List.append_assoc] at uart
      refine .within h' done todo p (part ++ bytes) left' rfl hn packets ?_ ?_ ?_
        (drop_taken hb uart)
      · rw [List.append_assoc, split]
      · rw [consumed, List.append_assoc]
      · simpa using delivered
    · rw [next_of_onDataReady h4 hd]
      rw [List.append_nil] at split uart
      refine .between h' (done ++ [p]) todo rfl hn ?_ ?_ ?_ (drop_taken hb uart)
      · rw [packets, List.append_assoc]
        rfl
      · rw [consumed, List.append_assoc, split]
        simp [encode]
      · simp [delivered]

/-- A call takes what one read returned, and nothing when that is empty. -/
theorem packetizer_bytes {p p' : HciPacketizer} {read : ℕ → List UInt8} {type : HciPacketType}
    {bytes : List UInt8} {ready : Bool} (h : p.onDataReady read type = some (p', bytes, ready)) :
    bytes ≠ [] ∧ ∃ n, read n = bytes := by
  unfold HciPacketizer.onDataReady at h
  cases hs : p.state with
  | hciPreamble =>
    simp only [hs] at h
    split at h
    · cases h
    · rename_i hne
      split at h <;>
      · simp only [Option.some.injEq, Prod.mk.injEq] at h
        exact ⟨h.2.1 ▸ hne, _, h.2.1⟩
  | hciPayload =>
    simp only [hs] at h
    split at h
    · cases h
    · rename_i hne
      split at h <;>
      · simp only [Option.some.injEq, Prod.mk.injEq] at h
        exact ⟨h.2.1 ▸ hne, _, h.2.1⟩

theorem onDataReady_bytes {h h' : H4Protocol} {read : ℕ → List UInt8} {bytes : List UInt8}
    {delivery : Option Delivery} (hd : h.onDataReady read = some (h', bytes, delivery)) :
    bytes ≠ [] ∧ ∃ n, read n = bytes := by
  unfold H4Protocol.onDataReady at hd
  split at hd
  · split at hd
    · rename_i b hb
      split at hd
      · cases hd
      · split at hd
        · cases hd
        · simp only [Option.some.injEq, Prod.mk.injEq] at hd
          exact ⟨by simp [← hd.2.1], 1, hb.trans hd.2.1⟩
    · cases hd
  · split at hd
    · cases hd
    · rename_i hp
      simp only [Option.some.injEq, Prod.mk.injEq] at hd
      exact hd.2.1 ▸ packetizer_bytes hp
    · rename_i hp
      split at hd
      · cases hd
      · simp only [Option.some.injEq, Prod.mk.injEq] at hd
        exact hd.2.1 ▸ packetizer_bytes hp

theorem next_whole (s : State) (chunk : ℕ) :
    (next s chunk).consumed ++ (next s chunk).uart = s.consumed ++ s.uart := by
  unfold next
  split
  · rfl
  · split
    · rfl
    · rename_i hd
      obtain ⟨_, n, hn⟩ := onDataReady_bytes hd
      obtain ⟨rest, hrest⟩ := List.take_prefix (min chunk n) s.uart
      rw [hn] at hrest
      rw [← hrest, List.drop_left, List.append_assoc]

theorem run_whole (s : State) (chunks : List ℕ) :
    (system.run s chunks).consumed ++ (system.run s chunks).uart = s.consumed ++ s.uart := by
  induction chunks generalizing s with
  | nil => rfl
  | cons chunk chunks ih => rw [run_cons, ih]; exact next_whole s chunk

/-- Every call of a run takes at least one byte, so the stream is drained in the end. -/
theorem run_progress {ps : List H4Packet} {s : State} {chunks : List ℕ} (hs : Parsed ps s)
    (legal : system.Legal s chunks) :
    (system.run s chunks).uart.length + chunks.length ≤ s.uart.length := by
  induction chunks generalizing s with
  | nil => exact le_rfl
  | cons chunk chunks ih =>
    have hn := parsed_next hs legal.1
    have hrest := ih hn legal.2
    have hless : (next s chunk).uart.length < s.uart.length := by
      have hpos := List.length_pos_iff.mpr legal.1.2
      unfold next at hn ⊢
      split
      · rename_i h4
        cases hs <;> simp_all
      · split
        · rename_i hd
          cases hn <;> simp_all
        · rename_i hd
          have := List.length_pos_iff.mpr (onDataReady_bytes hd).1
          rw [List.length_drop]
          omega
    rw [run_cons, List.length_cons]
    change (system.run (next s chunk) chunks).uart.length + _ ≤ _ at hrest
    change (system.run (next s chunk) chunks).uart.length + _ ≤ _
    omega

theorem Parsed.delivered_eq {ps : List H4Packet} {s : State} (h : Parsed ps s) :
    s.h4.isSome ∧ s.delivered = completePackets s.consumed := by
  cases h with
  | between h done todo h4 idle packets consumed delivered uart =>
    have hnil : completePackets [] = [] := completePackets_none rfl
    have := completePackets_encode done []
    rw [hnil, List.append_nil, List.append_nil] at this
    exact ⟨by simp [h4], by rw [consumed, delivered, this]⟩
  | within h done todo p part left h4 receiving packets split consumed delivered uart =>
    refine ⟨by simp [h4], ?_⟩
    rw [consumed, delivered, completePackets_encode,
      completePackets_none (parsePacket_cut split receiving.left_ne), List.append_nil]

/-- Whatever chunks the UART returns, the callbacks get the complete packets of the bytes
consumed so far, no call is fatal, and each consumes at least a byte. -/
theorem delivered_eq_completePackets (junk : Vector UInt8 hciPreambleSizeMax)
    {stream : List UInt8} (traffic : Traffic stream) (chunks : List ℕ)
    (legal : system.Legal (initial junk stream) chunks) :
    (system.run (initial junk stream) chunks).h4.isSome ∧
      (system.run (initial junk stream) chunks).consumed ++
        (system.run (initial junk stream) chunks).uart = stream ∧
      (system.run (initial junk stream) chunks).uart.length + chunks.length ≤ stream.length ∧
      (system.run (initial junk stream) chunks).delivered =
        completePackets (system.run (initial junk stream) chunks).consumed := by
  obtain ⟨ps, hps⟩ := traffic
  have hinit := parsed_initial junk hps
  have hrun : Parsed ps (system.run (initial junk stream) chunks) :=
    invariant_legal system (fun s e h he => parsed_next h he) hinit legal
  exact ⟨hrun.delivered_eq.1, run_whole _ chunks, run_progress hinit legal, hrun.delivered_eq.2⟩

def commandCompleteEvent : H4Packet where
  kind := .eventCb
  preamble := [14, 4]
  payload := [1, 3, 12, 0]
  preamble_length := rfl
  payload_length := rfl
  payload_ne := by decide

def aclPacket : H4Packet where
  kind := .aclCb
  preamble := [1, 32, 3, 0]
  payload := [7, 8, 9]
  preamble_length := rfl
  payload_length := rfl
  payload_ne := by decide

/-- An event, then an ACL packet cut within its data length and its payload. -/
theorem aclPacket_delivered_in_parts :
    (system.run (initial (Vector.replicate 4 0)
      (encode [commandCompleteEvent, aclPacket])) [1, 9, 9, 9, 3, 9, 2, 1]).h4.isSome ∧
    (system.run (initial (Vector.replicate 4 0)
      (encode [commandCompleteEvent, aclPacket])) [1, 9, 9, 9, 3, 9, 2, 1]).consumed ++
        (system.run (initial (Vector.replicate 4 0)
          (encode [commandCompleteEvent, aclPacket])) [1, 9, 9, 9, 3, 9, 2, 1]).uart =
      encode [commandCompleteEvent, aclPacket] ∧
    (system.run (initial (Vector.replicate 4 0)
      (encode [commandCompleteEvent, aclPacket])) [1, 9, 9, 9, 3, 9, 2, 1]).uart.length +
        [1, 9, 9, 9, 3, 9, 2, 1].length ≤ (encode [commandCompleteEvent, aclPacket]).length ∧
    (system.run (initial (Vector.replicate 4 0)
      (encode [commandCompleteEvent, aclPacket])) [1, 9, 9, 9, 3, 9, 2, 1]).delivered =
        completePackets (system.run (initial (Vector.replicate 4 0)
          (encode [commandCompleteEvent, aclPacket])) [1, 9, 9, 9, 3, 9, 2, 1]).consumed :=
  delivered_eq_completePackets (Vector.replicate 4 0) ⟨_, List.prefix_refl _⟩ _ (by decide)

example : (system.run (initial (Vector.replicate 4 0)
    (encode [commandCompleteEvent, aclPacket])) [1, 9, 9, 9, 3, 9, 2, 1]).delivered =
      [(.eventCb, [14, 4, 1, 3, 12, 0]), (.aclCb, [1, 32, 3, 0, 7, 8, 9])] := by decide

end H4Receive
