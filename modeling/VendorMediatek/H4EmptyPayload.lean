import VendorMediatek.H4Receive

/-!
# H4 packets without a payload

A preamble that announces no payload leaves the packetizer in HCI_PAYLOAD with bytes_remaining_ 0.
The packet is not handed over then, and the next call of OnDataReady reads no bytes, which
the code takes for the end of the file.
-/

namespace H4Receive

open LabelledRuns

/-- A packet as the format has it; its payload may be empty. -/
structure H4Frame where
  kind : Callback
  preamble : List UInt8
  payload : List UInt8
  preamble_length : preamble.length = preambleSizeForType kind.packetType
  payload_length : payload.length = payloadLength kind preamble

def H4Frame.encode (f : H4Frame) : List UInt8 :=
  f.kind.packetType.toByte :: (f.preamble ++ f.payload)

def encodeFrames (fs : List H4Frame) : List UInt8 := fs.flatMap H4Frame.encode

def H4Frame.packet (f : H4Frame) (h : f.payload ≠ []) : H4Packet where
  kind := f.kind
  preamble := f.preamble
  payload := f.payload
  preamble_length := f.preamble_length
  payload_length := f.payload_length
  payload_ne := h

/-- The bytes end with a packet of the traffic that has no payload. -/
def EmptyCompleted (fs : List H4Frame) (bytes : List UInt8) : Prop :=
  ∃ done f, done ++ [f] <+: fs ∧ f.payload = [] ∧ bytes = encodeFrames (done ++ [f])

@[simp] theorem encodeFrames_nil : encodeFrames [] = [] := rfl
@[simp] theorem encodeFrames_cons (f : H4Frame) (fs : List H4Frame) :
    encodeFrames (f :: fs) = f.encode ++ encodeFrames fs := rfl
@[simp] theorem encodeFrames_append (fs gs : List H4Frame) :
    encodeFrames (fs ++ gs) = encodeFrames fs ++ encodeFrames gs :=
  List.flatMap_append

theorem encodeFrames_singleton (f : H4Frame) : encodeFrames [f] = f.encode := by simp

theorem encodeFrames_ne {fs : List H4Frame} (h : fs ≠ []) : encodeFrames fs ≠ [] := by
  obtain ⟨f, rest, rfl⟩ := List.exists_cons_of_ne_nil h
  simp [H4Frame.encode]

/-! ## How far the traffic has come is known by the number of bytes -/

theorem encodeFrames_length_le {a b : List H4Frame} (h : a <+: b) :
    (encodeFrames a).length ≤ (encodeFrames b).length := by
  obtain ⟨c, rfl⟩ := h
  rw [encodeFrames_append, List.length_append]
  omega

theorem length_lt_of_encodeFrames_lt {a b fs : List H4Frame} (ha : a <+: fs) (hb : b <+: fs)
    (h : (encodeFrames a).length < (encodeFrames b).length) : a.length < b.length := by
  by_contra hle
  have := encodeFrames_length_le (List.prefix_of_prefix_length_le hb ha (Nat.not_lt.mp hle))
  omega

theorem eq_of_encodeFrames_length_eq {a b fs : List H4Frame} (ha : a <+: fs) (hb : b <+: fs)
    (h : (encodeFrames a).length = (encodeFrames b).length) : a = b := by
  have ext {a b : List H4Frame} (hp : a <+: b)
      (h : (encodeFrames a).length = (encodeFrames b).length) : a = b := by
    obtain ⟨c, rfl⟩ := hp
    by_cases hc : c = []
    · rw [hc, List.append_nil]
    · have := List.length_pos_iff.mpr (encodeFrames_ne hc)
      rw [encodeFrames_append, List.length_append] at h
      omega
  rcases Nat.le_total a.length b.length with hle | hle
  · exact ext (List.prefix_of_prefix_length_le ha hb hle) h
  · exact (ext (List.prefix_of_prefix_length_le hb ha hle) h.symm).symm

theorem not_emptyCompleted_within {fs done todo : List H4Frame} {f : H4Frame}
    {part left : List UInt8} (hfs : fs = done ++ f :: todo) (split : part ++ left = f.encode)
    (hpart : part ≠ []) (hleft : left ≠ []) : ¬EmptyCompleted fs (encodeFrames done ++ part) := by
  rintro ⟨front, z, hfront, _, hbytes⟩
  have hdone : done <+: fs := ⟨f :: todo, hfs.symm⟩
  have hnext : done ++ [f] <+: fs := ⟨todo, by rw [hfs, List.append_assoc]; rfl⟩
  have hlen := congrArg List.length hbytes
  have hwhole := congrArg List.length split
  have hp := List.length_pos_iff.mpr hpart
  have hl := List.length_pos_iff.mpr hleft
  rw [List.length_append] at hlen hwhole
  have hbehind := length_lt_of_encodeFrames_lt hdone hfront (by omega)
  have hbefore := length_lt_of_encodeFrames_lt hfront hnext (by
    rw [encodeFrames_append done [f], encodeFrames_singleton, List.length_append]
    omega)
  rw [List.length_append, List.length_singleton] at hbehind hbefore
  rw [List.length_append, List.length_singleton] at hbefore
  omega

theorem not_emptyCompleted_between {fs done : List H4Frame} (hdone : done <+: fs)
    (hlast : ∀ f ∈ done.getLast?, f.payload ≠ []) : ¬EmptyCompleted fs (encodeFrames done) := by
  rintro ⟨front, z, hfront, hempty, hbytes⟩
  have heq := eq_of_encodeFrames_length_eq hdone hfront (congrArg List.length hbytes)
  exact hlast z (by rw [heq, List.getLast?_concat]; rfl) hempty

/-! ## Runs -/

/-- Where in the traffic the receiver is, up to the call that finds no payload to read. -/
inductive Framed (fs : List H4Frame) (s : State) : Prop
  | between (h : H4Protocol) (done todo : List H4Frame) (h4 : s.h4 = some h) (idle : Idle h)
      (frames : fs = done ++ todo) (last : ∀ f ∈ done.getLast?, f.payload ≠ [])
      (consumed : s.consumed = encodeFrames done) (uart : s.uart <+: encodeFrames todo)
  | preamble (h : H4Protocol) (done todo : List H4Frame) (f : H4Frame) (got rest : List UInt8)
      (h4 : s.h4 = some h) (inside : InPreamble h f.kind got rest)
      (frames : fs = done ++ f :: todo) (split : f.preamble = got ++ rest)
      (consumed : s.consumed = encodeFrames done ++ f.kind.packetType.toByte :: got)
      (uart : s.uart <+: rest ++ (f.payload ++ encodeFrames todo))
  | payload (h : H4Protocol) (done todo : List H4Frame) (f : H4Frame) (hf : f.payload ≠ [])
      (part left : List UInt8) (h4 : s.h4 = some h) (receiving : Receiving h (f.packet hf) left)
      (frames : fs = done ++ f :: todo) (split : part ++ left = f.encode) (started : part ≠ [])
      (consumed : s.consumed = encodeFrames done ++ part)
      (uart : s.uart <+: left ++ encodeFrames todo)
  | empty (h : H4Protocol) (done todo : List H4Frame) (f : H4Frame) (hf : f.payload = [])
      (h4 : s.h4 = some h) (expected : PayloadExpected h f.kind f.preamble)
      (frames : fs = done ++ f :: todo) (consumed : s.consumed = encodeFrames (done ++ [f]))

theorem Framed.isSome {fs : List H4Frame} {s : State} (h : Framed fs s) : s.h4.isSome := by
  cases h <;> simp [*]

theorem framed_initial (junk : Vector UInt8 hciPreambleSizeMax) {stream : List UInt8}
    {fs : List H4Frame} (h : stream <+: encodeFrames fs) : Framed fs (initial junk stream) :=
  .between _ [] fs rfl ⟨rfl, rfl, rfl, by simp⟩ rfl nofun rfl h

/-- Where the bytes end with a packet without payload, the receiver waits for one nevertheless. -/
theorem Framed.expected_of_empty {fs : List H4Frame} {s : State} (hs : Framed fs s)
    (he : EmptyCompleted fs s.consumed) :
    ∃ (h : H4Protocol) (f : H4Frame), s.h4 = some h ∧ f.payload = [] ∧
      PayloadExpected h f.kind f.preamble := by
  cases hs with
  | between h done todo h4 idle frames last consumed uart =>
    rw [consumed] at he
    exact absurd he (not_emptyCompleted_between ⟨todo, frames.symm⟩ last)
  | preamble h done todo f got rest h4 inside frames split consumed uart =>
    rw [consumed] at he
    have whole : f.kind.packetType.toByte :: got ++ (rest ++ f.payload) = f.encode := by
      rw [H4Frame.encode, split, List.append_assoc, List.cons_append]
    refine absurd he (not_emptyCompleted_within frames whole (List.cons_ne_nil _ _) ?_)
    exact fun he => inside.more (List.append_eq_nil_iff.mp he).1
  | payload h done todo f hf part left h4 receiving frames split started consumed uart =>
    rw [consumed] at he
    exact absurd he (not_emptyCompleted_within frames split started receiving.left_ne)
  | empty h done todo f hf h4 expected frames consumed => exact ⟨h, f, h4, hf, expected⟩

/-- The call that expects a payload and finds it empty is the fatal one. -/
theorem onDataReady_empty {h : H4Protocol} {f : H4Frame} (hf : f.payload = [])
    (expected : PayloadExpected h f.kind f.preamble) {read : ℕ → List UInt8} {uart : List UInt8}
    (hr : Answers read uart) : h.onDataReady read = none := by
  have hzero : h.hciPacketizer.bytesRemaining = 0 := by
    rw [expected.bytesRemaining, ← f.payload_length, hf, List.length_nil]
  have hread : read 0 = [] := List.length_eq_zero_iff.mp (Nat.le_zero.mp (hr.bound 0))
  simp only [H4Protocol.onDataReady, expected.type, packetType_ne_unknown, if_false,
    HciPacketizer.onDataReady, expected.state, hzero, hread, if_true]

theorem framed_next {fs : List H4Frame} {s : State} {chunk : ℕ} (hs : Framed fs s)
    (he : Enabled s chunk) (hg : ¬EmptyCompleted fs s.consumed) : Framed fs (next s chunk) := by
  have hr := answers_uart he
  cases hs with
  | between h done todo h4 idle frames last consumed uart =>
    cases todo with
    | nil => exact absurd (List.prefix_nil.mp uart) he.2
    | cons f todo =>
      rw [encodeFrames_cons, H4Frame.encode, List.cons_append, List.append_assoc] at uart
      obtain ⟨h', hd, hn⟩ := onDataReady_typeByte idle f.preamble_length hr uart
      rw [next_of_onDataReady h4 hd]
      refine .preamble h' done todo f [] f.preamble rfl hn frames rfl ?_ ?_
      · rw [consumed]
      · exact drop_taken (singleton_ready he.2 uart) uart
  | preamble h done todo f got rest h4 inside frames split consumed uart =>
    obtain ⟨h', bytes, rest', hrest, hb, _, hd, hn⟩ := onDataReady_inPreamble inside hr uart
    rw [next_of_onDataReady h4 hd]
    rw [hrest, List.append_assoc] at uart
    have hdrop := drop_taken hb uart
    have hconsumed : s.consumed ++ bytes =
        encodeFrames done ++ f.kind.packetType.toByte :: (got ++ bytes) := by
      rw [consumed, List.append_assoc, List.cons_append]
    rcases hn with hn | ⟨rfl, hn⟩
    · refine .preamble h' done todo f (got ++ bytes) rest' rfl hn frames ?_ hconsumed hdrop
      rw [split, hrest, List.append_assoc]
    · rw [List.append_nil] at hrest
      subst hrest
      rw [← split] at hn hconsumed
      by_cases hf : f.payload = []
      · refine .empty h' done todo f hf rfl hn frames ?_
        rw [hconsumed, encodeFrames_append, encodeFrames_singleton, H4Frame.encode, hf,
          List.append_nil]
      · exact .payload h' done todo f hf _ f.payload rfl hn.receiving frames
          (by rw [H4Frame.encode, List.cons_append]) (List.cons_ne_nil _ _) hconsumed hdrop
  | payload h done todo f hf part left h4 receiving frames split started consumed uart =>
    obtain ⟨h', bytes, left', rfl, hb, _, ⟨_, hd, hn⟩ | ⟨rfl, hd, hn⟩⟩ :=
      onDataReady_receiving receiving hr uart
    · rw [next_of_onDataReady h4 hd]
      rw [List.append_assoc] at uart
      refine .payload h' done todo f hf (part ++ bytes) left' rfl hn frames ?_ ?_ ?_
        (drop_taken hb uart)
      · rw [List.append_assoc, split]
      · exact List.append_ne_nil_of_left_ne_nil started bytes
      · rw [consumed, List.append_assoc]
    · rw [next_of_onDataReady h4 hd]
      rw [List.append_nil] at split uart
      refine .between h' (done ++ [f]) todo rfl hn ?_ ?_ ?_ (drop_taken hb uart)
      · rw [frames, List.append_assoc]
        rfl
      · intro g hg
        rw [List.getLast?_concat] at hg
        cases hg
        exact hf
      · rw [consumed, List.append_assoc, split, encodeFrames_append, encodeFrames_singleton]
  | empty h done todo f hf h4 expected frames consumed =>
    exact absurd ⟨done, f, ⟨todo, by rw [frames, List.append_assoc]; rfl⟩, hf, consumed⟩ hg

/-- A call is fatal exactly where the bytes before it end with a packet without payload. -/
theorem next_isSome_iff {fs : List H4Frame} {s : State} {chunk : ℕ} (hs : Framed fs s)
    (he : Enabled s chunk) : (next s chunk).h4.isSome ↔ ¬EmptyCompleted fs s.consumed := by
  constructor
  · intro hsome hempty
    obtain ⟨h, f, h4, hf, expected⟩ := hs.expected_of_empty hempty
    simp [next, h4, onDataReady_empty hf expected (answers_uart he)] at hsome
  · exact fun hg => (framed_next hs he hg).isSome

/-- Whatever chunks the UART returns, no call is fatal exactly if none is made when the bytes
consumed end with a packet that has no payload. -/
theorem never_fatal_iff (junk : Vector UInt8 hciPreambleSizeMax) {fs : List H4Frame}
    {stream : List UInt8} (traffic : stream <+: encodeFrames fs) (chunks : List ℕ)
    (legal : system.Legal (initial junk stream) chunks) :
    (∀ pre, pre <+: chunks → (system.run (initial junk stream) pre).h4.isSome) ↔
      system.Along (fun s _ => ¬EmptyCompleted fs s.consumed) (initial junk stream) chunks := by
  have hcalls : system.Along (fun s chunk => (system.next s chunk).h4.isSome)
      (initial junk stream) chunks ↔
        system.Along (fun s _ => ¬EmptyCompleted fs s.consumed) (initial junk stream) chunks :=
    along_iff_guarded system (fun _ _ hs he hg => framed_next hs he hg)
      (fun _ _ hs he => next_isSome_iff hs he) (framed_initial junk traffic) legal
  rw [always_iff_along system (fun s => s.h4.isSome = true) (initial junk stream) chunks, hcalls]
  exact and_iff_right rfl

theorem not_emptyCompleted_of_payloads {fs : List H4Frame}
    (payloads : ∀ f ∈ fs.dropLast, f.payload ≠ []) {consumed uart : List UInt8}
    (whole : consumed ++ uart = encodeFrames fs) (more : uart ≠ []) :
    ¬EmptyCompleted fs consumed := by
  rintro ⟨done, f, ⟨todo, rfl⟩, hempty, rfl⟩
  rw [encodeFrames_append _ todo] at whole
  have htodo : todo ≠ [] := fun he => more (by simpa [he] using List.append_cancel_left whole)
  refine payloads f ?_ hempty
  rw [List.dropLast_append_of_ne_nil htodo]
  simp

/-- If only the last packet may be without payload, no call is ever fatal. -/
theorem never_fatal_of_payloads (junk : Vector UInt8 hciPreambleSizeMax) {fs : List H4Frame}
    (payloads : ∀ f ∈ fs.dropLast, f.payload ≠ []) {chunks : List ℕ}
    (legal : system.Legal (initial junk (encodeFrames fs)) chunks) :
    (system.run (initial junk (encodeFrames fs)) chunks).h4.isSome := by
  have hrun : Framed fs (system.run (initial junk (encodeFrames fs)) chunks) ∧
      (system.run (initial junk (encodeFrames fs)) chunks).consumed ++
        (system.run (initial junk (encodeFrames fs)) chunks).uart = encodeFrames fs :=
    invariant_legal (I := fun s => Framed fs s ∧ s.consumed ++ s.uart = encodeFrames fs) system
      (fun _ _ hs he => ⟨framed_next hs.1 he (not_emptyCompleted_of_payloads payloads hs.2 he.2),
        (next_whole _ _).trans hs.2⟩)
      ⟨framed_initial junk (List.prefix_refl _), rfl⟩ legal
  exact hrun.1.isSome

def resetComplete : H4Frame where
  kind := .eventCb
  preamble := [14, 4]
  payload := [1, 3, 12, 0]
  preamble_length := commandCompleteEvent.preamble_length
  payload_length := commandCompleteEvent.payload_length

/-- An event that announces no parameters. -/
def emptyEvent : H4Frame where
  kind := .eventCb
  preamble := [255, 0]
  payload := []
  preamble_length := rfl
  payload_length := rfl

theorem never_fatal_whole :
    (∀ pre, pre <+: [1, 9, 9, 9, 3] → (system.run (initial (Vector.replicate 4 0)
      (encodeFrames [resetComplete, emptyEvent])) pre).h4.isSome) ↔
    system.Along (fun s _ => ¬EmptyCompleted [resetComplete, emptyEvent] s.consumed)
      (initial (Vector.replicate 4 0) (encodeFrames [resetComplete, emptyEvent])) [1, 9, 9, 9, 3] :=
  never_fatal_iff _ (List.prefix_refl _) _ (by decide)

/-- The type byte, the preamble without parameters, then the next event. -/
theorem emptyEvent_fatal :
    system.Legal (initial (Vector.replicate 4 0) (encodeFrames [emptyEvent, resetComplete]))
      [1, 2, 1] ∧
      (system.run (initial (Vector.replicate 4 0) (encodeFrames [emptyEvent, resetComplete]))
        [1, 2, 1]).h4.isNone := by
  decide

end H4Receive
