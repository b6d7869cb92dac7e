import Mathlib.Data.List.TakeWhile
import VendorMediatek.RilQueuedCopy

/-!
# Queued payloads

Which requests lead to the same value when they are handed over late. A payload survives when
buflen covers its first block and every pointer in it leads to blocks that outlive the function.
-/

namespace RilDispatch

open CMemory RilChannelQueue LabelledRuns

theorem abi_pointer_pos (abi : Abi) : 0 < abi.pointer := by cases abi <;> decide

variable {abi : Abi} {frame : Frame}

/-! ## Members -/

theorem stored_int {W : ℕ} (x : UInt32) :
    Stored W frame (intMember x).cells (intMember x).type := stored_bytes (intBytes x)

theorem stored_uchar {W : ℕ} (x : UInt8) :
    Stored W frame (ucharMember x).cells (ucharMember x).type := stored_bytes [x]

theorem cString_no_zero (s : List UInt8) : 0 ∉ cString s := by
  intro h
  simpa using List.mem_takeWhile_imp h

theorem cString_length_le (s : List UInt8) : (cString s).length ≤ s.length :=
  (List.takeWhile_prefix _).length_le

theorem zero_mem_strncpy {src : List UInt8} {n : ℕ} (h : (cString src).length < n) :
    0 ∈ strncpy src n := by
  refine List.mem_append_right _ (List.mem_replicate.mpr ⟨?_, rfl⟩)
  rw [List.length_take]
  omega

theorem stored_hidlBlock {W : ℕ} {src : HidlString} (h : src.length ≠ 0) :
    Stored W frame (hidlBlock src).cells .cstr := by
  have hlen := cString_length_le src
  simp only [hidlBlock, h, if_false]
  exact stored_cstr (zero_mem_strncpy (by omega))

theorem stored_string {b : ℕ} {src : HidlString} (hb : frame b = hidlBlock src) :
    Stored abi.pointer frame (stringMember abi b src).cells (stringMember abi b src).type := by
  simp only [stringMember, pointerMember, copyHidlStringToRil]
  split
  · exact stored_null .cstr
  · rename_i h
    refine stored_pointer _ (fun m hm => ?_) (stored_hidlBlock h)
    rw [← hb]
    exact deref_shows hm

theorem lasting_hidlBlock {b : ℕ} {src : HidlString} (hb : frame b = hidlBlock src) :
    frame.lasting b = hidlBlock src := by
  rw [← hb]
  refine lasting_of_ne_stack ?_
  simp [hb, hidlBlock]

/-! ## Payloads that survive -/

/-- The copy covers the first block, and the value behind it needs only blocks that last. -/
theorem sameValue_of_stored {call : Call} (hdata : call.data = some ⟨0, 0⟩)
    (hbf : call.bf ≠ .void) (hlen : (call.frame 0).cells.length ≤ call.buflen)
    (hempty : call.buflen = 0 → call.type = .done)
    (h : Stored abi.pointer call.frame.lasting (call.frame 0).cells call.type) :
    SameValue abi call := by
  intro junk m m' hm hm'
  obtain ⟨v, hv⟩ := h
  have shown : (m.deref ⟨0, 0⟩).Shows (call.frame 0).cells := deref_shows hm
  simp only [Call.buf, hdata, Option.map_some]
  by_cases hz : call.buflen = 0
  · refine ⟨.done, ?_, ?_⟩
    · simp only [ReadsData, hempty hz, Reads]
    · simp [queuedBuf, hz, hempty hz, ReadsData]
  · refine ⟨v, hv m hm.lasting _ shown, ?_⟩
    have copied := memcpy_shows junk 0 (by simpa using hlen) (by simpa using shown)
    rw [drop_zero] at copied
    simpa [queuedBuf, hbf, hz, ReadsData] using hv m' hm' _ copied

theorem sameValue_struct {bf : BufFmts} {members : List Member} {blocks : List Block} {buflen : ℕ}
    (hbf : bf ≠ .void) (hlen : (structCells members).length ≤ buflen) (hpos : 0 < buflen)
    (h : ∀ x ∈ members,
      Stored abi.pointer (structCall bf members blocks).frame.lasting x.cells x.type) :
    SameValue abi { structCall bf members blocks with buflen := buflen } := by
  apply sameValue_of_stored rfl hbf hlen
  · exact fun hz => absurd hz hpos.ne'
  · exact stored_struct h

theorem structCells_int_pos {x : UInt32} {xs : List Member} :
    0 < (structCells (intMember x :: xs)).length := by
  simp only [structCells, structFields, intMember, intBytes, List.length_append, length_bytes,
    List.length_cons]
  omega

theorem fmtUnlessIgnored_ne_void {pRI : RequestInfo} {bf : BufFmts} (h : bf ≠ .void) :
    fmtUnlessIgnored pRI bf ≠ .void := by
  unfold fmtUnlessIgnored
  split
  · decide
  · exact h

theorem sameValue_dispatchCallForwardStatus (pRI : RequestInfo) (info : CallForwardInfo) :
    SameValue abi (dispatchCallForwardStatus abi pRI info) := by
  apply sameValue_struct (fmtUnlessIgnored_ne_void (by decide)) le_rfl
    structCells_int_pos
  simp only [List.forall_mem_cons]
  exact ⟨stored_int _, stored_int _, stored_int _, stored_int _,
    stored_string (lasting_hidlBlock rfl), stored_int _, by simp⟩

theorem sameValue_dispatchIccApdu (message : SimApdu) :
    SameValue abi (dispatchIccApdu abi message) := by
  apply sameValue_struct (by decide) le_rfl structCells_int_pos
  simp only [List.forall_mem_cons]
  exact ⟨stored_int _, stored_int _, stored_int _, stored_int _, stored_int _, stored_int _,
    stored_string (lasting_hidlBlock rfl), by simp⟩

theorem sameValue_iccIOForApp (iccIo : IccIo) : SameValue abi (iccIOForApp abi iccIo) := by
  apply sameValue_struct (by decide) le_rfl structCells_int_pos
  simp only [List.forall_mem_cons]
  exact ⟨stored_int _, stored_int _, stored_string (lasting_hidlBlock rfl), stored_int _,
    stored_int _, stored_int _, stored_string (lasting_hidlBlock rfl),
    stored_string (lasting_hidlBlock rfl), stored_string (lasting_hidlBlock rfl), by simp⟩

theorem sameValue_writeSmsToSim (args : SmsWriteArgs) :
    SameValue abi (writeSmsToSim abi args) := by
  apply sameValue_struct (by decide) le_rfl structCells_int_pos
  simp only [List.forall_mem_cons]
  exact ⟨stored_int _, stored_string (lasting_hidlBlock rfl),
    stored_string (lasting_hidlBlock rfl), by simp⟩

theorem stored_stringPointers {first : ℕ} {data : List HidlString}
    (hb : ∀ i (h : i < data.length), frame (first + i) = hidlBlock data[i]) :
    Stored abi.pointer frame (structFields 0 (stringPointers abi first data))
      (structType 0 (stringPointers abi first data)) := by
  apply stored_array
  intro x hx
  obtain ⟨i, hi, rfl⟩ := List.mem_mapIdx.mp hx
  exact stored_string (hb i hi)

theorem length_stringPointers (abi : Abi) (first : ℕ) (data : List HidlString) :
    (structFields 0 (stringPointers abi first data)).length = data.length * abi.pointer := by
  rw [stringPointers, length_array (n := abi.pointer), List.length_mapIdx]
  intro x hx
  obtain ⟨i, hi, rfl⟩ := List.mem_mapIdx.mp hx
  simp [stringMember, pointerMember]

theorem sameValue_dispatchStringsVec (pRI : RequestInfo) (data : List HidlString) :
    SameValue abi (dispatchStringsVec abi pRI data) := by
  apply sameValue_of_stored rfl (fmtUnlessIgnored_ne_void (by decide))
  · exact (length_stringPointers abi 1 data).le
  · intro hz
    have hnil : data.length = 0 :=
      (Nat.mul_eq_zero.mp hz).resolve_right (abi_pointer_pos abi).ne'
    rw [List.length_eq_zero_iff] at hnil
    subst hnil
    rfl
  · refine stored_stringPointers fun i hi => lasting_hidlBlock ?_
    simp [dispatchStringsVec, Frame.ofBlocks, Nat.add_comm 1 i, hi]

theorem sameValue_dispatchInts (pRI : RequestInfo) (ints : List UInt32) :
    SameValue abi (dispatchInts pRI ints) := by
  apply sameValue_of_stored rfl (fmtUnlessIgnored_ne_void (by decide))
  · refine (length_array (n := 4) ?_ 0).le.trans (by simp [dispatchInts])
    intro x hx
    obtain ⟨i, -, rfl⟩ := List.mem_map.mp hx
    simp [intMember, intBytes]
  · intro hz
    have hnil : ints.length = 0 := (Nat.mul_eq_zero.mp hz).resolve_right (by decide)
    rw [List.length_eq_zero_iff] at hnil
    subst hnil
    rfl
  · apply stored_array
    intro x hx
    obtain ⟨i, -, rfl⟩ := List.mem_map.mp hx
    exact stored_int i

/-- buflen exceeds the struct by what the pointers of the string array would take. -/
theorem sameValue_dispatchImsGsmSms {message : ImsSmsMessage} {call : Call}
    (h : dispatchImsGsmSms abi message = some call) : SameValue abi call := by
  unfold dispatchImsGsmSms at h
  split at h
  · rename_i sms _
    cases h
    apply sameValue_struct (by decide) _ (by omega)
    · simp only [imsSmsMembers, List.forall_mem_cons]
      refine ⟨stored_int _, stored_uchar _, stored_int _, ?_, by simp⟩
      refine stored_pointer _ (fun m hm => deref_shows hm) (stored_stringPointers fun i hi => ?_)
      apply lasting_hidlBlock
      match i, hi with
      | 0, _ => rfl
      | 1, _ => rfl
    · cases abi <;>
        simp [structCells, structFields, padding, maxAlign, imsSmsMembers, intMember, ucharMember,
          intBytes, pointerMember, Abi.pointer]
  · cases h

/-! ## Payloads that do not -/

/-- One pair of memories without a common value is enough. Here the heap has ones behind the copy,
and other stands in the stack blocks when the request is dequeued. -/
theorem not_sameValue {call : Call} (other : Memory)
    (h : ∀ m : Memory, m.Holds call.frame → ∀ v, ReadsData abi.pointer m call.type (call.buf m) v →
      ¬ ReadsData abi.pointer (call.frame.lasting.fill other) call.type
        (queuedBuf (memcpy fun _ => .byte 1) (call.buf m) call.buflen call.bf) v) :
    ¬ SameValue abi call := by
  intro hsame
  have held := fill_holds call.frame other
  obtain ⟨v, hv, hv'⟩ := hsame (fun _ => .byte 1) _ _ held (fill_holds call.frame.lasting other)
  exact h _ held v hv hv'

theorem hidlBlock_cString {str : List UInt8} (h : (cString str).length ≠ 0) :
    (hidlBlock (cString str)).cells = bytes (cString str ++ [0]) := by
  have idem : cString (cString str) = cString str := List.takeWhile_idem
  simp only [hidlBlock, h, if_false, strncpy, idem]
  rw [List.take_of_length_le (by omega), Nat.add_sub_cancel_left]
  rfl

theorem sameValue_dispatchString_iff (pRI : RequestInfo) (str : List UInt8) :
    SameValue abi (dispatchString abi pRI str) ↔
      0 < (cString str).length ∧ (cString str).length < abi.pointer := by
  have hW := abi_pointer_pos abi
  have hbf : fmtUnlessIgnored pRI .str ≠ .void := fmtUnlessIgnored_ne_void (by decide)
  by_cases hz : (cString str).length = 0
  · -- NULL on the one way, a block of its own on the other.
    refine iff_of_false ?_ (by omega)
    refine not_sameValue (fun _ _ => .byte 0) fun m _ v hv hv' => ?_
    simp only [dispatchString, Call.buf, copyHidlStringToRil, hz, if_true, Option.map_none,
      ReadsData] at hv hv'
    rw [queuedBuf, if_pos ⟨hbf, hW.ne'⟩] at hv'
    simp [hv, Reads] at hv'
  · have hdata : (dispatchString abi pRI str).data = some ⟨0, 0⟩ := if_neg hz
    have hcells : ((dispatchString abi pRI str).frame 0).cells = bytes (cString str ++ [0]) :=
      hidlBlock_cString hz
    by_cases hlt : (cString str).length < abi.pointer
    · refine iff_of_true ?_ ⟨by omega, hlt⟩
      apply sameValue_of_stored hdata hbf
      · rw [hcells, length_bytes, List.length_append]
        exact hlt
      · exact fun h => absurd h hW.ne'
      · rw [hcells]
        exact stored_cstr (by simp)
    · refine iff_of_false ?_ (by omega)
      refine not_sameValue (fun _ _ => .byte 0) fun m hm v hv hv' => ?_
      have shown : (m.deref ⟨0, 0⟩).Shows (bytes (cString str ++ [0])) := hcells ▸ deref_shows hm
      simp only [Call.buf, hdata, Option.map_some] at hv hv'
      rw [queuedBuf, if_pos ⟨hbf, hW.ne'⟩] at hv'
      cases v <;> simp only [dispatchString, ReadsData, Reads] at hv hv'
      rename_i l
      obtain rfl := cstr_unique hv.1 (cString_no_zero str) hv.2 shown
      -- The terminator lies behind the copy.
      have hend := shows_bytes.mp hv'.2 (cString str).length (by simp)
      rw [memcpy_behind _ _ (by omega)] at hend
      simp at hend

theorem not_sameValue_initialAttachApn (protocol : HidlString) (info : DataProfileInfo)
    (numeric : List UInt8) : ¬ SameValue abi (initialAttachApn abi protocol info numeric) := by
  have hlen : (initialAttachApn abi protocol info numeric).buflen =
      memberOffset 0 (initialAttachApnFields abi info.authType) abi.pointer := by
    cases abi <;>
      simp [initialAttachApn, structCall, structCells, structFields, initialAttachApnFields,
        memberOffset, padding, maxAlign, intMember, intBytes, pointerMember, Abi.pointer]
  have hpos : (initialAttachApn abi protocol info numeric).buflen ≠ 0 := by
    rw [hlen]
    cases abi <;>
      simp [initialAttachApnFields, memberOffset, padding, intMember, intBytes, pointerMember,
        Abi.pointer]
  refine not_sameValue (fun _ _ => .byte 0) fun m hm v hv hv' => ?_
  have held : (m.deref ⟨0, 0⟩).Shows (structCells (initialAttachApnFields abi info.authType ++
      [pointerMember abi none (.ptr .cstr)])) := deref_shows (b := 0) hm
  have shown := shows_member 0 _ (by simpa using (shows_append.mp held).1)
  have hbf : BufFmts.attchAPN ≠ .void := by decide
  have hbuf : (initialAttachApn abi protocol info numeric).buf m = some (m.deref ⟨0, 0⟩) := rfl
  rw [queuedBuf, if_pos ⟨hbf, hpos⟩, hlen, hbuf] at hv'
  obtain ⟨w, hw, hw'⟩ := reads_member _ hv hv'
  cases w <;> simp only [pointerMember, Reads] at hw hw'
  · -- The copy ends where the NULL begins.
    have hend := shows_null.mp hw' 0 (abi_pointer_pos abi)
    rw [View.drop, Nat.add_zero, memcpy_behind _ _ le_rfl] at hend
    cases hend
  · obtain ⟨q, hq, -⟩ := hw
    exact pointer_ne_null (abi_pointer_pos abi) hq shown

/-- A pointer to a stack block, in a struct or an array that is copied: either the copy cuts it
off, or it leads to whatever stands there by then. -/
theorem not_sameValue_dangling {call : Call} (pre post : List Member) {align : ℕ} {p : Pointer}
    {t : CType} (tail : Contents) (b : UInt8) (hdata : call.data = some ⟨0, 0⟩)
    (htype : call.type =
      structType 0 (pre ++ ⟨align, pointerCells abi.pointer (some p), .ptr t⟩ :: post))
    (hcells : (call.frame 0).cells =
      structFields 0 (pre ++ ⟨align, pointerCells abi.pointer (some p), .ptr t⟩ :: post) ++ tail)
    (hbf : call.bf ≠ .void) (hlen : 0 < call.buflen)
    (hstack : (call.frame p.block).storage = .stack)
    (hb : ∀ m : Memory, m.Holds call.frame → m.deref p 0 = .byte b)
    (hfirst : ∀ {m m' : Memory} {view view' : View} {w : CValue}, Reads abi.pointer m t view w →
      Reads abi.pointer m' t view' w → view 0 = view' 0) : ¬ SameValue abi call := by
  have hW := abi_pointer_pos abi
  refine not_sameValue (fun _ _ => .byte (if b = 0 then 1 else 0)) fun m hm v hv hv' => ?_
  have shown : (m.deref ⟨0, 0⟩).Shows (call.frame 0).cells := deref_shows hm
  rw [hcells, shows_append] at shown
  have hx := shows_member 0 _ (by simpa using shown.1)
  simp only [Call.buf, hdata, Option.map_some, ReadsData] at hv hv'
  rw [queuedBuf, if_pos ⟨hbf, hlen.ne'⟩] at hv'
  simp only [htype] at hv hv'
  obtain ⟨w, hw, hw'⟩ := reads_member _ hv hv'
  by_cases hcov : memberOffset 0 pre align + abi.pointer ≤ call.buflen
  · have hcopy := memcpy_shows (fun _ => .byte 1) _ (by simpa using hcov) hx
    obtain ⟨u, hu, hu'⟩ := reads_pointer_agree hW hw hw' hx hcopy
    have he := hfirst hu hu'
    rw [hb m hm, Memory.deref, lasting_fill_stack hstack] at he
    have hne := Cell.byte.inj he
    split at hne <;> simp_all
  · have last := memcpy_behind (fun _ => .byte 1) (m.deref ⟨0, 0⟩) (n := call.buflen)
      (k := memberOffset 0 pre align + (abi.pointer - 1)) (by omega)
    cases w <;> simp only [Reads] at hw'
    · have hend := (shows_null.mp hw' (abi.pointer - 1) (by omega)).symm.trans last
      cases hend
    · obtain ⟨q, hq, -⟩ := hw'
      have hend := (shows_pointer.mp hq (abi.pointer - 1) (by omega)).symm.trans last
      cases hend

theorem raw_ne_void : BufFmts.raw ≠ .void := by decide

theorem raw_ne_ignore : BufFmts.raw ≠ .ignore := by decide

/-- Reading a struct whose first member is an opaque object reads that object's first byte. -/
theorem reads_struct_first {W n align : ℕ} (hn : 0 < n) {cells : Contents} {rest : List Member}
    {m m' : Memory} {view view' : View} {w : CValue}
    (h : Reads W m (structType 0 (⟨align, cells, .bytes n⟩ :: rest)) view w)
    (h' : Reads W m' (structType 0 (⟨align, cells, .bytes n⟩ :: rest)) view' w) :
    view 0 = view' 0 := by
  obtain ⟨u, hu, hu'⟩ := reads_member [] h h'
  simp only [memberOffset, padding_zero, Nat.add_zero, drop_zero] at hu hu'
  exact reads_bytes_agree hu hu' hn

theorem sameValue_broadcast_nil (size : ℕ) : SameValue abi (broadcastConfigCall abi size []) := by
  apply sameValue_of_stored rfl raw_ne_void (Nat.zero_le _) (fun _ => rfl)
  have none : ∀ x ∈ ([] : List Member), Stored abi.pointer
      (broadcastConfigCall abi size []).frame.lasting x.cells x.type := by simp
  exact stored_array none

theorem not_sameValue_broadcast {size n align : ℕ} {l : List UInt8} (hl : l.length = n)
    (hn : 0 < n) (rest : List Member) (cs : List (List Member)) :
    ¬ SameValue abi (broadcastConfigCall abi size ((⟨align, bytes l, .bytes n⟩ :: rest) :: cs)) := by
  have hfields : ∀ c : List Member, packed ((c :: cs).mapIdx fun i c =>
      pointerMember abi (some ⟨1, i * size⟩) (structType 0 c)) =
      [] ++ ⟨1, pointerCells abi.pointer (some ⟨1, 0 * size⟩), .ptr (structType 0 c)⟩ ::
        packed (cs.mapIdx fun i c =>
          pointerMember abi (some ⟨1, (i + 1) * size⟩) (structType 0 c)) := by
    intro c
    simp [packed, List.mapIdx_cons, pointerMember]
  have hpos := abi_pointer_pos abi
  refine not_sameValue_dangling [] _ [] l[0] rfl
    (congrArg (structType 0) (hfields (⟨align, bytes l, .bytes n⟩ :: rest))) ?_ raw_ne_void ?_ rfl
    ?_ (reads_struct_first hn)
  · rw [List.append_nil]
    exact congrArg (structFields 0) (hfields _)
  · exact Nat.mul_pos (by simp) hpos
  · intro m hm
    have shown : (m 1).Shows (structCells (⟨align, bytes l, .bytes n⟩ :: rest) ++
        cs.flatMap structCells) := hm 1
    have first := (shows_append.mp (shows_append.mp shown).1).1
    have hcell := shows_member 0 [] (by simpa using first)
    simp only [memberOffset, padding_zero, Nat.add_zero, drop_zero] at hcell
    simpa [Memory.deref, View.drop] using shows_bytes.mp hcell 0 (by omega)

theorem sameValue_setGsmBroadcastConfig_iff (configInfo : List GsmBroadcastSmsConfigInfo) :
    SameValue abi (setGsmBroadcastConfig abi configInfo) ↔ configInfo = [] := by
  cases configInfo with
  | nil => exact iff_of_true (sameValue_broadcast_nil _) rfl
  | cons info infos =>
    exact iff_of_false (not_sameValue_broadcast (n := 4) rfl (by decide) _ _) (List.cons_ne_nil _ _)

theorem sameValue_setCdmaBroadcastConfig_iff (header : RilCdmaSms)
    (configInfo : List CdmaBroadcastSmsConfigInfo) :
    SameValue abi (setCdmaBroadcastConfig abi header configInfo) ↔ configInfo = [] := by
  cases configInfo with
  | nil => exact iff_of_true (sameValue_broadcast_nil _) rfl
  | cons info infos =>
    refine iff_of_false ?_ (List.cons_ne_nil _ _)
    exact not_sameValue_broadcast (header.length_config info) header.config_pos _ _

theorem not_sameValue_dispatchImsCdmaSms {header : RilCdmaSms} {message : ImsSmsMessage}
    {call : Call} (h : dispatchImsCdmaSms abi header message = some call) :
    ¬ SameValue abi call := by
  unfold dispatchImsCdmaSms at h
  split at h
  · rename_i sms _
    cases h
    have hlen := header.length_message sms
    have hpos := header.message_pos
    refine not_sameValue_dangling [intMember radioTech3gpp2,
      ucharMember (boolToInt message.retry).toUInt8, intMember message.messageRef] [] _
      (header.constructCdmaSms sms)[0] (p := ⟨1, 0⟩) rfl rfl rfl raw_ne_void ?_ rfl ?_ ?_
    · exact Nat.add_pos_right _ hpos
    · intro m hm
      have shown : (m 1).Shows (bytes (header.constructCdmaSms sms)) := hm 1
      simpa [Memory.deref, View.drop] using shows_bytes.mp shown 0 (by omega)
    · exact fun hr hr' => reads_bytes_agree hr hr' hpos
  · cases h

/-! ## Handed over at once

A request that is not queued always leads to a value, but for an operator name that fills its
eight bytes. -/

def ReadsDirectly (abi : Abi) (call : Call) : Prop :=
  ∀ m : Memory, m.Holds call.frame → ∃ v, ReadsData abi.pointer m call.type (call.buf m) v

theorem readsDirectly_of_sameValue {call : Call} (h : SameValue abi call) :
    ReadsDirectly abi call := by
  intro m hm
  obtain ⟨v, hv, -⟩ := h (fun _ => .byte 0) m m hm hm.lasting
  exact ⟨v, hv⟩

theorem readsDirectly_of_stored {call : Call} (hdata : call.data = some ⟨0, 0⟩)
    (h : Stored abi.pointer call.frame (call.frame 0).cells call.type) :
    ReadsDirectly abi call := by
  intro m hm
  obtain ⟨v, hv⟩ := h
  refine ⟨v, ?_⟩
  simpa [Call.buf, hdata, ReadsData] using hv m hm _ (deref_shows hm)

theorem readsDirectly_dispatchString (pRI : RequestInfo) (str : List UInt8) :
    ReadsDirectly abi (dispatchString abi pRI str) := by
  by_cases hz : (cString str).length = 0
  · intro m _
    refine ⟨.null, ?_⟩
    simp [dispatchString, Call.buf, copyHidlStringToRil, hz, ReadsData]
  · exact readsDirectly_of_stored (if_neg hz) (stored_hidlBlock hz)

theorem stored_hidlBlockOrEmpty {b : ℕ} {src : HidlString}
    (hb : frame b = hidlBlockOrEmpty src) :
    Stored abi.pointer frame (pointerMember abi (some ⟨b, 0⟩) .cstr).cells
      (pointerMember abi (some ⟨b, 0⟩) .cstr).type := by
  refine stored_pointer (hidlBlockOrEmpty src).cells (fun m hm => hb ▸ deref_shows hm) ?_
  by_cases h : src.length = 0
  · simp only [hidlBlockOrEmpty, h, if_true]
    exact stored_cstr (List.mem_singleton_self 0)
  · simp only [hidlBlockOrEmpty, h, if_false]
    exact stored_hidlBlock h

theorem readsDirectly_initialAttachApn (protocol : HidlString) (info : DataProfileInfo)
    {numeric : List UInt8} (h : (cString numeric).length < 8) :
    ReadsDirectly abi (initialAttachApn abi protocol info numeric) := by
  apply readsDirectly_of_stored rfl
  apply stored_struct
  simp only [initialAttachApnFields, List.cons_append, List.nil_append, List.forall_mem_cons]
  refine ⟨stored_hidlBlockOrEmpty rfl, stored_hidlBlockOrEmpty rfl, stored_int _,
    stored_hidlBlockOrEmpty rfl, stored_hidlBlockOrEmpty rfl, ?_, stored_int _, stored_null _,
    by simp⟩
  exact stored_pointer _ (fun m hm => deref_shows hm) (stored_cstr (zero_mem_strncpy h))

theorem readsDirectly_initialAttachApnV15 (info : DataProfileInfo) (modemCognitive : Bool)
    (mvnoType : List UInt8) :
    ReadsDirectly abi (initialAttachApnV15 abi info modemCognitive mvnoType) := by
  apply readsDirectly_of_stored rfl
  apply stored_struct
  simp only [List.forall_mem_cons]
  refine ⟨stored_string rfl, stored_string rfl, stored_string rfl, stored_int _,
    stored_string rfl, stored_string rfl, stored_int _, stored_int _, stored_int _,
    stored_int _, ?_, stored_string rfl, by simp⟩
  exact stored_pointer _ (fun m hm => deref_shows hm) (stored_cstr (by simp))

theorem readsDirectly_broadcast {size : ℕ} {configs : List (List Member)}
    (hsize : ∀ c ∈ configs, (structCells c).length = size)
    (hstored : ∀ c ∈ configs, ∀ frame, ∀ x ∈ c, Stored abi.pointer frame x.cells x.type) :
    ReadsDirectly abi (broadcastConfigCall abi size configs) := by
  apply readsDirectly_of_stored rfl
  apply stored_array
  intro x hx
  obtain ⟨i, hi, rfl⟩ := List.mem_mapIdx.mp hx
  have hmem := List.getElem_mem hi
  refine stored_pointer (structCells configs[i]) (fun m hm => ?_)
    (stored_struct (hstored _ hmem _))
  exact shows_flatMap (hm 1) hsize i hi

theorem readsDirectly_dispatchImsCdmaSms {header : RilCdmaSms} {message : ImsSmsMessage}
    {call : Call} (h : dispatchImsCdmaSms abi header message = some call) :
    ReadsDirectly abi call := by
  unfold dispatchImsCdmaSms at h
  split at h
  · rename_i sms _
    cases h
    apply readsDirectly_of_stored rfl
    apply stored_struct
    simp only [imsSmsMembers, List.forall_mem_cons]
    refine ⟨stored_int _, stored_uchar _, stored_int _, ?_, by simp⟩
    refine stored_pointer _ (fun m hm => deref_shows hm) ?_
    exact header.length_message sms ▸ stored_bytes (header.constructCdmaSms sms)
  · cases h

/-- Where the direct value exists, the copy has to lead to that one. -/
theorem sameValue_iff_of_readsDirectly {call : Call} (h : ReadsDirectly abi call) :
    SameValue abi call ↔ ∀ (junk : View) (m m' : Memory), m.Holds call.frame →
      m'.Holds call.frame.lasting → ∀ v, ReadsData abi.pointer m call.type (call.buf m) v →
        ReadsData abi.pointer m' call.type
          (queuedBuf (memcpy junk) (call.buf m) call.buflen call.bf) v := by
  constructor
  · intro hsame junk m m' hm hm' v hv
    obtain ⟨w, hw, hw'⟩ := hsame junk m m' hm hm'
    rwa [readsData_unique (abi_pointer_pos abi) hv hw]
  · intro hall junk m m' hm hm'
    obtain ⟨v, hv⟩ := h m hm
    exact ⟨v, hv, hall junk m m' hm hm' v hv⟩

/-- strncpy terminates the operator name. -/
def Request.Terminated (pRI : RequestInfo) : Request → Prop
  | .setInitialAttachApn version prop _ _ _ =>
    version ≤ 14 → ∀ numeric ∈ operatorNumeric pRI prop, (cString numeric).length < 8
  | _ => True

theorem handed_directly_reads (abi : Abi) (header : RilCdmaSms) (r : Request) (pRI : RequestInfo)
    (h : r.Terminated pRI) : ∀ call ∈ r.call abi header pRI, ReadsDirectly abi call := by
  intro call hcall
  cases r with
  | dispatchString str =>
    cases hcall
    exact readsDirectly_dispatchString pRI str
  | dispatchStrings strs =>
    cases hcall
    exact readsDirectly_of_sameValue (sameValue_dispatchStringsVec pRI _)
  | dispatchStringsVec data =>
    cases hcall
    exact readsDirectly_of_sameValue (sameValue_dispatchStringsVec pRI data)
  | dispatchInts ints =>
    cases hcall
    exact readsDirectly_of_sameValue (sameValue_dispatchInts pRI ints)
  | dispatchCallForwardStatus info =>
    cases hcall
    exact readsDirectly_of_sameValue (sameValue_dispatchCallForwardStatus pRI info)
  | dispatchIccApdu message =>
    cases hcall
    exact readsDirectly_of_sameValue (sameValue_dispatchIccApdu message)
  | iccIOForApp iccIo =>
    cases hcall
    exact readsDirectly_of_sameValue (sameValue_iccIOForApp iccIo)
  | writeSmsToSim args =>
    cases hcall
    exact readsDirectly_of_sameValue (sameValue_writeSmsToSim args)
  | setInitialAttachApn version prop info modemCognitive isRoaming =>
    simp only [Request.call, setInitialAttachApn] at hcall
    split at hcall
    · obtain ⟨numeric, hnum, rfl⟩ := Option.map_eq_some_iff.mp hcall
      exact readsDirectly_initialAttachApn _ info (h ‹_› numeric hnum)
    · obtain ⟨mvnoType, -, rfl⟩ := Option.map_eq_some_iff.mp hcall
      exact readsDirectly_initialAttachApnV15 info modemCognitive mvnoType
  | setGsmBroadcastConfig configInfo =>
    cases hcall
    apply readsDirectly_broadcast
    · intro c hc
      obtain ⟨info, -, rfl⟩ := List.mem_map.mp hc
      exact length_gsmBci info
    · intro c hc frame
      obtain ⟨info, -, rfl⟩ := List.mem_map.mp hc
      simp only [gsmBci, List.forall_mem_cons]
      exact ⟨stored_int _, stored_int _, stored_int _, stored_int _, stored_uchar _, by simp⟩
  | setCdmaBroadcastConfig configInfo =>
    cases hcall
    apply readsDirectly_broadcast
    · intro c hc
      obtain ⟨info, -, rfl⟩ := List.mem_map.mp hc
      simp [structCells, structFields, padding, maxAlign, header.length_config, Nat.mod_one]
    · intro c hc frame x hx
      obtain ⟨info, -, rfl⟩ := List.mem_map.mp hc
      rw [List.mem_singleton.mp hx]
      exact header.length_config info ▸ stored_bytes (header.cdmaBci info)
  | dispatchImsGsmSms message =>
    exact readsDirectly_of_sameValue (sameValue_dispatchImsGsmSms hcall)
  | dispatchImsCdmaSms message => exact readsDirectly_dispatchImsCdmaSms hcall

/-! ## Every request -/

/-- Which payloads survive the copy, or never come to be copied. -/
def Request.Survives (abi : Abi) (pRI : RequestInfo) : Request → Prop
  | .dispatchString str => 0 < (cString str).length ∧ (cString str).length < abi.pointer
  | .setInitialAttachApn version prop _ _ _ => 14 < version ∨ operatorNumeric pRI prop = none
  | .setGsmBroadcastConfig configInfo => configInfo = []
  | .setCdmaBroadcastConfig configInfo => configInfo = []
  | .dispatchImsCdmaSms message => message.cdmaMessage.length ≠ 1
  | _ => True

theorem ignoreBF_iff (pRI : RequestInfo) :
    ignoreBF pRI = true ↔ queuedChannel pRI.pCI.proxyId = none := by
  simp only [ignoreBF, queuedChannel]
  cases pRI.pCI.proxyId <;> decide

/-- Past the queues on every channel but the two; FMT_IGNORE then says the same. -/
theorem bypasses_iff (pRI : RequestInfo) {bf : BufFmts} (h : bf ≠ .ignore) :
    (Bypasses bf pRI ↔ queuedChannel pRI.pCI.proxyId = none) ∧
      (Bypasses (fmtUnlessIgnored pRI bf) pRI ↔ queuedChannel pRI.pCI.proxyId = none) := by
  constructor
  · simp [Bypasses, h]
  · simp only [Bypasses, fmtUnlessIgnored, ignoreBF_iff]
    split <;> simp_all

theorem setInitialAttachApn_queues_iff {pRI : RequestInfo} {version : ℕ} {prop : List UInt8}
    {info : DataProfileInfo} {modemCognitive isRoaming : Bool} :
    (∀ call ∈ setInitialAttachApn abi pRI version prop info modemCognitive isRoaming,
      Bypasses call.bf pRI ∨ SameValue abi call) ↔
      queuedChannel pRI.pCI.proxyId = none ∨ 14 < version ∨ operatorNumeric pRI prop = none := by
  by_cases hv : version ≤ 14
  · cases hnum : operatorNumeric pRI prop with
    | none => simp [setInitialAttachApn, hv, hnum]
    | some numeric =>
      have hone : ¬ SameValue abi (initialAttachApn abi
          (if isRoaming then info.roamingProtocol else info.protocol) info numeric) :=
        not_sameValue_initialAttachApn _ info numeric
      have hbf := (bypasses_iff pRI (show BufFmts.attchAPN ≠ .ignore by decide)).1
      simp only [setInitialAttachApn, hv, hnum, if_true, Option.map_some, Option.mem_some_iff,
        forall_eq', hone, or_false]
      exact hbf.trans (by simp; omega)
  · refine iff_of_true (fun call hcall => Or.inl (Or.inl ?_)) (Or.inr (Or.inl (by omega)))
    simp only [setInitialAttachApn, hv, if_false, Option.mem_def, Option.map_eq_some_iff] at hcall
    obtain ⟨mvnoType, -, rfl⟩ := hcall
    rfl

theorem dispatchImsCdmaSms_queues_iff {header : RilCdmaSms} {pRI : RequestInfo}
    {message : ImsSmsMessage} :
    (∀ call ∈ dispatchImsCdmaSms abi header message,
      Bypasses call.bf pRI ∨ SameValue abi call) ↔
      queuedChannel pRI.pCI.proxyId = none ∨ message.cdmaMessage.length ≠ 1 := by
  have hbf := (bypasses_iff pRI raw_ne_ignore).1
  cases hcall : dispatchImsCdmaSms abi header message with
  | none =>
    refine iff_of_true (by simp) (Or.inr fun hlen => ?_)
    obtain ⟨sms, hsms⟩ := List.length_eq_one_iff.mp hlen
    simp [dispatchImsCdmaSms, hsms] at hcall
  | some call =>
    have hone := not_sameValue_dispatchImsCdmaSms hcall
    unfold dispatchImsCdmaSms at hcall
    split at hcall
    · rename_i sms hsms
      cases hcall
      simp only [Option.mem_some_iff, forall_eq', hone, or_false]
      exact hbf.trans (by simp [hsms])
    · cases hcall

/-- A request's queued copy leads to the value its buffer leads to exactly when the request is
never queued or its payload survives the copy. -/
theorem queued_as_direct_iff (abi : Abi) (header : RilCdmaSms) (r : Request) (request : ℕ)
    (pRI : RequestInfo) :
    (∀ call ∈ r.call abi header pRI, QueuedAsDirect abi call request pRI) ↔
      queuedChannel pRI.pCI.proxyId = none ∨ r.Survives abi pRI := by
  simp only [queuedAsDirect_iff]
  cases r with
  | dispatchString str =>
    simp only [Request.call, Request.Survives, Option.mem_some_iff, forall_eq',
      sameValue_dispatchString_iff]
    exact or_congr_left (bypasses_iff pRI (show BufFmts.str ≠ .ignore by decide)).2
  | dispatchStrings strs =>
    simp [Request.call, Request.Survives, dispatchStrings, sameValue_dispatchStringsVec]
  | dispatchStringsVec data =>
    simp [Request.call, Request.Survives, sameValue_dispatchStringsVec]
  | dispatchInts ints => simp [Request.call, Request.Survives, sameValue_dispatchInts]
  | dispatchCallForwardStatus info =>
    simp [Request.call, Request.Survives, sameValue_dispatchCallForwardStatus]
  | dispatchIccApdu message => simp [Request.call, Request.Survives, sameValue_dispatchIccApdu]
  | iccIOForApp iccIo => simp [Request.call, Request.Survives, sameValue_iccIOForApp]
  | writeSmsToSim args => simp [Request.call, Request.Survives, sameValue_writeSmsToSim]
  | setInitialAttachApn version prop info modemCognitive isRoaming =>
    exact setInitialAttachApn_queues_iff
  | setGsmBroadcastConfig configInfo =>
    simp only [Request.call, Request.Survives, Option.mem_some_iff, forall_eq',
      sameValue_setGsmBroadcastConfig_iff]
    exact or_congr_left (bypasses_iff pRI raw_ne_ignore).1
  | setCdmaBroadcastConfig configInfo =>
    simp only [Request.call, Request.Survives, Option.mem_some_iff, forall_eq',
      sameValue_setCdmaBroadcastConfig_iff]
    exact or_congr_left (bypasses_iff pRI raw_ne_ignore).1
  | dispatchImsGsmSms message =>
    refine iff_of_true (fun call hcall => ?_) (Or.inr trivial)
    exact Or.inr (sameValue_dispatchImsGsmSms hcall)
  | dispatchImsCdmaSms message => exact dispatchImsCdmaSms_queues_iff

/-- One broadcast configuration, queued: the vendor reads it off the stack of a function that has
returned. -/
theorem queued_broadcast_config_dangles :
    ¬ QueuedAsDirect .lp64 (setGsmBroadcastConfig .lp64 [⟨0, 999, 0, 255, true⟩]) 90
      ⟨0, ⟨90, rilCmdProxy1⟩, .socket1⟩ := by
  rw [queuedAsDirect_iff, sameValue_setGsmBroadcastConfig_iff]
  rintro ((h | h) | h)
  · cases h
  · cases h
  · cases h

end RilDispatch
