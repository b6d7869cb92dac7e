import Mathlib.Data.List.Range
import VendorMediatek.RilRequestBuffers

/-!
# Releases of request buffers

What `clearPendingBuffer` frees for each format, read from the memory the call has set up, and what
becomes of a request's ledger on the two ways of `my_enqueue`.
-/

namespace RilRequestBuffers

open CMemory RilChannelQueue RilDispatch HeapLedgers

variable {abi : Abi}

/-! ## Pointers in memory -/

theorem loadPointer_eq {W : ℕ} (hW : 0 < W) {view : View} {off : ℕ} {p : Option Pointer}
    (h : (view.drop off).Shows (pointerCells W p)) : loadPointer view off = p := by
  cases p with
  | none =>
    have hcell := shows_null.mp h 0 hW
    simp only [View.drop, Nat.add_zero] at hcell
    simp only [loadPointer, hcell]
  | some p =>
    have hcell := shows_pointer.mp h 0 hW
    simp only [View.drop, Nat.add_zero] at hcell
    simp only [loadPointer, hcell]

/-- What a member's place depends on. -/
def layout (x : Member) : ℕ × ℕ := (x.align, x.cells.length)

@[simp] theorem layout_intMember (x : UInt32) : layout (intMember x) = (4, 4) := rfl

@[simp] theorem layout_ucharMember (x : UInt8) : layout (ucharMember x) = (1, 1) := rfl

@[simp] theorem layout_pointerMember (p : Option Pointer) (t : CType) :
    layout (pointerMember abi p t) = (abi.pointer, abi.pointer) := by
  simp [layout, pointerMember]

@[simp] theorem layout_stringMember (b : ℕ) (src : HidlString) :
    layout (stringMember abi b src) = (abi.pointer, abi.pointer) := layout_pointerMember _ _

theorem memberOffset_congr {xs ys : List Member} (h : xs.map layout = ys.map layout)
    (off align : ℕ) : memberOffset off xs align = memberOffset off ys align := by
  induction xs generalizing ys off with
  | nil =>
    rw [List.map_nil, eq_comm, List.map_eq_nil_iff] at h
    rw [h]
  | cons x xs ih =>
    cases ys with
    | nil => cases h
    | cons y ys =>
      obtain ⟨hxy, hrest⟩ := List.cons.inj h
      obtain ⟨halign, hlen⟩ := Prod.mk.inj hxy
      rw [memberOffset, memberOffset, halign, hlen]
      exact ih hrest _

/-- The struct shows the pointer where the fields in front of it put it. -/
theorem pointerBehind_eq {view : View} {members : List Member} {p : Option Pointer} {t : CType}
    (front : List Field) (h : view.Shows (structFields 0 members))
    (hmember : members[front.length]? = some (pointerMember abi p t))
    (hfront : (front.map (Field.member abi)).map layout = (members.take front.length).map layout) :
    pointerBehind abi view front = p := by
  obtain ⟨hlt, hx⟩ := List.getElem?_eq_some_iff.mp hmember
  have split : members = members.take front.length ++
      pointerMember abi p t :: members.drop (front.length + 1) := by
    rw [← hx, List.getElem_cons_drop, List.take_append_drop]
  rw [split] at h
  have shown := shows_member 0 (members.take front.length) (by rwa [drop_zero])
  rw [pointerBehind, memberOffset_congr hfront]
  exact loadPointer_eq (abi_pointer_pos abi) shown

theorem structFields_packed (xs : List Member) (off : ℕ) :
    structFields off (packed xs) = xs.flatMap Member.cells := by
  induction xs generalizing off with
  | nil => rfl
  | cons x xs ih =>
    have hpad : padding 1 off = 0 := by rw [padding, Nat.mod_one]
    rw [packed, List.map_cons, structFields, hpad, List.replicate_zero, List.nil_append, ← packed,
      ih, List.flatMap_cons]

theorem loadPointer_array {view : View} {xs : List Member} {p : Option Pointer} {t : CType}
    (h : view.Shows (structFields 0 (packed xs))) (hlen : ∀ x ∈ xs, x.cells.length = abi.pointer)
    {i : ℕ} (hi : i < xs.length) (hx : xs[i] = pointerMember abi p t) :
    loadPointer view (i * abi.pointer) = p := by
  rw [structFields_packed] at h
  have element := shows_flatMap h hlen i hi
  rw [hx] at element
  exact loadPointer_eq (abi_pointer_pos abi) element

theorem loadPointer_strings {view : View} {first : ℕ} {data : List HidlString}
    (h : view.Shows (structFields 0 (stringPointers abi first data))) {i : ℕ}
    (hi : i < data.length) :
    loadPointer view (i * abi.pointer) = copyHidlStringToRil (first + i) data[i] := by
  refine loadPointer_array h ?_ (by simpa using hi) (t := .cstr) (by simp [stringMember])
  intro x hx
  obtain ⟨k, hk, rfl⟩ := List.mem_mapIdx.mp hx
  simp [stringMember, pointerMember]

/-! ## Strings -/

theorem copyHidlStringToRil_offset {b : ℕ} {src : HidlString} {p : Pointer}
    (h : copyHidlStringToRil b src = some p) : p = ⟨b, 0⟩ := by
  rw [copyHidlStringToRil] at h
  split at h
  · cases h
  · exact (Option.some.inj h).symm

/-- Pointers to the strings of these blocks. -/
def copiesAt (strs : List (ℕ × HidlString)) : List (Option Pointer) :=
  strs.map fun s => copyHidlStringToRil s.1 s.2

theorem calloced_copiesAt_sublist (strs : List (ℕ × HidlString)) :
    (calloced (copiesAt strs)).Sublist (strs.map Prod.fst) := by
  induction strs with
  | nil => exact List.Sublist.slnil
  | cons s strs ih =>
    rw [copiesAt, List.map_cons, ← copiesAt]
    cases hs : copyHidlStringToRil s.1 s.2 with
    | none => exact ih.cons s.1
    | some p =>
      rw [calloced, List.reduceOption_cons_of_some, List.map_cons, ← calloced,
        copyHidlStringToRil_offset hs]
      exact ih.cons_cons s.1

theorem reduceOption_places (strs : List (ℕ × HidlString)) :
    (places (copiesAt strs)).reduceOption =
      ((calloced (copiesAt strs)).map HeapBlock.payload).map fun b => (b, 0) := by
  induction strs with
  | nil => rfl
  | cons s strs ih =>
    rw [copiesAt, List.map_cons, ← copiesAt]
    cases hs : copyHidlStringToRil s.1 s.2 with
    | none => exact ih
    | some p =>
      obtain rfl := copyHidlStringToRil_offset hs
      exact congrArg ((HeapBlock.payload s.1, 0) :: ·) ih

theorem stringPtrs_eq (first : ℕ) (data : List HidlString) :
    stringPtrs first data = copiesAt (data.mapIdx fun i s => (first + i, s)) := by
  refine List.ext_getElem (by simp [stringPtrs, copiesAt]) fun i hi _ => ?_
  simp [stringPtrs, copiesAt]

theorem fst_mapIdx {α γ : Type} (place : ℕ → ℕ) (f : α → γ) (data : List α) :
    (data.mapIdx fun i x => (place i, f x)).map Prod.fst = (List.range data.length).map place := by
  refine List.ext_getElem (by simp) fun i hi _ => ?_
  simp

/-- Blocks that are freed once: those of the strings with the numbers in numbers. -/
theorem nodup_payloads {blocks numbers : List ℕ} (h : blocks.Sublist numbers)
    (hnodup : numbers.Nodup) : (blocks.map HeapBlock.payload).Nodup :=
  (h.nodup hnodup).map fun _ _ => HeapBlock.payload.inj

theorem releases_strings (memsetFreed : Bool) (strs : List (ℕ × HidlString))
    (h : (strs.map Prod.fst).Nodup) :
    Releases (memsetAndFreeStrings memsetFreed (places (copiesAt strs)))
      ((calloced (copiesAt strs)).map HeapBlock.payload) := by
  rw [memsetAndFreeStrings, reduceOption_places]
  exact releases_release memsetFreed (nodup_payloads (calloced_copiesAt_sublist strs) h)

theorem releases_stringArray {owner : ℕ} {strs : List (ℕ × HidlString)}
    (h : (owner :: strs.map Prod.fst).Nodup) :
    Releases (releaseThrough false (.payload owner) (places (copiesAt strs)) ++
        [.free (.payload owner) 0])
      ((owner :: calloced (copiesAt strs)).map HeapBlock.payload) := by
  have hnodup := nodup_payloads ((calloced_copiesAt_sublist strs).cons_cons owner) h
  have strings := releases_releaseThrough false (reduceOption_places strs) hnodup
  refine (strings.append (releases_free (HeapBlock.payload owner)) ?_).perm ?_
  · intro o ho
    rw [List.mem_singleton.mp ho]
    exact (List.nodup_cons.mp hnodup).1
  · exact List.perm_append_singleton _ _

theorem calloced_perm {strs strs' : List (ℕ × HidlString)} (h : strs.Perm strs') :
    (calloced (copiesAt strs)).Perm (calloced (copiesAt strs')) :=
  (((h.map _).filterMap id).map Pointer.block)

/-! ## The formats of clearPendingBuffer -/

section Formats

variable {m : Memory} {view : View} {b : HeapBlock} {buflen : ℕ}

theorem clear_callFWST {status reason serviceClass toa timeSeconds : UInt32} {number : HidlString}
    (h : view.Shows (structFields 0 [intMember status, intMember reason, intMember serviceClass,
      intMember toa, stringMember abi 1 number, intMember timeSeconds])) :
    Releases (clearPendingBuffer abi m .callFWST (some (b, 0)) view buflen)
      ((calloced (copiesAt [(1, number)])).map HeapBlock.payload) := by
  have hnumber := pointerBehind_eq [.int, .int, .int, .int] h rfl (by simp [Field.member])
  simp only [clearPendingBuffer, hnumber]
  exact (releases_strings true [(1, number)] (by simp)).use b

theorem clear_iccAPDU {sessionId cla instruction p1 p2 p3 : UInt32} {data : HidlString}
    (h : view.Shows (structFields 0 [intMember sessionId, intMember cla, intMember instruction,
      intMember p1, intMember p2, intMember p3, stringMember abi 1 data])) :
    Releases (clearPendingBuffer abi m .iccAPDU (some (b, 0)) view buflen)
      ((calloced (copiesAt [(1, data)])).map HeapBlock.payload) := by
  have hdata := pointerBehind_eq [.int, .int, .int, .int, .int, .int] h rfl (by simp [Field.member])
  simp only [clearPendingBuffer, hdata]
  exact (releases_strings true [(1, data)] (by simp)).use b

theorem clear_simio {command fileId p1 p2 p3 : UInt32} {path data pin2 aid : HidlString}
    (h : view.Shows (structFields 0 [intMember command, intMember fileId,
      stringMember abi 1 path, intMember p1, intMember p2, intMember p3, stringMember abi 2 data,
      stringMember abi 3 pin2, stringMember abi 4 aid])) :
    Releases (clearPendingBuffer abi m .simio (some (b, 0)) view buflen)
      ((calloced (copiesAt [(1, path), (2, data), (3, pin2), (4, aid)])).map
        HeapBlock.payload) := by
  have hpath := pointerBehind_eq [.int, .int] h rfl (by simp [Field.member])
  have hdata := pointerBehind_eq [.int, .int, .pointer, .int, .int, .int] h rfl
    (by simp [Field.member])
  have hpin2 := pointerBehind_eq [.int, .int, .pointer, .int, .int, .int, .pointer] h rfl
    (by simp [Field.member])
  have haid := pointerBehind_eq [.int, .int, .pointer, .int, .int, .int, .pointer, .pointer] h rfl
    (by simp [Field.member])
  simp only [clearPendingBuffer, hpath, hdata, hpin2, haid]
  exact (releases_strings true [(1, path), (2, data), (3, pin2), (4, aid)] (by simp)).use b

/-- The strings are freed in another order than they were copied in. -/
theorem clear_wrSMSSIM {status : UInt32} {pdu smsc : HidlString}
    (h : view.Shows (structFields 0 [intMember status, stringMember abi 1 pdu,
      stringMember abi 2 smsc])) :
    Releases (clearPendingBuffer abi m .wrSMSSIM (some (b, 0)) view buflen)
      ((calloced (copiesAt [(1, pdu), (2, smsc)])).map HeapBlock.payload) := by
  have hpdu := pointerBehind_eq [.int] h rfl (by simp [Field.member])
  have hsmsc := pointerBehind_eq [.int, .pointer] h rfl (by simp [Field.member])
  have order : [(2, smsc), (1, pdu)].Perm [(1, pdu), (2, smsc)] := List.Perm.swap _ _ _
  simp only [clearPendingBuffer, hpdu, hsmsc]
  have strings := releases_strings true [(2, smsc), (1, pdu)] (by simp)
  exact (strings.perm ((calloced_perm order).map _)).use b

theorem clear_attchAPN {authType : UInt32}
    (h : view.Shows (structFields 0 (initialAttachApnFields abi authType))) :
    Releases (clearPendingBuffer abi m .attchAPN (some (b, 0)) view buflen)
      ([1, 2, 3, 4, 5].map HeapBlock.payload) := by
  have hapn := pointerBehind_eq [] h rfl rfl
  have hprotocol := pointerBehind_eq [.pointer] h rfl
    (by simp [Field.member, initialAttachApnFields])
  have husername := pointerBehind_eq [.pointer, .pointer, .int] h rfl
    (by simp [Field.member, initialAttachApnFields])
  have hpassword := pointerBehind_eq [.pointer, .pointer, .int, .pointer] h rfl
    (by simp [Field.member, initialAttachApnFields])
  have hnumeric := pointerBehind_eq [.pointer, .pointer, .int, .pointer, .pointer] h rfl
    (by simp [Field.member, initialAttachApnFields])
  simp only [clearPendingBuffer, hapn, hprotocol, husername, hpassword, hnumeric]
  have hnodup : ([1, 2, 3, 4, 5].map HeapBlock.payload).Nodup := by decide
  exact (releases_release true hnodup).use b

theorem clear_simauth {authContext : UInt32} {authData aid : HidlString}
    (h : view.Shows (structFields 0 [intMember authContext, stringMember abi 1 authData,
      stringMember abi 2 aid])) :
    Releases (clearPendingBuffer abi m .simauth (some (b, 0)) view buflen)
      ((calloced (copiesAt [(1, authData), (2, aid)])).map HeapBlock.payload) := by
  have hauthData := pointerBehind_eq [.int] h rfl (by simp [Field.member])
  have haid := pointerBehind_eq [.int, .pointer] h rfl (by simp [Field.member])
  simp only [clearPendingBuffer, hauthData, haid]
  exact (releases_strings true [(1, authData), (2, aid)] (by simp)).use b

/-- The strings of the array go first, then the array they were read from. -/
theorem clear_imsSms {tech : UInt32} {message : ImsSmsMessage} {sms : GsmSmsMessage} {t : CType}
    (h : view.Shows (structFields 0 (imsSmsMembers tech message
      (pointerMember abi (some ⟨1, 0⟩) t))))
    (hstrings : (m.deref ⟨1, 0⟩).Shows
      (structFields 0 (stringPointers abi 2 [sms.smscPdu, sms.pdu]))) :
    Releases (clearPendingBuffer abi m .imsSms (some (b, 0)) view buflen)
      ((1 :: calloced (copiesAt [(2, sms.smscPdu), (3, sms.pdu)])).map HeapBlock.payload) := by
  have harray := pointerBehind_eq [.int, .uchar, .int] h rfl (by simp [Field.member, imsSmsMembers])
  have hsmsc := loadPointer_strings hstrings (i := 0) (by simp)
  have hpdu := loadPointer_strings hstrings (i := 1) (by simp)
  rw [Nat.zero_mul] at hsmsc
  rw [Nat.one_mul] at hpdu
  simp only [clearPendingBuffer, harray, hsmsc, hpdu]
  have hnodup := nodup_payloads ((calloced_copiesAt_sublist
    [(2, sms.smscPdu), (3, sms.pdu)]).cons_cons 1) (by simp)
  have strings := releases_strings true [(2, sms.smscPdu), (3, sms.pdu)] (by simp)
  refine (((strings.append (releases_free (HeapBlock.payload 1)) ?_).perm ?_).use _).use b
  · intro o ho
    rw [List.mem_singleton.mp ho]
    exact (List.nodup_cons.mp hnodup).1
  · exact List.perm_append_singleton _ _

end Formats

/-! ## The two ways of my_enqueue -/

variable {s : ChannelState View} {request : ℕ} {pRI : RequestInfo} {r : BufferRequest} {call : Call}

def BufferRequest.blocks (r : BufferRequest) : List HeapBlock := r.callocs.map HeapBlock.payload

section Ways

variable {junk : View} {m m' : Memory}

theorem ledger_direct (hp : ¬ Pending s request call.bf pRI) :
    ledger abi junk m m' s request pRI r call =
      (r.blocks.map Op.alloc ++ onRequest r.blocks) ++ ((if call.bf ≠ .ignore then
        clearPendingBuffer abi m call.bf (call.data.map toPlace) (viewOf (call.buf m)) call.buflen
        else []) ++ r.cleanup pRI) := by
  have direct := myEnqueue_of_not_pending (memcpy junk) (call.buf m) call.buflen hp
  simp only [ledger, direct, myEnqueueDirect, List.append_assoc, BufferRequest.blocks]

/-- What stands in front of the first free of a request that waits. -/
def pendingSetup (r : BufferRequest) (call : Call) : List (Op HeapBlock) :=
  r.blocks.map Op.alloc ++ (.alloc .node :: .alloc .copy :: touch (call.data.map toPlace)) ++
    (.use .node :: onRequest r.blocks) ++ [.use .copy]

@[simp] theorem frees_pendingSetup : frees (pendingSetup r call) = [] := by
  simp [pendingSetup, onRequest]

@[simp] theorem allocations_pendingSetup :
    allocations (pendingSetup r call) = r.blocks ++ [HeapBlock.node, HeapBlock.copy] := by
  simp [pendingSetup, onRequest]

theorem ledger_pending (hp : Pending s request call.bf pRI) (hcleanup : r.cleanup pRI = [])
    (hcopies : Copies call.bf call.buflen) :
    ledger abi junk m m' s request pRI r call =
      pendingSetup r call ++ (clearPendingBuffer abi m' call.bf (some (.copy, 0))
        (memcpy junk (call.buf m) call.buflen) call.buflen ++
        ([.free .copy 0] ++ [.free .node 0])) := by
  obtain ⟨c, -, pending⟩ := myEnqueue_of_pending (memcpy junk) (call.buf m) call.buflen hp
  have copied : queuedBuf (memcpy junk) (call.buf m) call.buflen call.bf =
      some (memcpy junk (call.buf m) call.buflen) := if_pos hcopies
  simp only [ledger, pending, hcleanup, myEnqueuePending, myDequeueOps, if_pos hcopies, copied,
    viewOf, Option.getD_some, pendingSetup, BufferRequest.blocks, List.append_assoc,
    List.cons_append, List.nil_append]

theorem ledger_pending_bare (hp : Pending s request call.bf pRI) (hcleanup : r.cleanup pRI = [])
    (hcopies : ¬ Copies call.bf call.buflen) :
    ledger abi junk m m' s request pRI r call =
      (r.blocks.map Op.alloc ++ .alloc .node :: .use .node :: onRequest r.blocks) ++
        [.free .node 0] := by
  obtain ⟨c, -, pending⟩ := myEnqueue_of_pending (memcpy junk) (call.buf m) call.buflen hp
  simp only [ledger, pending, hcleanup, myEnqueuePending, myDequeueOps, if_neg hcopies,
    BufferRequest.blocks, List.append_assoc, List.cons_append, List.nil_append, List.append_nil]

theorem balanced_direct (hp : ¬ Pending s request call.bf pRI) (hnodup : r.blocks.Nodup)
    (h : Releases ((if call.bf ≠ .ignore then
      clearPendingBuffer abi m call.bf (call.data.map toPlace) (viewOf (call.buf m)) call.buflen
      else []) ++ r.cleanup pRI) r.blocks) :
    Balanced (ledger abi junk m m' s request pRI r call) := by
  have setup : allocations (r.blocks.map Op.alloc ++ onRequest r.blocks) = r.blocks := by
    simp [onRequest]
  rw [ledger_direct hp]
  refine balanced_of_releases (by simp [onRequest]) ?_ ?_
  · rwa [setup]
  · rwa [setup]

theorem payload_ne {b : HeapBlock} (h : b ∈ r.blocks) : b ≠ .copy ∧ b ≠ .node := by
  obtain ⟨n, -, rfl⟩ := List.mem_map.mp h
  exact ⟨HeapBlock.noConfusion, HeapBlock.noConfusion⟩

theorem balanced_pending (hp : Pending s request call.bf pRI) (hnodup : r.blocks.Nodup)
    (hcleanup : r.cleanup pRI = []) (hcopies : Copies call.bf call.buflen)
    (h : Releases (clearPendingBuffer abi m' call.bf (some (.copy, 0))
      (memcpy junk (call.buf m) call.buflen) call.buflen) r.blocks) :
    Balanced (ledger abi junk m m' s request pRI r call) := by
  have queue : Releases ([Op.free .copy 0] ++ [.free .node 0]) ([.copy, .node] : List HeapBlock) :=
    (releases_free HeapBlock.copy).append (releases_free HeapBlock.node) (by decide)
  rw [ledger_pending hp hcleanup hcopies]
  refine balanced_of_releases frees_pendingSetup ?_ ?_
  · rw [allocations_pendingSetup]
    refine List.Nodup.append hnodup (by decide) fun b hb hq => ?_
    obtain ⟨hcopy, hnode⟩ := payload_ne hb
    simp [hcopy, hnode] at hq
  · rw [allocations_pendingSetup]
    refine (h.append queue ?_).perm ((List.Perm.swap _ _ _).append_left _)
    intro o ho hb
    obtain ⟨hcopy, hnode⟩ := payload_ne hb
    simp only [List.cons_append, List.nil_append, List.mem_cons, List.not_mem_nil, or_false] at ho
    rcases ho with rfl | rfl
    · exact hcopy rfl
    · exact hnode rfl

theorem balanced_pending_bare (hp : Pending s request call.bf pRI) (hblocks : r.blocks = [])
    (hcleanup : r.cleanup pRI = []) (hcopies : ¬ Copies call.bf call.buflen) :
    Balanced (ledger abi junk m m' s request pRI r call) := by
  rw [ledger_pending_bare hp hcleanup hcopies, hblocks]
  exact balanced_of_releases rfl (List.nodup_singleton _) (releases_free HeapBlock.node)

end Ways

/-! ## Requests that are balanced -/

theorem callOwned_of_ignore (hbf : call.bf = .ignore) (hnodup : r.blocks.Nodup)
    (h : Releases (r.cleanup pRI) r.blocks) : CallOwned abi s request pRI r call := by
  intro junk m m' _ _
  have hp : ¬ Pending s request call.bf pRI := fun hp => hp.1 hbf
  refine balanced_direct hp hnodup ?_
  rwa [if_neg (by simp [hbf]), List.nil_append]

theorem callOwned_of_bare (hbf : call.bf = .raw ∨ call.bf = .void) (hblocks : r.callocs = [])
    (hcleanup : r.cleanup pRI = []) : CallOwned abi s request pRI r call := by
  intro junk m m' _ _
  have hnil : r.blocks = [] := congrArg (List.map HeapBlock.payload) hblocks
  have clears : ∀ m buf view, clearPendingBuffer abi m call.bf buf view call.buflen = [] := by
    rcases hbf with hbf | hbf <;> simp [hbf, clearPendingBuffer]
  by_cases hp : Pending s request call.bf pRI
  · by_cases hcopies : Copies call.bf call.buflen
    · refine balanced_pending hp (by simp [hnil]) hcleanup hcopies ?_
      rw [clears, hnil]
      exact releases_nil
    · exact balanced_pending_bare hp hnil hcleanup hcopies
  · refine balanced_direct hp (by simp [hnil]) ?_
    rw [clears, ite_self, hcleanup, hnil]
    exact releases_nil

/-! ### What stands behind the data pointer -/

section Shown

variable {m : Memory} {members : List Member} {rest : Contents}

theorem buf_eq (hdata : call.data = some ⟨0, 0⟩) : call.buf m = some (m.deref ⟨0, 0⟩) := by
  rw [Call.buf, hdata, Option.map_some]

theorem shown_direct (hcells : (call.frame 0).cells = structFields 0 members ++ rest)
    (hm : m.Holds call.frame) : (m.deref ⟨0, 0⟩).Shows (structFields 0 members) := by
  have cells : (m.deref ⟨0, 0⟩).Shows (call.frame 0).cells := deref_shows hm
  rw [hcells] at cells
  exact (shows_append.mp cells).1

theorem shown_copy (hcells : (call.frame 0).cells = structFields 0 members ++ rest)
    (hlen : (structFields 0 members).length ≤ call.buflen) (hm : m.Holds call.frame)
    (junk : View) :
    (memcpy junk (some (m.deref ⟨0, 0⟩)) call.buflen).Shows (structFields 0 members) := by
  have start := shown_direct hcells hm
  rw [← drop_zero (m.deref ⟨0, 0⟩)] at start
  have copied := memcpy_shows junk 0 ((Nat.zero_add _).trans_le hlen) start
  rwa [drop_zero] at copied

end Shown

/-- The members of a struct in the first block are shown directly and by the copy. -/
theorem callOwned_of_clears {members : List Member} {rest : Contents} (bf : BufFmts)
    (hbf : call.bf = bf) (hvoid : bf ≠ .void) (hignore : bf ≠ .ignore)
    (hdata : call.data = some ⟨0, 0⟩)
    (hcells : (call.frame 0).cells = structFields 0 members ++ rest)
    (hlen : (structFields 0 members).length ≤ call.buflen) (hpos : 0 < call.buflen)
    (hnodup : r.blocks.Nodup) (hcleanup : r.cleanup pRI = [])
    (hclear : ∀ (m : Memory) (view : View) (b : HeapBlock), m.Holds call.frame.lasting →
      view.Shows (structFields 0 members) →
      Releases (clearPendingBuffer abi m bf (some (b, 0)) view call.buflen) r.blocks) :
    CallOwned abi s request pRI r call := by
  subst hbf
  intro junk m m' hm hm'
  by_cases hp : Pending s request call.bf pRI
  · refine balanced_pending hp hnodup hcleanup ⟨hvoid, hpos.ne'⟩ ?_
    rw [buf_eq hdata]
    exact hclear m' _ .copy hm' (shown_copy hcells hlen hm junk)
  · refine balanced_direct hp hnodup ?_
    rw [if_pos hignore, hcleanup, List.append_nil, buf_eq hdata, hdata]
    exact hclear m _ (.payload 0) hm.lasting (shown_direct hcells hm)

/-! ## Requests that are not -/

theorem mem_allocations_ledger (junk : View) (m m' : Memory) {n : ℕ} (h : n ∈ r.callocs) :
    .payload n ∈ allocations (ledger abi junk m m' s request pRI r call) := by
  rw [ledger, allocations_append, allocations_map_alloc]
  exact List.mem_append_left _ (List.mem_map_of_mem h)

/-- Where the function frees nothing itself, the payload is freed by clearPendingBuffer alone. -/
theorem mem_frees_ledger {junk : View} {m m' : Memory} (hcleanup : r.cleanup pRI = []) {p : Place}
    (h : p ∈ frees (ledger abi junk m m' s request pRI r call)) :
    p.1 = .copy ∨ p.1 = .node ∨
      p ∈ frees (clearPendingBuffer abi m call.bf (call.data.map toPlace) (viewOf (call.buf m))
        call.buflen) ∨
      p ∈ frees (clearPendingBuffer abi m' call.bf (some (.copy, 0))
        (memcpy junk (call.buf m) call.buflen) call.buflen) := by
  by_cases hp : Pending s request call.bf pRI
  · by_cases hcopies : Copies call.bf call.buflen
    · rw [ledger_pending hp hcleanup hcopies, frees_append, frees_pendingSetup, List.nil_append,
        frees_append] at h
      rcases List.mem_append.mp h with h | h
      · exact Or.inr (Or.inr (Or.inr h))
      · rcases List.mem_cons.mp h with rfl | h
        · exact Or.inl rfl
        · exact Or.inr (Or.inl (congrArg Prod.fst (List.mem_singleton.mp h)))
    · rw [ledger_pending_bare hp hcleanup hcopies] at h
      simp only [onRequest, frees_append, frees_map_alloc, frees_map_use, frees_alloc, frees_use,
        frees_free, frees_nil, List.nil_append, List.mem_singleton] at h
      exact Or.inr (Or.inl (congrArg Prod.fst h))
  · rw [ledger_direct hp, hcleanup] at h
    simp only [onRequest, frees_append, frees_map_alloc, frees_map_use, List.nil_append,
      List.append_nil] at h
    split at h
    · exact Or.inr (Or.inr (Or.inl h))
    · cases h

/-- An array that clearPendingBuffer never frees stays behind on both ways. -/
theorem not_callOwned_of_leak {members : List Member} {rest : Contents} {n : ℕ}
    (hdata : call.data = some ⟨0, 0⟩)
    (hcells : (call.frame 0).cells = structFields 0 members ++ rest)
    (hlen : (structFields 0 members).length ≤ call.buflen) (hcallocs : n ∈ r.callocs)
    (hcleanup : r.cleanup pRI = [])
    (hclear : ∀ (m : Memory) (view : View) (b : HeapBlock), m.Holds call.frame.lasting →
      view.Shows (structFields 0 members) →
      ∀ p ∈ frees (clearPendingBuffer abi m call.bf (some (b, 0)) view call.buflen),
        p.1 ≠ .payload n) :
    ¬ CallOwned abi s request pRI r call := by
  intro howned
  have hm := fill_holds call.frame fun _ _ => .byte 0
  refine not_balanced_of_leak (mem_allocations_ledger _ _ _ hcallocs) ?_
    (howned (fun _ => .byte 0) _ _ hm hm.lasting)
  intro p hp he
  rcases mem_frees_ledger hcleanup hp with h | h | h | h
  · cases he.symm.trans h
  · cases he.symm.trans h
  · rw [buf_eq hdata, hdata] at h
    exact hclear _ _ _ hm.lasting (shown_direct hcells hm) p h he
  · rw [buf_eq hdata] at h
    exact hclear _ _ _ hm.lasting (shown_copy hcells hlen hm _) p h he

end RilRequestBuffers
