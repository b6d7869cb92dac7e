import VendorMediatek.RilBufferReleases

/-!
# Request buffer ownership

Which requests leave the heap as they found it once they have been handed over. The caller frees
what it marks FMT_IGNORE, and clearPendingBuffer the strings of a struct, on both ways; an array
that is handed to my_enqueue with another format has no owner, and the string that is queued is
taken for its own copy.
-/

namespace RilRequestBuffers

open CMemory RilChannelQueue RilDispatch HeapLedgers

variable {abi : Abi} {s : ChannelState View} {request : ℕ} {pRI : RequestInfo} {call : Call}

/-! ## Structs -/

theorem nodup_copies (strs : List (ℕ × HidlString)) (hnodup : (strs.map Prod.fst).Nodup) :
    ((calloced (copiesAt strs)).map HeapBlock.payload).Nodup :=
  nodup_payloads (calloced_copiesAt_sublist strs) hnodup

theorem length_structFields_le (members : List Member) :
    (structFields 0 members).length ≤ (structCells members).length := by
  rw [structCells, List.length_append]
  exact Nat.le_add_right _ _

theorem structFields_append (xs ys : List Member) (off : ℕ) :
    ∃ rest, structFields off (xs ++ ys) = structFields off xs ++ rest := by
  induction xs generalizing off with
  | nil => exact ⟨structFields off ys, rfl⟩
  | cons x xs ih =>
    obtain ⟨rest, hrest⟩ := ih (off + padding x.align off + x.cells.length)
    refine ⟨rest, ?_⟩
    simp only [List.cons_append, structFields, hrest, List.append_assoc]

theorem structCells_append (xs ys : List Member) :
    ∃ rest, structCells (xs ++ ys) = structFields 0 xs ++ rest := by
  obtain ⟨rest, hrest⟩ := structFields_append xs ys 0
  refine ⟨rest ++ List.replicate (padding (maxAlign (xs ++ ys))
    (structFields 0 (xs ++ ys)).length) none, ?_⟩
  rw [structCells, ← List.append_assoc, ← hrest]

theorem callOwned_dispatchCallForwardStatus (info : CallForwardInfo) :
    CallOwned abi s request pRI (.ofRequest (.dispatchCallForwardStatus info))
      (dispatchCallForwardStatus abi pRI info) := by
  have hnodup := nodup_copies [(1, info.number)] (by simp)
  cases hi : ignoreBF pRI with
  | true =>
    apply callOwned_of_ignore
    · simp [dispatchCallForwardStatus, structCall, fmtUnlessIgnored, hi]
    · exact hnodup
    · simp only [BufferRequest.cleanup, requestCleanup, hi, if_true]
      exact releases_strings false [(1, info.number)] (by simp)
  | false =>
    refine callOwned_of_clears .callFWST ?_ (by decide) (by decide) rfl rfl
      (length_structFields_le _) structCells_int_pos hnodup ?_ ?_
    · simp [dispatchCallForwardStatus, structCall, fmtUnlessIgnored, hi]
    · simp [BufferRequest.cleanup, requestCleanup, hi]
    · intro m view b _ h
      exact clear_callFWST h

theorem callOwned_dispatchIccApdu (message : SimApdu) :
    CallOwned abi s request pRI (.ofRequest (.dispatchIccApdu message))
      (dispatchIccApdu abi message) := by
  refine callOwned_of_clears .iccAPDU rfl (by decide) (by decide) rfl rfl
    (length_structFields_le _) structCells_int_pos (nodup_copies [(1, message.data)] (by simp)) rfl
    ?_
  intro m view b _ h
  exact clear_iccAPDU h

theorem callOwned_iccIOForApp (iccIo : IccIo) :
    CallOwned abi s request pRI (.ofRequest (.iccIOForApp iccIo)) (iccIOForApp abi iccIo) := by
  have hnodup := nodup_copies
    [(1, iccIo.path), (2, iccIo.data), (3, iccIo.pin2), (4, iccIo.aid)] (by simp)
  refine callOwned_of_clears .simio rfl (by decide) (by decide) rfl rfl
    (length_structFields_le _) structCells_int_pos hnodup rfl ?_
  intro m view b _ h
  exact clear_simio h

theorem callOwned_writeSmsToSim (args : SmsWriteArgs) :
    CallOwned abi s request pRI (.ofRequest (.writeSmsToSim args)) (writeSmsToSim abi args) := by
  have hnodup := nodup_copies [(1, args.pdu), (2, args.smsc)] (by simp)
  refine callOwned_of_clears .wrSMSSIM rfl (by decide) (by decide) rfl rfl
    (length_structFields_le _) structCells_int_pos hnodup rfl ?_
  intro m view b _ h
  exact clear_wrSMSSIM h

theorem callOwned_requestIccSimAuthentication (authContext : UInt32) (authData aid : HidlString) :
    CallOwned abi s request pRI (.requestIccSimAuthentication authContext authData aid)
      (requestIccSimAuthentication abi authContext authData aid) := by
  have hnodup := nodup_copies [(1, authData), (2, aid)] (by simp)
  refine callOwned_of_clears .simauth rfl (by decide) (by decide) rfl rfl
    (length_structFields_le _) structCells_int_pos hnodup rfl ?_
  intro m view b _ h
  exact clear_simauth h

theorem callOwned_initialAttachApn {version : ℕ} (hversion : version ≤ 14)
    (prop : List UInt8) (protocol : HidlString) (info : DataProfileInfo)
    (modemCognitive isRoaming : Bool) (numeric : List UInt8) :
    CallOwned abi s request pRI
      (.ofRequest (.setInitialAttachApn version prop info modemCognitive isRoaming))
      (initialAttachApn abi protocol info numeric) := by
  have hblocks : BufferRequest.blocks (.ofRequest
      (.setInitialAttachApn version prop info modemCognitive isRoaming)) =
      [1, 2, 3, 4, 5].map HeapBlock.payload := by
    simp only [BufferRequest.blocks, BufferRequest.callocs, requestCallocs, if_pos hversion]
  have hlen : (structFields 0 (initialAttachApnFields abi info.authType)).length ≤
      (initialAttachApn abi protocol info numeric).buflen ∧
      0 < (initialAttachApn abi protocol info numeric).buflen := by
    cases abi <;>
      simp [initialAttachApn, structCall, structCells, structFields, initialAttachApnFields,
        padding, maxAlign, intMember, intBytes, pointerMember, Abi.pointer]
  obtain ⟨rest, hcells⟩ := structCells_append (initialAttachApnFields abi info.authType)
    [pointerMember abi none (.ptr .cstr)]
  refine callOwned_of_clears .attchAPN rfl (by decide) (by decide) rfl hcells hlen.1 hlen.2 ?_ ?_ ?_
  · rw [hblocks]
    decide
  · simp only [BufferRequest.cleanup, requestCleanup, if_pos hversion]
  · intro m view b _ h
    rw [hblocks]
    exact clear_attchAPN h

theorem callOwned_dispatchImsGsmSms {message : ImsSmsMessage} {sms : GsmSmsMessage}
    (hsms : message.gsmMessage = [sms]) (hcall : dispatchImsGsmSms abi message = some call) :
    CallOwned abi s request pRI (.ofRequest (.dispatchImsGsmSms message)) call := by
  simp only [dispatchImsGsmSms, hsms, Option.some.injEq] at hcall
  have hblocks : BufferRequest.blocks (.ofRequest (.dispatchImsGsmSms message)) =
      (1 :: calloced (copiesAt [(2, sms.smscPdu), (3, sms.pdu)])).map HeapBlock.payload := by
    simp only [BufferRequest.blocks, BufferRequest.callocs, requestCallocs, hsms]
    rfl
  subst hcall
  refine callOwned_of_clears .imsSms rfl (by decide) (by decide) rfl rfl ?_ ?_ ?_ rfl ?_
  · cases abi <;>
      simp [structFields, padding, imsSmsMembers, intMember, ucharMember, intBytes, pointerMember,
        Abi.pointer]
  · exact Nat.add_pos_left (by decide) _
  · rw [hblocks]
    exact nodup_payloads ((calloced_copiesAt_sublist _).cons_cons 1) (by simp)
  · intro m view b hm h
    rw [hblocks]
    exact clear_imsSms h (deref_shows (b := 1) hm)

/-! ## What the functions free themselves -/

theorem releases_stringPtrs {first : ℕ} (hfirst : 0 < first) (data : List HidlString) :
    Releases (releaseThrough false (.payload 0) (places (stringPtrs first data)) ++
        [.free (.payload 0) 0])
      ((0 :: calloced (stringPtrs first data)).map HeapBlock.payload) ∧
      ((0 :: calloced (stringPtrs first data)).map HeapBlock.payload).Nodup := by
  have hnodup : (0 :: (data.mapIdx fun i s => (first + i, s)).map Prod.fst).Nodup := by
    rw [fst_mapIdx]
    refine List.nodup_cons.mpr ⟨?_, List.nodup_range.map fun i j h => by simpa using h⟩
    rintro hz
    obtain ⟨i, -, hi⟩ := List.mem_map.mp hz
    omega
  rw [stringPtrs_eq]
  exact ⟨releases_stringArray hnodup,
    nodup_payloads ((calloced_copiesAt_sublist _).cons_cons 0) hnodup⟩

theorem fmtUnlessIgnored_of_ignore {bf : BufFmts} (hi : ignoreBF pRI = true) :
    fmtUnlessIgnored pRI bf = .ignore := if_pos hi

theorem fmtUnlessIgnored_of_not {bf : BufFmts} (hi : ignoreBF pRI = false) :
    fmtUnlessIgnored pRI bf = bf := if_neg (by simp [hi])

theorem callOwned_dispatchStringsVec {r : BufferRequest} (data : List HidlString)
    (hi : ignoreBF pRI = true)
    (hblocks : r.blocks = (0 :: calloced (stringPtrs 1 data)).map HeapBlock.payload)
    (hcleanup : r.cleanup pRI = releaseThrough false (.payload 0) (places (stringPtrs 1 data)) ++
      [.free (.payload 0) 0]) :
    CallOwned abi s request pRI r (dispatchStringsVec abi pRI data) := by
  obtain ⟨hreleases, hnodup⟩ := releases_stringPtrs Nat.one_pos data
  refine callOwned_of_ignore (fmtUnlessIgnored_of_ignore hi) ?_ ?_
  · rw [hblocks]
    exact hnodup
  · rw [hblocks, hcleanup]
    exact hreleases

theorem callOwned_dispatchInts (ints : List UInt32) (hi : ignoreBF pRI = true) :
    CallOwned abi s request pRI (.ofRequest (.dispatchInts ints)) (dispatchInts pRI ints) := by
  refine callOwned_of_ignore (fmtUnlessIgnored_of_ignore hi) (List.nodup_singleton _) ?_
  simp only [BufferRequest.cleanup, requestCleanup, hi, if_true]
  exact releases_free (HeapBlock.payload 0)

theorem callOwned_dial (dialInfo : Dial) :
    CallOwned abi s request pRI (.dial dialInfo) (dial abi dialInfo) :=
  callOwned_of_ignore rfl
    (nodup_copies [(1, dialInfo.address), (3, uusData dialInfo.uusInfo)] (by simp))
    (releases_strings false [(1, dialInfo.address), (3, uusData dialInfo.uusInfo)] (by simp))

theorem callOwned_nvWriteItem (itemId : UInt32) (value : HidlString) :
    CallOwned abi s request pRI (.nvWriteItem itemId value) (nvWriteItem abi itemId value) :=
  callOwned_of_ignore rfl (nodup_copies [(1, value)] (by simp))
    (releases_strings false [(1, value)] (by simp))

theorem callOwned_setAllowedCarriers (carriers : CarrierRestrictions) :
    CallOwned abi s request pRI (.setAllowedCarriers carriers)
      (setAllowedCarriers abi carriers) := by
  refine callOwned_of_ignore rfl (nodup_payloads (List.Sublist.refl [1, 2]) (by decide)) ?_
  exact (releases_free (HeapBlock.payload 1)).append (releases_free (HeapBlock.payload 2))
    (by decide)

theorem callOwned_setAttachApnInd :
    CallOwned abi s request pRI .setAttachApnInd (setAttachApnInd abi) := by
  have hnodup : ([1, 2, 3, 4, 5].map HeapBlock.payload).Nodup := by decide
  exact callOwned_of_ignore rfl hnodup (releases_release false hnodup)

theorem callOwned_initialAttachApnV15 {version : ℕ} (hversion : ¬ version ≤ 14)
    (prop : List UInt8) (info : DataProfileInfo) (modemCognitive isRoaming : Bool)
    (mvnoType : List UInt8) :
    CallOwned abi s request pRI
      (.ofRequest (.setInitialAttachApn version prop info modemCognitive isRoaming))
      (initialAttachApnV15 abi info modemCognitive mvnoType) := by
  let strs := [(1, info.apn), (2, info.protocol), (3, info.roamingProtocol), (4, info.user),
    (5, info.password), (7, info.mvnoMatchData)]
  have hnodup : (strs.map Prod.fst).Nodup := by simp [strs]
  have hblocks : BufferRequest.blocks (.ofRequest
      (.setInitialAttachApn version prop info modemCognitive isRoaming)) =
      (calloced (copiesAt strs)).map HeapBlock.payload := by
    simp only [BufferRequest.blocks, BufferRequest.callocs, requestCallocs, if_neg hversion]
    rfl
  refine callOwned_of_ignore rfl ?_ ?_
  · rw [hblocks]
    exact nodup_copies strs hnodup
  · rw [hblocks]
    simp only [BufferRequest.cleanup, requestCleanup, if_neg hversion]
    exact releases_strings false strs hnodup

/-! ### Data profiles of version 15 -/

def dataProfileStringsV15 (profiles : List DataProfile) : List (ℕ × HidlString) :=
  ([(0, fun p => p.apn), (1, fun p => p.protocol), (2, fun p => p.roamingProtocol),
    (3, fun p => p.user), (4, fun p => p.password), (6, fun p => p.mvnoMatchData)] :
    List (ℕ × (DataProfile → HidlString))).flatMap fun member =>
      profiles.mapIdx fun i profile => (2 + 7 * i + member.1, member.2 profile)

theorem profilePtrs_eq (k : ℕ) (member : DataProfile → HidlString) (profiles : List DataProfile) :
    profilePtrs k member profiles =
      copiesAt (profiles.mapIdx fun i profile => (2 + 7 * i + k, member profile)) := by
  refine List.ext_getElem (by simp [profilePtrs, copiesAt]) fun i hi _ => ?_
  simp [profilePtrs, copiesAt]

theorem dataProfilePtrsV15_eq (profiles : List DataProfile) :
    dataProfilePtrsV15 profiles = copiesAt (dataProfileStringsV15 profiles) := by
  simp only [dataProfilePtrsV15, profilePtrs_eq, dataProfileStringsV15, List.flatMap_cons,
    List.flatMap_nil, copiesAt, List.map_append, List.append_nil, List.append_assoc]

theorem nodup_dataProfileStringsV15 (profiles : List DataProfile) :
    (1 :: 0 :: (dataProfileStringsV15 profiles).map Prod.fst).Nodup := by
  have fsts : (dataProfileStringsV15 profiles).map Prod.fst =
      [0, 1, 2, 3, 4, 6].flatMap fun k =>
        (List.range profiles.length).map fun i => 2 + 7 * i + k := by
    rw [dataProfileStringsV15, List.map_flatMap]
    simp only [fst_mapIdx]
    rfl
  have large : ∀ n ∈ (dataProfileStringsV15 profiles).map Prod.fst, 2 ≤ n := by
    rw [fsts]
    intro n hn
    obtain ⟨k, -, hn⟩ := List.mem_flatMap.mp hn
    obtain ⟨i, -, rfl⟩ := List.mem_map.mp hn
    omega
  have apart : ((dataProfileStringsV15 profiles).map Prod.fst).Nodup := by
    rw [fsts, List.nodup_flatMap]
    constructor
    · intro k _
      exact List.nodup_range.map fun i j h => by simp at h; omega
    · have members : [0, 1, 2, 3, 4, 6].Pairwise fun k l => k < 7 ∧ l < 7 ∧ k ≠ l := by decide
      refine members.imp fun {k l} hkl n hk hl => ?_
      obtain ⟨i, -, rfl⟩ := List.mem_map.mp hk
      obtain ⟨j, -, he⟩ := List.mem_map.mp hl
      omega
  refine List.nodup_cons.mpr ⟨?_, List.nodup_cons.mpr ⟨?_, apart⟩⟩
  · intro h
    rcases List.mem_cons.mp h with h | h
    · cases h
    · have := large 1 h
      omega
  · intro h
    have := large 0 h
    omega

theorem callOwned_dataProfilesV15 {version : ℕ} (hversion : ¬ version ≤ 14)
    (profiles : List DataProfile) (isRoaming : Bool) (members : List (List Member))
    (blocks : List Block) :
    CallOwned abi s request pRI (.setDataProfile version profiles isRoaming)
      (dataProfileCall abi .ignore members blocks) := by
  have hblocks : BufferRequest.blocks (.setDataProfile version profiles isRoaming) =
      (1 :: 0 :: calloced (copiesAt (dataProfileStringsV15 profiles))).map HeapBlock.payload := by
    simp only [BufferRequest.blocks, BufferRequest.callocs, if_neg hversion, dataProfilePtrsV15_eq]
  have strings := calloced_copiesAt_sublist (dataProfileStringsV15 profiles)
  have hnodup := nodup_payloads ((strings.cons_cons 0).cons_cons 1)
    (nodup_dataProfileStringsV15 profiles)
  obtain ⟨hone, hrest⟩ := List.nodup_cons.mp hnodup
  obtain ⟨hzero, hstrings⟩ := List.nodup_cons.mp hrest
  have howner := List.not_mem_of_not_mem_cons hone
  have strings := releases_releaseThrough false
    (reduceOption_places (dataProfileStringsV15 profiles))
    (List.nodup_cons.mpr ⟨howner, hstrings⟩)
  have arrays : Releases ([Op.free (HeapBlock.payload 1) 0] ++ [.free (.payload 0) 0])
      ([.payload 1, .payload 0] : List HeapBlock) :=
    (releases_free (HeapBlock.payload 1)).append (releases_free (HeapBlock.payload 0)) (by decide)
  refine callOwned_of_ignore rfl ?_ ?_
  · rw [hblocks]
    exact hnodup
  · rw [hblocks]
    simp only [BufferRequest.cleanup, if_neg hversion, dataProfilePtrsV15_eq]
    refine (strings.append arrays ?_).perm List.perm_append_comm
    intro o ho
    simp only [List.cons_append, List.nil_append, List.mem_cons, List.not_mem_nil, or_false] at ho
    rcases ho with rfl | rfl
    · exact howner
    · exact hzero

/-! ## Arrays without an owner -/

theorem mem_places (strs : List (ℕ × HidlString)) {p : Place}
    (h : p ∈ (places (copiesAt strs)).reduceOption) :
    ∃ n ∈ strs.map Prod.fst, p.1 = .payload n := by
  rw [reduceOption_places] at h
  obtain ⟨q, hq, rfl⟩ := List.mem_map.mp h
  obtain ⟨n, hn, rfl⟩ := List.mem_map.mp hq
  exact ⟨n, (calloced_copiesAt_sublist strs).subset hn, rfl⟩

theorem not_callOwned_dispatchInts (ints : List UInt32) (hi : ignoreBF pRI = false) :
    ¬ CallOwned abi s request pRI (.ofRequest (.dispatchInts ints)) (dispatchInts pRI ints) := by
  have hbf : (dispatchInts pRI ints).bf = .ints := fmtUnlessIgnored_of_not hi
  refine not_callOwned_of_leak (n := 0) rfl (List.append_nil _).symm ?_ List.mem_cons_self ?_ ?_
  · refine (length_array (n := 4) ?_ 0).le.trans (by simp [dispatchInts])
    intro x hx
    obtain ⟨i, -, rfl⟩ := List.mem_map.mp hx
    simp [intMember, intBytes]
  · simp [BufferRequest.cleanup, requestCleanup, hi]
  · intro m view b _ _ p hp
    rw [hbf, clearPendingBuffer, frees_touch] at hp
    cases hp

theorem not_callOwned_dispatchStringsVec {r : BufferRequest} (data : List HidlString)
    (hi : ignoreBF pRI = false) (hcallocs : 0 ∈ r.callocs) (hcleanup : r.cleanup pRI = []) :
    ¬ CallOwned abi s request pRI r (dispatchStringsVec abi pRI data) := by
  have hbf : (dispatchStringsVec abi pRI data).bf = .strs := fmtUnlessIgnored_of_not hi
  have hcount : data.length * abi.pointer / abi.pointer = data.length :=
    Nat.mul_div_cancel _ (abi_pointer_pos abi)
  refine not_callOwned_of_leak rfl (List.append_nil _).symm (length_stringPointers abi 1 data).le
    hcallocs hcleanup ?_
  intro m view b _ hview p hp he
  rw [hbf, clearPendingBuffer] at hp
  obtain ⟨i, hi, hp⟩ := mem_frees_flatMap.mp hp
  have hlt : i < data.length := hcount ▸ List.mem_range.mp hi
  rw [loadPointer_strings hview hlt, frees_append, frees_touch, List.nil_append,
    memsetAndFreeStrings, frees_release] at hp
  -- The strings are the blocks behind the array.
  obtain ⟨n, hn, hpn⟩ := mem_places [(1 + i, data[i])] hp
  rw [List.mem_singleton.mp hn, he] at hpn
  have := HeapBlock.payload.inj hpn
  omega

/-! ### Data profiles of the older versions -/

theorem length_structFields_congr {xs ys : List Member} (h : xs.map layout = ys.map layout)
    (off : ℕ) : (structFields off xs).length = (structFields off ys).length := by
  induction xs generalizing ys off with
  | nil =>
    rw [List.map_nil, eq_comm, List.map_eq_nil_iff] at h
    rw [h]
  | cons x xs ih =>
    cases ys with
    | nil => cases h
    | cons y ys =>
      obtain ⟨hxy, hrest⟩ := List.cons.inj h
      obtain ⟨halign, hlen⟩ := Prod.mk.inj hxy
      simp only [structFields, List.length_append, List.length_replicate, halign, hlen, ih hrest]

theorem length_structCells_congr {xs ys : List Member} (h : xs.map layout = ys.map layout) :
    (structCells xs).length = (structCells ys).length := by
  have haligns : xs.map Member.align = ys.map Member.align := by
    have := congrArg (List.map Prod.fst) h
    rwa [List.map_map, List.map_map] at this
  simp only [structCells, List.length_append, List.length_replicate, maxAlign, haligns,
    length_structFields_congr h]

theorem layout_dataProfileMembers (isRoaming : Bool) (first first' : ℕ)
    (profile profile' : DataProfile) :
    (dataProfileMembers abi isRoaming first profile).map layout =
      (dataProfileMembers abi isRoaming first' profile').map layout := by
  simp [dataProfileMembers]

/-- What the free of one profile reaches: its strings and the array the profile lies in. -/
theorem mem_frees_dataProfile {m : Memory} {isRoaming : Bool} {first : ℕ} {profile : DataProfile}
    {dp : Pointer} {p : Place}
    (h : (m.deref dp).Shows (structFields 0 (dataProfileMembers abi isRoaming first profile)))
    (hp : p ∈ frees (memsetAndFreeStrings true (places
      [pointerBehind abi (m.deref dp) [.int], pointerBehind abi (m.deref dp) [.int, .pointer],
        pointerBehind abi (m.deref dp) [.int, .pointer, .pointer, .int],
        pointerBehind abi (m.deref dp) [.int, .pointer, .pointer, .int, .pointer]]) ++
      [.free (.payload dp.block) dp.offset])) :
    p.1 = .payload dp.block ∨ ∃ n ≥ first, p.1 = .payload n := by
  have hapn := pointerBehind_eq [.int] h rfl (by simp [Field.member, dataProfileMembers])
  have hprotocol := pointerBehind_eq [.int, .pointer] h rfl
    (by simp [Field.member, dataProfileMembers])
  have huser := pointerBehind_eq [.int, .pointer, .pointer, .int] h rfl
    (by simp [Field.member, dataProfileMembers])
  have hpassword := pointerBehind_eq [.int, .pointer, .pointer, .int, .pointer] h rfl
    (by simp [Field.member, dataProfileMembers])
  rw [hapn, hprotocol, huser, hpassword, frees_append, memsetAndFreeStrings, frees_release] at hp
  rcases List.mem_append.mp hp with hp | hp
  · obtain ⟨n, hn, hpn⟩ := mem_places [(first, profile.apn),
      (first + 1, protocolOf isRoaming profile), (first + 2, profile.user),
      (first + 3, profile.password)] hp
    refine Or.inr ⟨n, ?_, hpn⟩
    simp only [List.map_cons, List.map_nil, List.mem_cons, List.not_mem_nil, or_false] at hn
    omega
  · exact Or.inl (congrArg Prod.fst (List.mem_singleton.mp hp))

def profileMembers (abi : Abi) (isRoaming : Bool) (profiles : List DataProfile) :
    List (List Member) :=
  profiles.mapIdx fun i profile => dataProfileMembers abi isRoaming (2 + 4 * i) profile

theorem sizeof_profileMembers {isRoaming : Bool} {profiles : List DataProfile} {x : List Member}
    (hx : x ∈ profileMembers abi isRoaming profiles) :
    (structCells x).length = sizeofDataProfile (profileMembers abi isRoaming profiles) := by
  obtain ⟨i, hi, rfl⟩ := List.mem_mapIdx.mp hx
  cases profiles with
  | nil => cases hi
  | cons head tail =>
    rw [sizeofDataProfile, profileMembers, List.mapIdx_cons, List.headD_cons]
    exact length_structCells_congr (layout_dataProfileMembers _ _ _ _ _)

theorem shows_profile {m : Memory} {isRoaming : Bool} {profiles : List DataProfile}
    (h : (m.deref ⟨1, 0⟩).Shows ((profileMembers abi isRoaming profiles).flatMap structCells))
    {i : ℕ} (hi : i < profiles.length) :
    (m.deref ⟨1, i * sizeofDataProfile (profileMembers abi isRoaming profiles)⟩).Shows
      (structFields 0 (dataProfileMembers abi isRoaming (2 + 4 * i) profiles[i])) := by
  have hlt : i < (profileMembers abi isRoaming profiles).length := by
    rwa [profileMembers, List.length_mapIdx]
  have element := shows_flatMap h (fun x hx => sizeof_profileMembers hx) i hlt
  have place : (m.deref ⟨1, 0⟩).drop (i * sizeofDataProfile (profileMembers abi isRoaming profiles))
      = m.deref ⟨1, i * sizeofDataProfile (profileMembers abi isRoaming profiles)⟩ := by
    simp [Memory.deref]
  have profile : (profileMembers abi isRoaming profiles)[i] =
      dataProfileMembers abi isRoaming (2 + 4 * i) profiles[i] := List.getElem_mapIdx ..
  rw [place, profile] at element
  exact (shows_append.mp element).1

/-- The array of pointers is freed on no way, however many profiles there are. -/
theorem not_callOwned_dataProfiles {version : ℕ} (hversion : version ≤ 14)
    (profiles : List DataProfile) (isRoaming : Bool) (blocks : List Block) :
    ¬ CallOwned abi s request pRI (.setDataProfile version profiles isRoaming)
      (dataProfileCall abi .dataprof (profileMembers abi isRoaming profiles) blocks) := by
  have hlength : (profileMembers abi isRoaming profiles).length = profiles.length :=
    List.length_mapIdx
  have hcount : (profileMembers abi isRoaming profiles).length * abi.pointer / abi.pointer =
      profiles.length := by rw [hlength, Nat.mul_div_cancel _ (abi_pointer_pos abi)]
  have hpointers : ∀ x ∈ (profileMembers abi isRoaming profiles).mapIdx (fun i c =>
      pointerMember abi (some ⟨1, i * sizeofDataProfile (profileMembers abi isRoaming profiles)⟩)
        (structType 0 c)), x.cells.length = abi.pointer := by
    intro x hx
    obtain ⟨i, hi, rfl⟩ := List.mem_mapIdx.mp hx
    simp [pointerMember]
  refine not_callOwned_of_leak (n := 0) rfl (List.append_nil _).symm ?_ ?_ ?_ ?_
  · exact (length_array hpointers 0).le.trans (by simp [dataProfileCall])
  · simp [BufferRequest.callocs, hversion]
  · simp [BufferRequest.cleanup, hversion]
  · intro m view b hm hview p hp he
    obtain ⟨i, hi, hp⟩ := mem_frees_flatMap.mp hp
    have hlt : i < profiles.length := hcount ▸ List.mem_range.mp hi
    have hload : loadPointer view (i * abi.pointer) =
        some ⟨1, i * sizeofDataProfile (profileMembers abi isRoaming profiles)⟩ :=
      loadPointer_array hview hpointers (by rwa [List.length_mapIdx, hlength])
        (List.getElem_mapIdx ..)
    have hprofile := shows_profile (m := m) (i := i) (deref_shows (b := 1) hm) hlt
    simp only [hload, frees_append, frees_touch, frees_use, List.nil_append] at hp
    rw [← frees_append] at hp
    rcases mem_frees_dataProfile hprofile hp with h | ⟨n, hn, h⟩
    · cases he.symm.trans h
    · have := HeapBlock.payload.inj (he.symm.trans h)
      omega

/-! ## The string -/

theorem callOwned_dispatchString_iff (str : List UInt8) :
    CallOwned abi s request pRI (.ofRequest (.dispatchString str)) (dispatchString abi pRI str) ↔
      ¬ Pending s request (fmtUnlessIgnored pRI .str) pRI := by
  have hnodup := nodup_copies [(0, cString str)] (by simp)
  cases hi : ignoreBF pRI with
  | true =>
    have hbf : fmtUnlessIgnored pRI .str = .ignore := fmtUnlessIgnored_of_ignore hi
    refine iff_of_true ?_ fun hp => hp.1 hbf
    refine callOwned_of_ignore hbf hnodup ?_
    simp only [BufferRequest.cleanup, requestCleanup, hi, if_true]
    exact releases_strings false [(0, cString str)] (by simp)
  | false =>
    have hbf : (dispatchString abi pRI str).bf = .str := fmtUnlessIgnored_of_not hi
    have hcleanup : BufferRequest.cleanup pRI (.ofRequest (.dispatchString str)) = [] := by
      simp [BufferRequest.cleanup, requestCleanup, hi]
    rw [fmtUnlessIgnored_of_not hi]
    constructor
    · -- The copy is freed as a string, and once more as the copy.
      intro howned hp
      rw [← hbf] at hp
      have hcopies : Copies (dispatchString abi pRI str).bf (dispatchString abi pRI str).buflen :=
        ⟨by rw [hbf]; decide, (abi_pointer_pos abi).ne'⟩
      have hm := fill_holds (dispatchString abi pRI str).frame fun _ _ => .byte 0
      have balanced := howned (fun _ => .byte 0) _ _ hm hm.lasting
      rw [ledger_pending hp hcleanup hcopies] at balanced
      refine not_balanced_of_twice (b := .copy) ?_ ?_ balanced
      · simp
      · simp [hbf, clearPendingBuffer, memsetAndFreeStrings]
    · intro hp junk m m' _ _
      rw [← hbf] at hp
      refine balanced_direct hp hnodup ?_
      rw [hbf, if_pos (by decide), hcleanup, List.append_nil]
      exact releases_strings true [(0, cString str)] (by simp)

/-! ## Every request -/

/-- The requests whose blocks all have an owner, and one only. -/
def BufferRequest.HasOwner (s : ChannelState View) (request : ℕ) (pRI : RequestInfo) :
    BufferRequest → Prop
  | .ofRequest (.dispatchString _) => ¬ Pending s request (fmtUnlessIgnored pRI .str) pRI
  | .ofRequest (.dispatchStrings _) => ignoreBF pRI = true
  | .ofRequest (.dispatchStringsVec _) => ignoreBF pRI = true
  | .ofRequest (.dispatchInts _) => ignoreBF pRI = true
  | .setDataProfile version _ _ => 14 < version
  | _ => True

instance (s : ChannelState View) (request : ℕ) (pRI : RequestInfo) (r : BufferRequest) :
    Decidable (r.HasOwner s request pRI) := by
  unfold BufferRequest.HasOwner
  split <;> infer_instance

theorem callOwned_of_request {r : Request} {header : RilCdmaSmsStructs}
    (hcall : r.call abi header.toRilCdmaSms pRI = some call)
    (h : BufferRequest.HasOwner s request pRI (.ofRequest r)) :
    CallOwned abi s request pRI (.ofRequest r) call := by
  cases r with
  | dispatchString str =>
    cases hcall
    exact (callOwned_dispatchString_iff str).mpr h
  | dispatchStrings strs =>
    cases hcall
    exact callOwned_dispatchStringsVec _ h rfl (if_pos h)
  | dispatchStringsVec data =>
    cases hcall
    exact callOwned_dispatchStringsVec data h rfl (if_pos h)
  | dispatchInts ints =>
    cases hcall
    exact callOwned_dispatchInts ints h
  | dispatchCallForwardStatus info =>
    cases hcall
    exact callOwned_dispatchCallForwardStatus info
  | dispatchIccApdu message =>
    cases hcall
    exact callOwned_dispatchIccApdu message
  | iccIOForApp iccIo =>
    cases hcall
    exact callOwned_iccIOForApp iccIo
  | writeSmsToSim args =>
    cases hcall
    exact callOwned_writeSmsToSim args
  | setInitialAttachApn version prop info modemCognitive isRoaming =>
    simp only [Request.call, RilDispatch.setInitialAttachApn] at hcall
    split at hcall
    · obtain ⟨numeric, -, rfl⟩ := Option.map_eq_some_iff.mp hcall
      exact callOwned_initialAttachApn ‹_› prop _ info modemCognitive isRoaming numeric
    · obtain ⟨mvnoType, -, rfl⟩ := Option.map_eq_some_iff.mp hcall
      exact callOwned_initialAttachApnV15 ‹_› prop info modemCognitive isRoaming mvnoType
  | setGsmBroadcastConfig configInfo =>
    cases hcall
    exact callOwned_of_bare (Or.inl rfl) rfl rfl
  | setCdmaBroadcastConfig configInfo =>
    cases hcall
    exact callOwned_of_bare (Or.inl rfl) rfl rfl
  | dispatchImsGsmSms message =>
    have hsms : ∃ sms, message.gsmMessage = [sms] := by
      simp only [Request.call, dispatchImsGsmSms] at hcall
      split at hcall
      · exact ⟨_, ‹_›⟩
      · cases hcall
    obtain ⟨sms, hsms⟩ := hsms
    exact callOwned_dispatchImsGsmSms hsms hcall
  | dispatchImsCdmaSms message =>
    simp only [Request.call, dispatchImsCdmaSms] at hcall
    split at hcall
    · cases hcall
      exact callOwned_of_bare (Or.inl rfl) rfl rfl
    · cases hcall

/-- On a channel whose formats are not ignored nobody frees the arrays. -/
theorem hasOwner_of_request {r : Request} {header : RilCdmaSmsStructs}
    (howned : Owned abi header s request pRI (.ofRequest r)) :
    BufferRequest.HasOwner s request pRI (.ofRequest r) := by
  cases r with
  | dispatchString str => exact (callOwned_dispatchString_iff str).mp (howned _ rfl)
  | dispatchStrings strs =>
    by_contra hi
    have hi := Bool.eq_false_iff.mpr hi
    refine not_callOwned_dispatchStringsVec _ hi List.mem_cons_self ?_ (howned _ rfl)
    simp [BufferRequest.cleanup, requestCleanup, hi]
  | dispatchStringsVec data =>
    by_contra hi
    have hi := Bool.eq_false_iff.mpr hi
    refine not_callOwned_dispatchStringsVec _ hi List.mem_cons_self ?_ (howned _ rfl)
    simp [BufferRequest.cleanup, requestCleanup, hi]
  | dispatchInts ints =>
    by_contra hi
    exact not_callOwned_dispatchInts ints (Bool.eq_false_iff.mpr hi) (howned _ rfl)
  | _ => trivial

theorem setDataProfile_old {version : ℕ} (hversion : version ≤ 14) (profiles : List DataProfile)
    (isRoaming : Bool) :
    setDataProfile abi version profiles isRoaming =
      some (dataProfileCall abi .dataprof (profileMembers abi isRoaming profiles)
        (profiles.flatMap fun profile => (dataProfileStrings isRoaming profile).map hidlBlock)) :=
  if_pos hversion

theorem callOwned_setDataProfile {version : ℕ} {profiles : List DataProfile} {isRoaming : Bool}
    (hcall : setDataProfile abi version profiles isRoaming = some call) (h : 14 < version) :
    CallOwned abi s request pRI (.setDataProfile version profiles isRoaming) call := by
  rw [setDataProfile, if_neg (by omega)] at hcall
  obtain ⟨blocks, -, rfl⟩ := Option.map_eq_some_iff.mp hcall
  exact callOwned_dataProfilesV15 (by omega) profiles isRoaming _ _

/-- The ledger of a request is balanced if its blocks have an owner, and only then. -/
theorem buffers_owned_iff (abi : Abi) (header : RilCdmaSmsStructs) (s : ChannelState View)
    (request : ℕ) (pRI : RequestInfo) (r : BufferRequest) :
    Owned abi header s request pRI r ↔ r.HasOwner s request pRI := by
  constructor
  · intro howned
    cases r with
    | ofRequest r => exact hasOwner_of_request howned
    | setDataProfile version profiles isRoaming =>
      by_contra hversion
      have hversion : version ≤ 14 := by simpa [BufferRequest.HasOwner] using hversion
      exact not_callOwned_dataProfiles hversion profiles isRoaming _
        (howned _ (setDataProfile_old hversion profiles isRoaming))
    | _ => trivial
  · intro h call hcall
    cases r with
    | ofRequest r => exact callOwned_of_request hcall h
    | dispatchVoid =>
      cases hcall
      exact callOwned_of_bare (Or.inr rfl) rfl rfl
    | dispatchRaw rawBytes =>
      cases hcall
      exact callOwned_of_ignore rfl List.nodup_nil releases_nil
    | dial dialInfo =>
      cases hcall
      exact callOwned_dial dialInfo
    | sendCdmaSms sms =>
      cases hcall
      exact callOwned_of_bare (Or.inl rfl) rfl rfl
    | acknowledgeLastIncomingCdmaSms errorClass smsCauseCode =>
      cases hcall
      exact callOwned_of_bare (Or.inl rfl) rfl rfl
    | writeSmsToRuim status message =>
      cases hcall
      exact callOwned_of_bare (Or.inl rfl) rfl rfl
    | setUiccSubscription uiccSub =>
      cases hcall
      exact callOwned_of_bare (Or.inl rfl) rfl rfl
    | setRadioCapability rc =>
      cases hcall
      exact callOwned_of_bare (Or.inl rfl) rfl rfl
    | nvReadItem itemId =>
      cases hcall
      exact callOwned_of_ignore rfl List.nodup_nil releases_nil
    | nvWriteItem itemId value =>
      cases hcall
      exact callOwned_nvWriteItem itemId value
    | requestIccSimAuthentication authContext authData aid =>
      cases hcall
      exact callOwned_requestIccSimAuthentication authContext authData aid
    | setDataProfile version profiles isRoaming => exact callOwned_setDataProfile hcall h
    | setAllowedCarriers carriers =>
      cases hcall
      exact callOwned_setAllowedCarriers carriers
    | setAttachApnInd =>
      cases hcall
      exact callOwned_setAttachApnInd

/-- Any sizes will do for a request without a CDMA message. -/
def smallSmsStructs : RilCdmaSmsStructs where
  sizeofConfig := 1
  cdmaBci := fun _ => [0]
  length_config := fun _ => rfl
  config_pos := Nat.one_pos
  sizeofMessage := 1
  constructCdmaSms := fun _ => [0]
  length_message := fun _ => rfl
  message_pos := Nat.one_pos
  cdmaSmsAck := fun _ _ => [0]
  cdmaSmsWriteArgs := fun _ _ => [0]

/-- RIL_REQUEST_ENTER_SIM_PIN with the PIN 1234 and no AID, on an idle channel. -/
def enterSimPin : RequestInfo := ⟨0, ⟨2, rilCmdProxy1⟩, .socket1⟩

theorem enterSimPin_leaks :
    ¬ Owned .lp64 smallSmsStructs ⟨fun _ _ => [], fun _ _ => false⟩ 2 enterSimPin
      (.ofRequest (.dispatchStrings [[49, 50, 51, 52], []])) := by
  intro howned
  exact not_callOwned_dispatchStringsVec _ (by decide) List.mem_cons_self (by decide) (howned _ rfl)

end RilRequestBuffers
