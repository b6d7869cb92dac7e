import Mathlib.Data.List.GetD
import VendorMediatek.MemoryLoads
import VendorMediatek.RilBufferReleases
import VendorMediatek.RilStringAnswers

/-!
# Settings that are read back

setGsmBroadcastConfig and setAllowedCarriers lay a setting out in memory for the vendor library;
getGsmBroadcastConfigResponse and getAllowedCarriersResponse take one of the same type apart. A
vendor that answers with what it was given is read here, in any memory that holds it.
-/

namespace RilReadBack

open CStrings CMemory Faults RilDispatch
open RilRequestBuffers (Carrier CarrierRestrictions carrierBlocks carrierCells carrierMembers
  loadPointer loadPointer_eq loadPointer_array setAllowedCarriers)
open RilStringAnswers (Answer convertCharPtrToHidlString)

/-! ## Members -/

def loaded {α : Type} : Option α → Checked α
  | some a => .ok a
  | none => .error .outside

def loadInt (view : View) (off : ℕ) : Checked UInt32 := loaded (loadWord (view.drop off))

def loadUchar (view : View) (off : ℕ) : Checked UInt8 := loaded (view off).toByte

/-- A string is shorter than the address space. -/
def loadHidlString (abi : Abi) (m : Memory) (view : View) (off : ℕ) : Checked HidlString :=
  match loadPointer view off with
  | none => return convertCharPtrToHidlString none
  | some p => do
    return convertCharPtrToHidlString (← loaded (loadString (m.deref p) (2 ^ (8 * abi.pointer))))

/-! ## Cell broadcast -/

section PointerLists

variable {α : Type} (abi : Abi) (m : Memory) (load : View → Checked α)

/-- The answers that are arrays of pointers. -/
def pointerList (response : Option Pointer) (responseLen : ℕ) : Checked (Answer (List α)) :=
  match response with
  | none => return ⟨true, []⟩
  | some array =>
    if responseLen % abi.pointer ≠ 0 then return ⟨true, []⟩
    else do
      let num := toInt (responseLen / abi.pointer : ℕ)
      let _ ← resize num ()
      let configs ← (List.range num.toNat).mapM fun i => do
        let resp ← deref (loadPointer (m.deref array) (i * abi.pointer))
        load (m.deref resp)
      return ⟨false, configs⟩

end PointerLists

def loadGsmBci (view : View) : Checked GsmBroadcastSmsConfigInfo := do
  return ⟨← loadInt view 0, ← loadInt view 4, ← loadInt view 8, ← loadInt view 12,
    (← loadUchar view 16) = 1⟩

def getGsmBroadcastConfigResponse (abi : Abi) (m : Memory) :
    Option Pointer → ℕ → Checked (Answer (List GsmBroadcastSmsConfigInfo)) :=
  pointerList abi m loadGsmBci

/-! ## Allowed carriers -/

section Carriers

variable (abi : Abi)

def sizeofCarrier : ℕ := 4 * abi.pointer

def sizeofCarrierRestrictions : ℕ := 8 + 2 * abi.pointer

variable (m : Memory)

def loadCarrier (view : View) : Checked Carrier := do
  return ⟨← loadHidlString abi m view 0, ← loadHidlString abi m view abi.pointer,
    ← loadInt view (2 * abi.pointer), ← loadHidlString abi m view (3 * abi.pointer)⟩

def loadCarriers (carriers : Option Pointer) (len : ℤ) : Checked (List Carrier) := do
  let _ ← resize len ()
  (List.range len.toNat).mapM fun i => do
    let array ← deref carriers
    loadCarrier abi m ((m.deref array).drop (i * sizeofCarrier abi))

/-- Whether all carriers are allowed, and the restrictions. -/
def getAllowedCarriersResponse (response : Option Pointer) (responseLen : ℕ) :
    Checked (Answer (Bool × CarrierRestrictions)) :=
  match response with
  | none => return ⟨false, true, [], []⟩
  | some p =>
    if responseLen ≠ sizeofCarrierRestrictions abi then return ⟨true, true, [], []⟩
    else do
      let pCr := m.deref p
      let len_allowed_carriers := toInt (← loadInt pCr 0).toNat
      let len_excluded_carriers := toInt (← loadInt pCr 4).toNat
      let allAllowed := ¬(len_allowed_carriers > 0 ∨ len_excluded_carriers > 0)
      let allowedCarriers ← loadCarriers abi m (loadPointer pCr 8) len_allowed_carriers
      let excludedCarriers ←
        loadCarriers abi m (loadPointer pCr (8 + abi.pointer)) len_excluded_carriers
      return ⟨false, allAllowed, allowedCarriers, excludedCarriers⟩

end Carriers

/-! ## What is loaded -/

theorem loadWord_eq {view : View} {x : UInt32} (h : view.Shows (bytes (intBytes x))) :
    loadWord view = some x := by
  have hbytes : loadBytes view 4 = some (intBytes x) := loadBytes_eq h
  simp only [loadWord, hbytes, Option.bind_eq_bind, Option.bind_some, intBytes, List.foldr_cons,
    List.foldr_nil]
  refine congrArg some (UInt32.toNat_inj.mp ?_)
  have hx := x.toNat_lt
  simp only [UInt32.toNat_ofNat', UInt32.toNat_toUInt8, UInt32.toNat_shiftRight]
  simp [Nat.shiftRight_eq_div_pow]
  omega

theorem loadInt_behind {view : View} (pre : List Member) {post : List Member} {x : UInt32} {off : ℕ}
    (h : view.Shows (structFields 0 (pre ++ intMember x :: post)))
    (hoff : memberOffset 0 pre 4 = off) : loadInt view off = .ok x := by
  have hcells := shows_member 0 pre (by rwa [drop_zero])
  rw [show (intMember x).align = 4 from rfl, hoff] at hcells
  rw [loadInt, loadWord_eq hcells]
  rfl

theorem loadUchar_behind {view : View} (pre : List Member) {post : List Member} {x : UInt8} {off : ℕ}
    (h : view.Shows (structFields 0 (pre ++ ucharMember x :: post)))
    (hoff : memberOffset 0 pre 1 = off) : loadUchar view off = .ok x := by
  have hcells := shows_member 0 pre (by rwa [drop_zero])
  rw [show (ucharMember x).align = 1 from rfl, hoff] at hcells
  have hcell : view off = .byte x := (shows_cons.mp hcells).1
  rw [loadUchar, hcell]
  rfl

/-- A loop over an index that gives one entry of a list after the other. -/
theorem mapM_range_eq {α : Type} {f : ℕ → Checked α} {l : List α}
    (h : ∀ i (hi : i < l.length), f i = .ok l[i]) : (List.range l.length).mapM f = .ok l := by
  induction l generalizing f with
  | nil => rfl
  | cons a l ih =>
    have hrest : (List.range l.length).mapM (f ∘ Nat.succ) = .ok l :=
      ih fun i hi => h (i + 1) (Nat.succ_lt_succ hi)
    rw [List.length_cons, List.range_succ_eq_map, List.mapM_cons, h 0 (Nat.succ_pos _),
      List.mapM_map, hrest]
    rfl

/-! ## Broadcast configurations come back -/

theorem memberOffset_ints (n : ℕ) (xs : List UInt32) :
    memberOffset (4 * n) (xs.map intMember) 4 = 4 * (n + xs.length) := by
  induction xs generalizing n with
  | nil => simp [memberOffset, padding]
  | cons x xs ih =>
    have hpadding : 4 * n + padding (intMember x).align (4 * n) + (intMember x).cells.length =
        4 * (n + 1) := by simp [intMember, intBytes, padding, Nat.mul_add]
    rw [List.map_cons, memberOffset, hpadding, ih, List.length_cons, Nat.add_assoc, Nat.add_comm 1]

theorem loadInt_head {view : View} (xs : List UInt32) {post : List Member}
    (h : view.Shows (structFields 0 (xs.map intMember ++ post))) (i : ℕ) (hi : i < xs.length) :
    loadInt view (4 * i) = .ok xs[i] := by
  have hsplit : xs.map intMember ++ post =
      (xs.take i).map intMember ++ intMember xs[i] :: ((xs.drop (i + 1)).map intMember ++ post) := by
    rw [← List.cons_append, ← List.map_cons, List.getElem_cons_drop, ← List.append_assoc,
      ← List.map_append, List.take_append_drop]
  rw [hsplit] at h
  refine loadInt_behind _ h ((memberOffset_ints 0 _).trans ?_)
  rw [List.length_take, Nat.min_eq_left hi.le, Nat.zero_add]

theorem loadGsmBci_eq {view : View} {info : GsmBroadcastSmsConfigInfo}
    (h : view.Shows (structFields 0 (gsmBci info))) : loadGsmBci view = .ok info := by
  let ints : List UInt32 :=
    [info.fromServiceId, info.toServiceId, info.fromCodeScheme, info.toCodeScheme]
  have hfrom : loadInt view 0 = .ok info.fromServiceId := loadInt_head ints h 0 (by simp [ints])
  have hto : loadInt view 4 = .ok info.toServiceId := loadInt_head ints h 1 (by simp [ints])
  have hfromScheme : loadInt view 8 = .ok info.fromCodeScheme :=
    loadInt_head ints h 2 (by simp [ints])
  have htoScheme : loadInt view 12 = .ok info.toCodeScheme := loadInt_head ints h 3 (by simp [ints])
  have hselected : loadUchar view 16 = .ok (boolToInt info.selected).toUInt8 := by
    refine loadUchar_behind (ints.map intMember) h ?_
    simp [ints, memberOffset, intMember, intBytes, padding]
  have hbool : decide ((boolToInt info.selected).toUInt8 = 1) = info.selected := by
    cases info.selected <;> rfl
  rw [loadGsmBci, bind_of_ok hfrom, bind_of_ok hto, bind_of_ok hfromScheme, bind_of_ok htoScheme,
    bind_of_ok hselected, hbool]
  rfl

theorem pointerList_eq {α : Type} {abi : Abi} {m : Memory} {load : View → Checked α}
    {size : ℕ} {configs : List (List Member)} {values : List α}
    (hlength : configs.length = values.length) (hint : values.length < 2 ^ 31)
    (hm : m.Holds (broadcastConfigCall abi size configs).frame)
    (hsize : ∀ c ∈ configs, (structCells c).length = size)
    (hload : ∀ i (hi : i < values.length) view,
      view.Shows (structFields 0 configs[i]) → load view = .ok values[i]) :
    pointerList abi m load (broadcastConfigCall abi size configs).data
      (broadcastConfigCall abi size configs).buflen = .ok ⟨false, values⟩ := by
  have hpos := abi_pointer_pos abi
  have hnum : toInt (configs.length * abi.pointer / abi.pointer : ℕ) = values.length := by
    rw [Nat.mul_div_cancel _ hpos, hlength]
    exact (toInt_natCast_eq_iff _).mpr hint
  have hentry : ∀ i (hi : i < values.length),
      (do
        let resp ← deref (loadPointer (m.deref ⟨0, 0⟩) (i * abi.pointer))
        load (m.deref resp)) = .ok values[i] := by
    intro i hi
    have hi' : i < configs.length := hlength ▸ hi
    have hpointer : loadPointer (m.deref ⟨0, 0⟩) (i * abi.pointer) = some ⟨1, i * size⟩ := by
      refine loadPointer_array (deref_shows hm) ?_ (by simpa using hi')
        (List.getElem_mapIdx ..)
      intro x hx
      obtain ⟨k, hk, rfl⟩ := List.mem_mapIdx.mp hx
      simp [pointerMember]
    have hblock : (m.deref ⟨1, 0⟩).Shows (configs.flatMap structCells) := deref_shows (b := 1) hm
    have hstruct := shows_flatMap hblock hsize i hi'
    have hplace : (m.deref ⟨1, 0⟩).drop (i * size) = m.deref ⟨1, i * size⟩ := by
      simp [Memory.deref]
    rw [hplace] at hstruct
    rw [hpointer]
    exact hload i hi _ (shows_append.mp hstruct).1
  simp only [pointerList, broadcastConfigCall, Nat.mul_mod_left, ne_eq, not_true_eq_false, if_false,
    hnum, resize, Int.natCast_nonneg, if_true, Int.toNat_natCast]
  rw [bind_of_ok rfl, bind_of_ok (mapM_range_eq hentry)]
  rfl

/-- What the framework sets comes back, from any memory that holds it, on both ABIs. -/
theorem gsmBroadcastConfig_read_back {abi : Abi} {configInfo : List GsmBroadcastSmsConfigInfo}
    (hint : configInfo.length < 2 ^ 31) {m : Memory}
    (hm : m.Holds (setGsmBroadcastConfig abi configInfo).frame) :
    getGsmBroadcastConfigResponse abi m (setGsmBroadcastConfig abi configInfo).data
      (setGsmBroadcastConfig abi configInfo).buflen = .ok ⟨false, configInfo⟩ := by
  refine pointerList_eq (by simp) hint hm ?_ ?_
  · intro c hc
    obtain ⟨info, -, rfl⟩ := List.mem_map.mp hc
    exact length_gsmBci info
  · intro i hi view hview
    rw [List.getElem_map] at hview
    exact loadGsmBci_eq hview

theorem gsmBroadcastConfig_read_back_two :
    let call := setGsmBroadcastConfig .lp64 [⟨0, 999, 0, 255, true⟩, ⟨4352, 4356, 0, 255, false⟩]
    getGsmBroadcastConfigResponse .lp64 (call.frame.fill fun _ _ => .byte 0) call.data call.buflen =
      .ok ⟨false, [⟨0, 999, 0, 255, true⟩, ⟨4352, 4356, 0, 255, false⟩]⟩ :=
  gsmBroadcastConfig_read_back (by decide) (fill_holds _ _)

/-! ## Restrictions come back -/

/-- The size of a hidl_string has 32 bits. -/
def Fits (carrier : Carrier) : Prop := ∀ s ∈ carrier.strings, s.length < 2 ^ 32

/-- The strings up to their first zero. -/
def cut (carrier : Carrier) : Carrier :=
  ⟨cString carrier.mcc, cString carrier.mnc, carrier.matchType, cString carrier.matchData⟩

/-- c_str() of a hidl_string is not NULL. -/
def cStrBlock (s : HidlString) : Block := ⟨.stack, bytes (s ++ [0])⟩

variable {abi : Abi} {m : Memory}

theorem cString_split (s : HidlString) : ∃ rest, s ++ [0] = cString s ++ 0 :: rest := by
  induction s with
  | nil => exact ⟨[], rfl⟩
  | cons b s ih =>
    by_cases hb : b = 0
    · exact ⟨s ++ [0], by simp [cString, hb]⟩
    · obtain ⟨rest, hrest⟩ := ih
      refine ⟨rest, ?_⟩
      have hcut : cString (b :: s) = b :: cString s := List.takeWhile_cons_of_pos (by simpa using hb)
      rw [List.cons_append, hrest, hcut, List.cons_append]

theorem loadPointer_behind {view : View} (pre : List Member) {post : List Member}
    {p : Option Pointer} {t : CType} {off : ℕ}
    (h : view.Shows (structFields 0 (pre ++ pointerMember abi p t :: post)))
    (hoff : memberOffset 0 pre abi.pointer = off) : loadPointer view off = p := by
  have hcells := shows_member 0 pre (by rwa [drop_zero])
  rw [show (pointerMember abi p t).align = abi.pointer from rfl, hoff] at hcells
  exact loadPointer_eq (abi_pointer_pos abi) hcells

theorem loadHidlString_eq {view : View} {off b : ℕ} {s : HidlString}
    (hp : loadPointer view off = some ⟨b, 0⟩) (hb : (m b).Shows (cStrBlock s).cells)
    (hs : s.length < 2 ^ 32) : loadHidlString abi m view off = .ok (cString s) := by
  obtain ⟨rest, hrest⟩ := cString_split s
  have hshown : (m.deref ⟨b, 0⟩).Shows (bytes (cString s ++ 0 :: rest)) := by
    rw [← hrest]
    simpa [Memory.deref, cStrBlock] using hb
  have hbound : (cString s).length < 2 ^ (8 * abi.pointer) := by
    refine ((cString_length_le s).trans_lt hs).trans_le (Nat.pow_le_pow_right Nat.two_pos ?_)
    cases abi <;> decide
  rw [loadHidlString, hp]
  simp only [loadString_of_terminated (cString_no_zero s) hshown hbound]
  rfl

theorem loadCarrier_eq {view : View} {first : ℕ} {carrier : Carrier}
    (hview : view.Shows (structFields 0 (carrierMembers abi first carrier)))
    (hstrings : ∀ k (hk : k < carrier.strings.length),
      (m (first + k)).Shows (cStrBlock carrier.strings[k]).cells)
    (hfits : Fits carrier) : loadCarrier abi m view = .ok (cut carrier) := by
  have hmcc : loadHidlString abi m view 0 = .ok (cString carrier.mcc) := by
    refine loadHidlString_eq (loadPointer_behind [] hview ?_) (hstrings 0 (by simp [Carrier.strings]))
      (hfits _ (by simp [Carrier.strings]))
    simp [memberOffset]
  have hmnc : loadHidlString abi m view abi.pointer = .ok (cString carrier.mnc) := by
    refine loadHidlString_eq (loadPointer_behind [pointerMember abi (some ⟨first, 0⟩) .cstr] hview ?_)
      (hstrings 1 (by simp [Carrier.strings])) (hfits _ (by simp [Carrier.strings]))
    simp [memberOffset, pointerMember, padding]
  have htype : loadInt view (2 * abi.pointer) = .ok carrier.matchType := by
    refine loadInt_behind [pointerMember abi (some ⟨first, 0⟩) .cstr,
      pointerMember abi (some ⟨first + 1, 0⟩) .cstr] hview ?_
    cases abi <;> simp [memberOffset, pointerMember, padding, Abi.pointer]
  have hdata : loadHidlString abi m view (3 * abi.pointer) = .ok (cString carrier.matchData) := by
    refine loadHidlString_eq (loadPointer_behind [pointerMember abi (some ⟨first, 0⟩) .cstr,
      pointerMember abi (some ⟨first + 1, 0⟩) .cstr, intMember carrier.matchType] hview ?_)
      (hstrings 2 (by simp [Carrier.strings])) (hfits _ (by simp [Carrier.strings]))
    cases abi <;> simp [memberOffset, pointerMember, intMember, intBytes, padding, Abi.pointer]
  rw [loadCarrier, bind_of_ok hmcc, bind_of_ok hmnc, bind_of_ok htype, bind_of_ok hdata]
  rfl

theorem length_carrierMembers (first : ℕ) (carrier : Carrier) :
    (structCells (carrierMembers abi first carrier)).length = sizeofCarrier abi := by
  cases abi <;> simp [structCells, carrierMembers, structFields, padding, maxAlign, pointerMember,
    intMember, intBytes, sizeofCarrier, Abi.pointer]

theorem loadCarriers_eq {b first : ℕ} {carriers : List Carrier}
    (hblock : (m b).Shows (carrierCells abi first carriers))
    (hstrings : ∀ i (hi : i < carriers.length) k (hk : k < carriers[i].strings.length),
      (m (first + 3 * i + k)).Shows (cStrBlock carriers[i].strings[k]).cells)
    (hfits : ∀ carrier ∈ carriers, Fits carrier) :
    loadCarriers abi m (some ⟨b, 0⟩) carriers.length = .ok (carriers.map cut) := by
  have hblock : (m.deref ⟨b, 0⟩).Shows ((carriers.mapIdx fun i carrier =>
      structCells (carrierMembers abi (first + 3 * i) carrier)).flatMap id) := by
    rw [List.flatMap_id]
    simpa [Memory.deref, carrierCells] using hblock
  have hturn : ∀ i (hi : i < (carriers.map cut).length),
      loadCarrier abi m ((m.deref ⟨b, 0⟩).drop (i * sizeofCarrier abi)) =
        .ok (carriers.map cut)[i] := by
    intro i hi
    rw [List.length_map] at hi
    have hi' : i < (carriers.mapIdx fun i carrier =>
        structCells (carrierMembers abi (first + 3 * i) carrier)).length := by
      rwa [List.length_mapIdx]
    have hstruct := shows_flatMap hblock (n := sizeofCarrier abi) ?_ i hi'
    · simp only [List.getElem_mapIdx] at hstruct
      rw [List.getElem_map]
      exact loadCarrier_eq (shows_append.mp hstruct).1 (hstrings i hi)
        (hfits _ (List.getElem_mem hi))
    · intro x hx
      obtain ⟨k, hk, rfl⟩ := List.mem_mapIdx.mp hx
      exact length_carrierMembers _ _
  have hloop := mapM_range_eq hturn
  rw [List.length_map] at hloop
  simp only [loadCarriers, resize, Int.natCast_nonneg, if_true, Int.toNat_natCast]
  rw [bind_of_ok rfl]
  exact hloop

theorem getD_flatMap {α β : Type} {f : α → List β} {n : ℕ} {l : List α}
    (hn : ∀ a ∈ l, (f a).length = n) {i : ℕ} {a : α} (hi : l[i]? = some a) {k : ℕ} (hk : k < n)
    (d : β) : (l.flatMap f).getD (n * i + k) d = (f a).getD k d := by
  induction l generalizing i with
  | nil => cases hi
  | cons b l ih =>
    have hb : (f b).length = n := hn b List.mem_cons_self
    rw [List.flatMap_cons]
    cases i with
    | zero =>
      cases hi
      rw [Nat.mul_zero, Nat.zero_add, List.getD_append _ _ _ _ (hb ▸ hk)]
    | succ i =>
      have hplace : n * (i + 1) + k - n = n * i + k := by rw [Nat.mul_succ]; omega
      rw [List.getD_append_right _ _ _ _ (by rw [hb, Nat.mul_succ]; omega), hb, hplace]
      exact ih (fun c hc => hn c (List.mem_cons_of_mem b hc)) hi

theorem frame_string (abi : Abi) (carriers : CarrierRestrictions) {i : ℕ}
    {carrier : Carrier}
    (hi : (carriers.allowedCarriers ++ carriers.excludedCarriers)[i]? = some carrier) {k : ℕ}
    (hk : k < carrier.strings.length) :
    (setAllowedCarriers abi carriers).frame (3 + 3 * i + k) =
      cStrBlock carrier.strings[k] := by
  have hblocks := getD_flatMap (f := carrierBlocks) (n := 3) (fun _ _ => rfl) hi hk
    (⟨.static, []⟩ : Block)
  have hplace : 3 + 3 * i + k = 3 * i + k + 3 := by omega
  rw [hplace]
  refine hblocks.trans ?_
  rw [carrierBlocks, List.getD_eq_getElem _ _ (by simpa using hk), List.getElem_map, cStrBlock]

/-- What a vendor that answers with what it was given is understood to say. -/
theorem getAllowedCarriersResponse_set {carriers : CarrierRestrictions}
    (hallowed : carriers.allowedCarriers.length < 2 ^ 31)
    (hexcluded : carriers.excludedCarriers.length < 2 ^ 31)
    (hfits : ∀ carrier ∈ carriers.allowedCarriers ++ carriers.excludedCarriers, Fits carrier)
    (hm : m.Holds (setAllowedCarriers abi carriers).frame) :
    getAllowedCarriersResponse abi m (setAllowedCarriers abi carriers).data
        (setAllowedCarriers abi carriers).buflen =
      .ok ⟨false, carriers.allowedCarriers = [] ∧ carriers.excludedCarriers = [],
        carriers.allowedCarriers.map cut, carriers.excludedCarriers.map cut⟩ := by
  have hsize : (setAllowedCarriers abi carriers).buflen =
      sizeofCarrierRestrictions abi := by
    cases abi <;> simp [setAllowedCarriers, structCall, structCells, structFields, padding,
      maxAlign, pointerMember, intMember, intBytes, sizeofCarrierRestrictions, Abi.pointer]
  have hcr : (m.deref ⟨0, 0⟩).Shows (structFields 0
      [intMember (.ofNat carriers.allowedCarriers.length),
        intMember (.ofNat carriers.excludedCarriers.length), pointerMember abi (some ⟨1, 0⟩) .done,
        pointerMember abi (some ⟨2, 0⟩) .done]) :=
    (shows_append.mp (deref_shows (b := 0) hm)).1
  have hlens : ∀ n : ℕ, n < 2 ^ 31 → toInt (UInt32.ofNat n).toNat = n := by
    intro n hn
    have hsize : n < UInt32.size := hn.trans (by decide)
    rw [UInt32.toNat_ofNat_of_lt' hsize]
    exact (toInt_natCast_eq_iff n).mpr hn
  have hlen_allowed : loadInt (m.deref ⟨0, 0⟩) 0 = .ok (.ofNat carriers.allowedCarriers.length) :=
    loadInt_behind [] hcr (by simp [memberOffset])
  have hlen_excluded : loadInt (m.deref ⟨0, 0⟩) 4 = .ok (.ofNat carriers.excludedCarriers.length) :=
    loadInt_behind [intMember (.ofNat carriers.allowedCarriers.length)] hcr
      (by simp [memberOffset, intMember, intBytes, padding])
  have hptr_allowed : loadPointer (m.deref ⟨0, 0⟩) 8 = some ⟨1, 0⟩ := by
    refine loadPointer_behind [intMember (.ofNat carriers.allowedCarriers.length),
      intMember (.ofNat carriers.excludedCarriers.length)] hcr ?_
    cases abi <;> simp [memberOffset, intMember, intBytes, padding, Abi.pointer]
  have hptr_excluded : loadPointer (m.deref ⟨0, 0⟩) (8 + abi.pointer) = some ⟨2, 0⟩ := by
    refine loadPointer_behind [intMember (.ofNat carriers.allowedCarriers.length),
      intMember (.ofNat carriers.excludedCarriers.length),
      pointerMember abi (some ⟨1, 0⟩) .done] hcr ?_
    cases abi <;> simp [memberOffset, intMember, intBytes, padding, Abi.pointer, pointerMember]
  have hload_allowed : loadCarriers abi m (some ⟨1, 0⟩) carriers.allowedCarriers.length =
      .ok (carriers.allowedCarriers.map cut) := by
    refine loadCarriers_eq (hm 1) (fun i hi k hk => ?_) fun carrier hmem =>
      hfits carrier (List.mem_append_left _ hmem)
    rw [← frame_string abi carriers (i := i) (by
      rw [List.getElem?_append_left hi, List.getElem?_eq_getElem hi]) hk]
    exact hm _
  have hload_excluded : loadCarriers abi m (some ⟨2, 0⟩) carriers.excludedCarriers.length =
      .ok (carriers.excludedCarriers.map cut) := by
    refine loadCarriers_eq (hm 2) (fun i hi k hk => ?_) fun carrier hmem =>
      hfits carrier (List.mem_append_right _ hmem)
    have hplace : 3 + 3 * carriers.allowedCarriers.length + 3 * i + k =
        3 + 3 * (carriers.allowedCarriers.length + i) + k := by omega
    rw [hplace, ← frame_string abi carriers (by
      rw [List.getElem?_append_right (Nat.le_add_right _ _), Nat.add_sub_cancel_left,
        List.getElem?_eq_getElem hi]) hk]
    exact hm _
  have hall : decide (¬((carriers.allowedCarriers.length : ℤ) > 0 ∨
      (carriers.excludedCarriers.length : ℤ) > 0)) =
      decide (carriers.allowedCarriers = [] ∧ carriers.excludedCarriers = []) := by
    rw [decide_eq_decide, ← List.length_eq_zero_iff, ← List.length_eq_zero_iff]
    omega
  rw [show (setAllowedCarriers abi carriers).data = some ⟨0, 0⟩ from rfl, hsize,
    getAllowedCarriersResponse, if_neg (not_not.mpr rfl), bind_of_ok hlen_allowed,
    bind_of_ok hlen_excluded, hlens _ hallowed, hlens _ hexcluded, hptr_allowed, hptr_excluded,
    bind_of_ok hload_allowed, bind_of_ok hload_excluded, hall]
  rfl

theorem cString_eq_iff (s : HidlString) : cString s = s ↔ 0 ∉ s := by
  rw [cString, List.takeWhile_eq_self_iff]
  constructor
  · intro h hzero
    simpa using h 0 hzero
  · rintro hzero b hb
    exact decide_eq_true fun hb0 => hzero (hb0 ▸ hb)

theorem cut_eq_iff (carrier : Carrier) : cut carrier = carrier ↔ ∀ s ∈ carrier.strings, 0 ∉ s := by
  obtain ⟨mcc, mnc, matchType, matchData⟩ := carrier
  simp [cut, Carrier.strings, cString_eq_iff]

theorem map_cut_eq_iff (carriers : List Carrier) :
    carriers.map cut = carriers ↔
      ∀ carrier ∈ carriers, ∀ s ∈ carrier.strings, 0 ∉ s := by
  have hentries : carriers.map cut = carriers.map id ↔ ∀ carrier ∈ carriers,
      cut carrier = carrier := List.map_inj_left
  rw [List.map_id] at hentries
  exact hentries.trans (forall₂_congr fun carrier _ => cut_eq_iff carrier)

/-- Restrictions come back as they were set exactly when allAllowed says that there are none, for it is
not handed on, and no string has a zero in it. -/
theorem allowedCarriers_read_back_iff (allAllowed : Bool) {carriers : CarrierRestrictions}
    (hallowed : carriers.allowedCarriers.length < 2 ^ 31)
    (hexcluded : carriers.excludedCarriers.length < 2 ^ 31)
    (hfits : ∀ carrier ∈ carriers.allowedCarriers ++ carriers.excludedCarriers, Fits carrier)
    (hm : m.Holds (setAllowedCarriers abi carriers).frame) :
    getAllowedCarriersResponse abi m (setAllowedCarriers abi carriers).data
        (setAllowedCarriers abi carriers).buflen = .ok ⟨false, allAllowed, carriers⟩ ↔
      (allAllowed = true ↔ carriers.allowedCarriers = [] ∧ carriers.excludedCarriers = []) ∧
        ∀ carrier ∈ carriers.allowedCarriers ++ carriers.excludedCarriers,
          ∀ s ∈ carrier.strings, 0 ∉ s := by
  rw [getAllowedCarriersResponse_set hallowed hexcluded hfits hm]
  obtain ⟨allowedCarriers, excludedCarriers⟩ := carriers
  simp only [Except.ok.injEq, Answer.mk.injEq, Prod.mk.injEq, CarrierRestrictions.mk.injEq,
    true_and, map_cut_eq_iff, List.forall_mem_append]
  refine and_congr_left fun _ => ?_
  rw [Bool.eq_iff_iff, decide_eq_true_iff]
  exact iff_comm

/-- One carrier is allowed, and all of them besides. -/
theorem allowedCarriers_read_back_iff_ignored :
    let carriers : CarrierRestrictions := ⟨[⟨[51, 49, 48], [50, 54], 0, []⟩], []⟩
    let call := setAllowedCarriers .lp64 carriers
    getAllowedCarriersResponse .lp64 (call.frame.fill fun _ _ => .byte 0) call.data call.buflen =
        .ok ⟨false, true, carriers⟩ ↔
      (true = true ↔ carriers.allowedCarriers = [] ∧ carriers.excludedCarriers = []) ∧
        ∀ carrier ∈ carriers.allowedCarriers ++ carriers.excludedCarriers,
          ∀ s ∈ carrier.strings, 0 ∉ s := by
  refine allowedCarriers_read_back_iff true (by decide) (by decide) ?_ (fill_holds _ _)
  intro carrier hcarrier s hs
  simp only [List.append_nil, List.mem_singleton] at hcarrier
  subst hcarrier
  have hlength : ∀ s ∈ Carrier.strings ⟨[51, 49, 48], [50, 54], 0, []⟩, s.length ≤ 3 := by decide
  exact (hlength s hs).trans_lt (by decide)

end RilReadBack
