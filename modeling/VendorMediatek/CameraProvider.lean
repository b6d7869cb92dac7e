import Mathlib.Data.List.Lex
import Mathlib.Data.Prod.Lex
import VendorMediatek.CameraDeviceNames
import VendorMediatek.LabelledRuns
import VendorMediatek.SortedMaps

/-!
# The camera provider

CameraProvider names the cameras of its module when it is made, lists the names of those that are
present, makes a device for such a name and tells its client of each change.
-/

namespace CameraProvider

open LabelledRuns CStrings DecimalStrings CameraDeviceNames

def CAMERA_MODULE_API_VERSION_2_0 : ℤ := 0x200
def CAMERA_DEVICE_STATUS_PRESENT : ℤ := 1

/-- The camera module behind CameraModule: whether it loads, initializes and takes the callbacks, and
what it answers. A module before 2.0 has devices of version 1.0 only. -/
structure Module where
  loaded : Bool
  numberOfCameras : ℕ
  apiVersion : ℤ
  cameraInfo : ℕ → Option ℤ
  deviceVersion : ℕ → ℤ
  isOpenLegacyDefined : Bool
  openLegacy : ℕ → ℤ
  number_lt : numberOfCameras < 2 ^ 31
  version_eq : ∀ i version, cameraInfo i = some version → deviceVersion i =
    if CAMERA_MODULE_API_VERSION_2_0 ≤ apiVersion then version else CAMERA_DEVICE_API_VERSION_1_0

/-- A string is compared by its bytes as unsigned numbers. -/
def order (s : CString) : List ℕ := s.map UInt8.toNat

abbrev NameKey := Lex (List ℕ × List ℕ)

def nameKey (cameraId deviceName : CString) : NameKey := toLex (order cameraId, order deviceName)

structure State where
  mCallbacks : Option ℕ
  mCameraStatusMap : CString → Option ℤ
  mCameraIds : List (List ℕ × CString)
  mCameraDeviceNames : List (NameKey × CString × CString)

def empty : State := ⟨none, fun _ => none, [], []⟩

def State.addName (s : State) (cameraId deviceName : CString) : State :=
  { s with
    mCameraDeviceNames := SortedMaps.put (nameKey cameraId deviceName) (cameraId, deviceName)
      s.mCameraDeviceNames }

def State.setStatus (s : State) (cameraId : CString) (status : ℤ) : State :=
  { s with mCameraStatusMap := Function.update s.mCameraStatusMap cameraId (some status) }

def checkCameraVersion (m : Module) (deviceVersion : ℤ) : Bool :=
  CAMERA_MODULE_API_VERSION_2_0 ≤ m.apiVersion → Supported deviceVersion

/-- open_legacy is tried where the device is of version 3.2 or later. -/
def openLegacySupported (m : Module) (i : ℕ) : Bool :=
  CAMERA_DEVICE_API_VERSION_3_2 ≤ m.deviceVersion i ∧ m.isOpenLegacyDefined ∧ m.openLegacy i = 0

/-- What initialize enters for one camera. -/
def addCamera (m : Module) (s : State) (i : ℕ) : State :=
  let cameraId := printInt i
  let s := s.setStatus cameraId CAMERA_DEVICE_STATUS_PRESENT
  let s := { s with mCameraIds := SortedMaps.put (order cameraId) cameraId s.mCameraIds }
  let s := s.addName cameraId (getHidlDeviceName cameraId (m.deviceVersion i))
  if openLegacySupported m i then
    s.addName cameraId (getHidlDeviceName cameraId CAMERA_DEVICE_API_VERSION_1_0)
  else s

/-- One round of the loop of initialize. -/
def initializeCamera (m : Module) (s : State) (i : ℕ) : Option State := do
  let deviceVersion ← m.cameraInfo i
  if checkCameraVersion m deviceVersion then some (addCamera m s i) else none

/-- What initialize() leaves; there is no provider where it fails. -/
def initialized (m : Module) : Option State :=
  if m.loaded then (List.range m.numberOfCameras).foldlM (initializeCamera m) empty else none

/-- The vectors as the names and ids in them. -/
def State.names (s : State) : List (CString × CString) := s.mCameraDeviceNames.map Prod.snd

def State.present (s : State) (cameraId : CString) : Bool :=
  s.mCameraStatusMap cameraId = some CAMERA_DEVICE_STATUS_PRESENT

def getCameraIdList (s : State) : List CString :=
  (s.names.filter fun p => s.present p.1).map Prod.snd

inductive Status where
  | ILLEGAL_ARGUMENT | OPERATION_NOT_SUPPORTED | INTERNAL_ERROR
  deriving DecidableEq

/-- mInitFail of a new CameraDevice. -/
def deviceInitFails (longBits : ℕ) (m : Module) (ashmemAllocator : Bool) (cameraId : CString) : Bool :=
  let mCameraIdInt := atoi longBits cameraId
  mCameraIdInt < 0 ∨ m.numberOfCameras ≤ mCameraIdInt ∨
    m.deviceVersion mCameraIdInt.toNat ≠ CAMERA_DEVICE_API_VERSION_1_0 ∧ ¬m.isOpenLegacyDefined ∨
    ¬ashmemAllocator

/-- A device for a camera, or a status. -/
def getCameraDeviceInterface_V1_x (longBits : ℕ) (m : Module) (ashmemAllocator : Bool) (s : State)
    (cameraDeviceName : List UInt8) : Except Status CString :=
  let deviceName := cameraDeviceName.takeWhile (· ≠ 0)
  match matchDeviceName deviceName with
  | none => .error .ILLEGAL_ARGUMENT
  | some (_, cameraId) =>
    if SortedMaps.get (nameKey cameraId deviceName) s.mCameraDeviceNames = none then
      if SortedMaps.get (order cameraId) s.mCameraIds = none then .error .ILLEGAL_ARGUMENT
      else .error .OPERATION_NOT_SUPPORTED
    else if s.present cameraId = false then .error .ILLEGAL_ARGUMENT
    else if deviceInitFails longBits m ashmemAllocator cameraId then .error .INTERNAL_ERROR
    else .ok cameraId

/-- setCallback and the callbacks of the module. -/
inductive Event where
  | setCallback (callback : Option ℕ)
  | cameraDeviceStatusChange (camera_id : Int32) (new_status : ℤ)
  | torchModeStatusChange (camera_id : CString) (new_status : ℤ)

def next (s : State) : Event → State
  | .setCallback callback => { s with mCallbacks := callback }
  | .cameraDeviceStatusChange camera_id new_status =>
    s.setStatus (printInt camera_id.toInt) new_status
  | .torchModeStatusChange _ _ => s

/-- The calls of the client's cameraDeviceStatusChange, each with a name and a status. -/
def told (s : State) : Event → List (CString × ℤ)
  | .cameraDeviceStatusChange camera_id new_status =>
    if s.mCallbacks = none then []
    else (s.names.filter fun p => p.1 = printInt camera_id.toInt).map fun p => (p.2, new_status)
  | _ => []

def system : System State Event := ⟨fun _ _ => True, next⟩

/-! ## What has been entered -/

theorem order_injective : Function.Injective order :=
  List.map_injective_iff.mpr fun _ _ h => UInt8.toNat_inj.mp h

theorem nameKey_inj {cameraId deviceName cameraId' deviceName' : CString}
    (h : nameKey cameraId deviceName = nameKey cameraId' deviceName') :
    cameraId = cameraId' ∧ deviceName = deviceName' := by
  have hpair : (order cameraId, order deviceName) = (order cameraId', order deviceName') := h
  obtain ⟨hid, hname⟩ := Prod.mk.inj hpair
  exact ⟨order_injective hid, order_injective hname⟩

/-- The id of one of the module's cameras. -/
def IsCamera (m : Module) (cameraId : CString) : Prop :=
  ∃ i, i < m.numberOfCameras ∧ cameraId = printInt i

/-- The name is that of a camera in some version. -/
def Names (m : Module) (p : CString × CString) : Prop :=
  IsCamera m p.1 ∧ ∃ version, Supported version ∧ p.2 = getHidlDeviceName p.1 version

/-- The vectors are in order; the ids and names in them are those of cameras. -/
structure Entered (m : Module) (s : State) : Prop where
  ids : SortedMaps.Sorted s.mCameraIds
  idKeys : ∀ e ∈ s.mCameraIds, e.1 = order e.2
  cameras : ∀ e ∈ s.mCameraIds, IsCamera m e.2
  names : SortedMaps.Sorted s.mCameraDeviceNames
  nameKeys : ∀ e ∈ s.mCameraDeviceNames, e.1 = nameKey e.2.1 e.2.2
  named : ∀ e ∈ s.mCameraDeviceNames, Names m e.2

theorem entered_empty (m : Module) : Entered m empty :=
  ⟨SortedMaps.sorted_nil, nofun, nofun, SortedMaps.sorted_nil, nofun, nofun⟩

theorem Entered.addName {m : Module} {s : State} (h : Entered m s) {cameraId deviceName : CString}
    (hname : Names m (cameraId, deviceName)) : Entered m (s.addName cameraId deviceName) := by
  refine ⟨h.ids, h.idKeys, h.cameras, h.names.put _ _, fun e he => ?_, fun e he => ?_⟩
  · rcases (SortedMaps.mem_put_iff h.names).mp he with rfl | ⟨-, hold⟩
    · rfl
    · exact h.nameKeys e hold
  · rcases (SortedMaps.mem_put_iff h.names).mp he with rfl | ⟨-, hold⟩
    · exact hname
    · exact h.named e hold

theorem supported_deviceVersion {m : Module} {i : ℕ} {version : ℤ}
    (hinfo : m.cameraInfo i = some version) (hcheck : checkCameraVersion m version = true) :
    Supported (m.deviceVersion i) := by
  rw [m.version_eq i version hinfo]
  split
  · next hapi => exact of_decide_eq_true hcheck hapi
  · exact .inl rfl

/-- A round of the loop enters the camera, and keeps the ids that are there. -/
theorem entered_initializeCamera {m : Module} {s t : State} (h : Entered m s) {i : ℕ}
    (hi : i < m.numberOfCameras) (hround : initializeCamera m s i = some t) :
    Entered m t ∧
      t.mCameraIds = SortedMaps.put (order (printInt i)) (printInt i) s.mCameraIds := by
  obtain ⟨version, hinfo, hadd⟩ := Option.bind_eq_some_iff.mp hround
  obtain ⟨hcheck, hadd⟩ := Option.ite_some_none_eq_some.mp hadd
  subst hadd
  have hcamera : IsCamera m (printInt i) := ⟨i, hi, rfl⟩
  have hids : Entered m { s.setStatus (printInt i) CAMERA_DEVICE_STATUS_PRESENT with
      mCameraIds := SortedMaps.put (order (printInt i)) (printInt i) s.mCameraIds } := by
    refine ⟨h.ids.put _ _, fun e he => ?_, fun e he => ?_, h.names, h.nameKeys, h.named⟩
    · rcases (SortedMaps.mem_put_iff h.ids).mp he with rfl | ⟨-, hold⟩
      · rfl
      · exact h.idKeys e hold
    · rcases (SortedMaps.mem_put_iff h.ids).mp he with rfl | ⟨-, hold⟩
      · exact hcamera
      · exact h.cameras e hold
  have hname : Names m (printInt i, getHidlDeviceName (printInt i) (m.deviceVersion i)) :=
    ⟨hcamera, _, supported_deviceVersion hinfo hcheck, rfl⟩
  have hlegacy : Names m
      (printInt i, getHidlDeviceName (printInt i) CAMERA_DEVICE_API_VERSION_1_0) :=
    ⟨hcamera, _, .inl rfl, rfl⟩
  unfold addCamera
  split
  · exact ⟨(hids.addName hname).addName hlegacy, rfl⟩
  · exact ⟨hids.addName hname, rfl⟩

def State.ids (s : State) : List CString := s.mCameraIds.map Prod.snd

theorem ids_put {m : Module} {s t : State} (h : Entered m s) {cameraId : CString}
    (ht : t.mCameraIds = SortedMaps.put (order cameraId) cameraId s.mCameraIds) :
    ∀ id, id = cameraId ∨ id ∈ s.ids → id ∈ t.ids := by
  intro id hid
  refine List.mem_map.mpr ?_
  rw [ht]
  by_cases heq : id = cameraId
  · exact ⟨_, (SortedMaps.mem_put_iff h.ids).mpr (.inl rfl), heq.symm⟩
  · obtain ⟨e, he, rfl⟩ := List.mem_map.mp (hid.resolve_left heq)
    have hne : e.1 ≠ order cameraId := by
      rw [h.idKeys e he]
      exact fun hsame => heq (order_injective hsame)
    exact ⟨e, (SortedMaps.mem_put_iff h.ids).mpr (.inr ⟨hne, he⟩), rfl⟩

theorem entered_loop {m : Module} {s t : State} (h : Entered m s) {cameras : List ℕ}
    (hcameras : ∀ i ∈ cameras, i < m.numberOfCameras)
    (hloop : cameras.foldlM (initializeCamera m) s = some t) :
    Entered m t ∧ ∀ id, id ∈ s.ids ∨ (∃ i : ℕ, i ∈ cameras ∧ id = printInt i) → id ∈ t.ids := by
  induction cameras generalizing s with
  | nil =>
    cases hloop
    refine ⟨h, fun id hid => ?_⟩
    rcases hid with hid | ⟨i, hi, -⟩
    · exact hid
    · cases hi
  | cons i cameras ih =>
    obtain ⟨hi, hrest⟩ := List.forall_mem_cons.mp hcameras
    rw [List.foldlM_cons] at hloop
    obtain ⟨u, hround, hloop⟩ := Option.bind_eq_some_iff.mp hloop
    obtain ⟨hu, hids⟩ := entered_initializeCamera h hi hround
    obtain ⟨ht, hmore⟩ := ih hu hrest hloop
    refine ⟨ht, fun id hid => hmore id ?_⟩
    rcases hid with hid | ⟨j, hj, rfl⟩
    · exact .inl (ids_put h hids id (.inr hid))
    · rcases List.mem_cons.mp hj with rfl | hj
      · exact .inl (ids_put h hids _ (.inl rfl))
      · exact .inr ⟨j, hj, rfl⟩

/-- After initialize the vectors have all the cameras of the module and nothing else. -/
theorem entered_initialized {m : Module} {s : State} (h : initialized m = some s) :
    Entered m s ∧ ∀ id, id ∈ s.ids ↔ IsCamera m id := by
  obtain ⟨-, hloop⟩ := Option.ite_none_right_eq_some.mp h
  obtain ⟨hs, hids⟩ := entered_loop (entered_empty m) (fun i hi => List.mem_range.mp hi) hloop
  refine ⟨hs, fun id => ⟨fun hid => ?_, fun ⟨i, hi, heq⟩ => ?_⟩⟩
  · obtain ⟨e, he, rfl⟩ := List.mem_map.mp hid
    exact hs.cameras e he
  · exact hids id (.inr ⟨i, List.mem_range.mpr hi, heq⟩)

theorem vectors_run (s : State) (es : List Event) :
    (system.run s es).mCameraIds = s.mCameraIds ∧
      (system.run s es).mCameraDeviceNames = s.mCameraDeviceNames := by
  induction es generalizing s with
  | nil => exact ⟨rfl, rfl⟩
  | cons e es ih =>
    obtain ⟨hids, hnames⟩ := ih (next s e)
    cases e <;> exact ⟨hids, hnames⟩

theorem Entered.of_vectors {m : Module} {s t : State} (h : Entered m s)
    (hids : t.mCameraIds = s.mCameraIds)
    (hnames : t.mCameraDeviceNames = s.mCameraDeviceNames) : Entered m t := by
  obtain ⟨_, _, ids, names⟩ := t
  cases hids
  cases hnames
  exact ⟨h.ids, h.idKeys, h.cameras, h.names, h.nameKeys, h.named⟩

/-! ## Names that are listed and names that are taken -/

theorem get_nameKey_iff {m : Module} {s : State} (h : Entered m s) (cameraId deviceName : CString) :
    SortedMaps.get (nameKey cameraId deviceName) s.mCameraDeviceNames ≠ none ↔
      (cameraId, deviceName) ∈ s.names := by
  constructor
  · intro hfound
    obtain ⟨p, hp⟩ := Option.ne_none_iff_exists'.mp hfound
    have hmem := SortedMaps.mem_of_get hp
    obtain ⟨hid, hname⟩ := nameKey_inj (h.nameKeys _ hmem)
    exact List.mem_map.mpr ⟨_, hmem, Prod.ext hid.symm hname.symm⟩
  · intro hmem
    obtain ⟨e, he, heq⟩ := List.mem_map.mp hmem
    have hkey : e = (nameKey cameraId deviceName, cameraId, deviceName) := by
      refine Prod.ext ?_ heq
      rw [h.nameKeys e he, heq]
    rw [(SortedMaps.get_eq_some_iff h.names).mpr (hkey ▸ he)]
    nofun

theorem get_order_iff {m : Module} {s : State} (h : Entered m s) (cameraId : CString) :
    SortedMaps.get (order cameraId) s.mCameraIds ≠ none ↔ cameraId ∈ s.ids := by
  constructor
  · intro hfound
    obtain ⟨id, hid⟩ := Option.ne_none_iff_exists'.mp hfound
    have hmem := SortedMaps.mem_of_get hid
    exact List.mem_map.mpr ⟨_, hmem, (order_injective (h.idKeys _ hmem)).symm⟩
  · intro hmem
    obtain ⟨e, he, rfl⟩ := List.mem_map.mp hmem
    have hkey : e = (order e.2, e.2) := Prod.ext (h.idKeys e he) rfl
    rw [(SortedMaps.get_eq_some_iff h.ids).mpr (hkey ▸ he)]
    nofun

theorem match_of_named {m : Module} {s : State} (h : Entered m s) {cameraId deviceName : CString}
    (hmem : (cameraId, deviceName) ∈ s.names) :
    ∃ version, matchDeviceName deviceName = some (version, cameraId) := by
  obtain ⟨e, he, heq⟩ := List.mem_map.mp hmem
  have hnamed := h.named e he
  rw [heq] at hnamed
  obtain ⟨⟨i, hi, hid⟩, version, hsupported, hname⟩ := hnamed
  simp only at hid hname
  have hint : (Int32.ofNat i).toInt = i := Int32.toInt_ofNat_of_lt (hi.trans m.number_lt)
  have hmatch := match_printInt hsupported (Int32.ofNat i)
  rw [hint] at hmatch
  rw [hname, hid]
  exact ⟨_, hmatch⟩

theorem mem_getCameraIdList {s : State} {deviceName : CString} :
    deviceName ∈ getCameraIdList s ↔ ∃ cameraId, (cameraId, deviceName) ∈ s.names ∧
      s.present cameraId = true := by
  constructor
  · intro hmem
    obtain ⟨p, hp, rfl⟩ := List.mem_map.mp hmem
    exact ⟨p.1, List.mem_filter.mp hp⟩
  · rintro ⟨cameraId, hmem, hpresent⟩
    exact List.mem_map.mpr ⟨(cameraId, deviceName), List.mem_filter.mpr ⟨hmem, hpresent⟩, rfl⟩

theorem id_unique {m : Module} {s : State} (h : Entered m s) {cameraId cameraId' deviceName : CString}
    (hmem : (cameraId, deviceName) ∈ s.names) (hmem' : (cameraId', deviceName) ∈ s.names) :
    cameraId = cameraId' := by
  obtain ⟨version, hmatch⟩ := match_of_named h hmem
  obtain ⟨version', hmatch'⟩ := match_of_named h hmem'
  rw [hmatch] at hmatch'
  cases hmatch'
  rfl

/-- The device of a camera of the module fails to initialize for its version or for want of an
allocator, never for its id. -/
theorem deviceInitFails_of_camera {longBits : ℕ} (hlong : 32 ≤ longBits) (m : Module)
    (ashmemAllocator : Bool) {i : ℕ} (hi : i < m.numberOfCameras) :
    deviceInitFails longBits m ashmemAllocator (printInt i) =
      decide (m.deviceVersion i ≠ CAMERA_DEVICE_API_VERSION_1_0 ∧ ¬m.isOpenLegacyDefined ∨
        ¬ashmemAllocator) := by
  have hpow : (2 : ℤ) ^ 31 ≤ 2 ^ (longBits - 1) := pow_le_pow_right₀ (by decide) (by omega)
  have hlt := hi.trans m.number_lt
  have hatoi : atoi longBits (printInt i) = i := by
    rw [atoi, strtol_printInt (by omega) (by omega)]
    exact (toInt_natCast_eq_iff i).mpr hlt
  have hlow : ¬((i : ℤ) < 0) := by omega
  have hhigh : ¬((m.numberOfCameras : ℤ) ≤ i) := by omega
  simp only [deviceInitFails, hatoi, hlow, hhigh, Int.toNat_natCast, false_or]

/-- The name is one of a camera of the module, but not one it is filed under. -/
def OtherVersion (m : Module) (s : State) (deviceName : CString) : Prop :=
  ∃ version cameraId, matchDeviceName deviceName = some (version, cameraId) ∧
    IsCamera m cameraId ∧ (cameraId, deviceName) ∉ s.names

theorem interface_of_listed {longBits : ℕ} {m : Module} {s : State} (h : Entered m s)
    (ashmemAllocator : Bool) {cameraDeviceName : List UInt8} {cameraId : CString}
    (hmem : (cameraId, cameraDeviceName.takeWhile (· ≠ 0)) ∈ s.names)
    (hpresent : s.present cameraId = true) :
    getCameraDeviceInterface_V1_x longBits m ashmemAllocator s cameraDeviceName =
      if deviceInitFails longBits m ashmemAllocator cameraId then .error .INTERNAL_ERROR
      else .ok cameraId := by
  obtain ⟨version, hmatch⟩ := match_of_named h hmem
  have hfound := (get_nameKey_iff h cameraId _).mpr hmem
  simp only [getCameraDeviceInterface_V1_x, hmatch]
  rw [if_neg hfound, if_neg (by rw [hpresent]; nofun)]

theorem interface_of_unlisted {longBits : ℕ} {m : Module} {s : State} (h : Entered m s)
    (hids : ∀ id, id ∈ s.ids ↔ IsCamera m id) (ashmemAllocator : Bool)
    {cameraDeviceName : List UInt8}
    (hunlisted : cameraDeviceName.takeWhile (· ≠ 0) ∉ getCameraIdList s) :
    let deviceName := cameraDeviceName.takeWhile (· ≠ 0)
    let answer := getCameraDeviceInterface_V1_x longBits m ashmemAllocator s cameraDeviceName
    answer = .error .OPERATION_NOT_SUPPORTED ∧ OtherVersion m s deviceName ∨
      answer = .error .ILLEGAL_ARGUMENT ∧ ¬OtherVersion m s deviceName := by
  intro deviceName answer
  cases hmatch : matchDeviceName deviceName with
  | none =>
    refine .inr ⟨by simp only [answer, getCameraDeviceInterface_V1_x, deviceName, hmatch], ?_⟩
    rintro ⟨version, cameraId, hsome, -⟩
    rw [hmatch] at hsome
    cases hsome
  | some found =>
    obtain ⟨version, cameraId⟩ := found
    have hother : OtherVersion m s deviceName ↔
        IsCamera m cameraId ∧ (cameraId, deviceName) ∉ s.names := by
      constructor
      · rintro ⟨version', cameraId', hsome, hcamera, hnot⟩
        rw [hmatch] at hsome
        cases hsome
        exact ⟨hcamera, hnot⟩
      · exact fun hboth => ⟨version, cameraId, hmatch, hboth⟩
    have hname := get_nameKey_iff h cameraId deviceName
    have hid := (get_order_iff h cameraId).trans (hids cameraId)
    simp only [answer, getCameraDeviceInterface_V1_x, deviceName, hmatch] at *
    by_cases hmem : (cameraId, deviceName) ∈ s.names
    · have habsent : s.present cameraId = false := by
        by_contra hpresent
        exact hunlisted (mem_getCameraIdList.mpr ⟨cameraId, hmem, by simpa using hpresent⟩)
      refine .inr ⟨?_, fun hn => (hother.mp hn).2 hmem⟩
      rw [if_neg (hname.mpr hmem), if_pos habsent]
    · rw [if_pos (not_not.mp (mt hname.mp hmem))]
      by_cases hcamera : IsCamera m cameraId
      · exact .inl ⟨if_neg (hid.mpr hcamera), hother.mpr ⟨hcamera, hmem⟩⟩
      · exact .inr ⟨if_pos (not_not.mp (mt hid.mp hcamera)), fun hn => hcamera (hother.mp hn).1⟩

/-- What a request for a device is answered, in every state of every run: a name that is listed goes
to the device of its camera; any other is refused, as not supported where the camera exists but not
under this name. -/
theorem interface_answers {longBits : ℕ} (hlong : 32 ≤ longBits) {m : Module} {s₀ : State}
    (hinit : initialized m = some s₀) (es : List Event) (ashmemAllocator : Bool)
    (cameraDeviceName : List UInt8) :
    let s := system.run s₀ es
    let deviceName := cameraDeviceName.takeWhile (· ≠ 0)
    let answer := getCameraDeviceInterface_V1_x longBits m ashmemAllocator s cameraDeviceName
    (deviceName ∈ getCameraIdList s → ∃ i : ℕ, i < m.numberOfCameras ∧
      (printInt i, deviceName) ∈ s.names ∧ answer =
        if m.deviceVersion i ≠ CAMERA_DEVICE_API_VERSION_1_0 ∧ ¬m.isOpenLegacyDefined ∨
          ¬ashmemAllocator then .error .INTERNAL_ERROR else .ok (printInt i)) ∧
    (deviceName ∉ getCameraIdList s →
      answer = .error .OPERATION_NOT_SUPPORTED ∧ OtherVersion m s deviceName ∨
        answer = .error .ILLEGAL_ARGUMENT ∧ ¬OtherVersion m s deviceName) := by
  intro s deviceName answer
  obtain ⟨h₀, hids₀⟩ := entered_initialized hinit
  obtain ⟨hsame, hsameNames⟩ := vectors_run s₀ es
  have h : Entered m s := h₀.of_vectors hsame hsameNames
  have hids : ∀ id, id ∈ s.ids ↔ IsCamera m id := by
    intro id
    rw [← hids₀ id, State.ids, hsame]
    rfl
  refine ⟨fun hlisted => ?_, interface_of_unlisted h hids ashmemAllocator⟩
  obtain ⟨cameraId, hmem, hpresent⟩ := mem_getCameraIdList.mp hlisted
  obtain ⟨e, he, heq⟩ := List.mem_map.mp hmem
  have hcamera := (h.named e he).1
  rw [heq] at hcamera
  obtain ⟨i, hi, rfl⟩ : IsCamera m cameraId := hcamera
  refine ⟨i, hi, hmem, (interface_of_listed h ashmemAllocator hmem hpresent).trans ?_⟩
  rw [deviceInitFails_of_camera hlong m ashmemAllocator hi]
  simp only [decide_eq_true_eq]

/-- A module of version 2.4 with one camera of version 3.2 that open_legacy opens. -/
def oneCamera : Module where
  loaded := true
  numberOfCameras := 1
  apiVersion := 0x204
  cameraInfo := fun _ => some 0x302
  deviceVersion := fun _ => 0x302
  isOpenLegacyDefined := true
  openLegacy := fun _ => 0
  number_lt := by decide
  version_eq := by
    rintro i version ⟨⟩
    rfl

theorem initialized_oneCamera : initialized oneCamera = some (addCamera oneCamera empty 0) := rfl

/-- The camera has been unplugged. -/
theorem interface_answers_unplugged :
    let s := system.run (addCamera oneCamera empty 0) [.cameraDeviceStatusChange 0 0]
    let name := literal "device@1.0/legacy/0"
    let answer := getCameraDeviceInterface_V1_x 64 oneCamera true s name
    (name.takeWhile (· ≠ 0) ∈ getCameraIdList s → ∃ i : ℕ, i < 1 ∧
      (printInt i, name.takeWhile (· ≠ 0)) ∈ s.names ∧ answer =
        if oneCamera.deviceVersion i ≠ CAMERA_DEVICE_API_VERSION_1_0 ∧
            ¬oneCamera.isOpenLegacyDefined ∨ ¬true then .error .INTERNAL_ERROR
        else .ok (printInt i)) ∧
    (name.takeWhile (· ≠ 0) ∉ getCameraIdList s →
      answer = .error .OPERATION_NOT_SUPPORTED ∧ OtherVersion oneCamera s (name.takeWhile (· ≠ 0)) ∨
        answer = .error .ILLEGAL_ARGUMENT ∧ ¬OtherVersion oneCamera s (name.takeWhile (· ≠ 0))) :=
  interface_answers (by decide) initialized_oneCamera [.cameraDeviceStatusChange 0 0] true
    (literal "device@1.0/legacy/0")

/-! ## What the client knows -/

/-- The calls of a whole run. -/
def calls (s : State) : List Event → List (CString × ℤ)
  | [] => []
  | e :: es => told s e ++ calls (next s e) es

/-- A client keeps for each name whether it has last been told that the device is present. -/
def track (known : CString → Bool) (calls : List (CString × ℤ)) : CString → Bool :=
  calls.foldl (fun known call =>
    Function.update known call.1 (call.2 = CAMERA_DEVICE_STATUS_PRESENT)) known

def listed (s : State) (deviceName : CString) : Bool := deviceName ∈ getCameraIdList s

theorem track_append (known : CString → Bool) (a b : List (CString × ℤ)) :
    track known (a ++ b) = track (track known a) b := List.foldl_append

/-- Calls with one status set the names they are about and no others. -/
theorem track_map (known : CString → Bool) (names : List CString) (status : ℤ)
    (deviceName : CString) :
    track known (names.map fun name => (name, status)) deviceName =
      if deviceName ∈ names then decide (status = CAMERA_DEVICE_STATUS_PRESENT)
      else known deviceName := by
  induction names generalizing known with
  | nil => rfl
  | cons name names ih =>
    rw [List.map_cons, track, List.foldl_cons]
    refine (ih _).trans ?_
    by_cases hrest : deviceName ∈ names
    · rw [if_pos hrest, if_pos (List.mem_cons_of_mem _ hrest)]
    · by_cases heq : deviceName = name
      · subst heq
        rw [if_neg hrest, if_pos List.mem_cons_self, Function.update_self]
      · rw [if_neg hrest, Function.update_of_ne heq,
          if_neg (not_or.mpr ⟨heq, hrest⟩ |> mt List.mem_cons.mp)]

theorem present_setStatus (s : State) (cameraId : CString) (status : ℤ) (id : CString) :
    (s.setStatus cameraId status).present id =
      if id = cameraId then decide (status = CAMERA_DEVICE_STATUS_PRESENT) else s.present id := by
  by_cases heq : id = cameraId
  · subst heq
    simp [State.present, State.setStatus]
  · simp [State.present, State.setStatus, heq]

/-- A change of status is told under all the names of the camera, and they are listed from then on
as the status says. -/
theorem listed_statusChange {m : Module} {s : State} (h : Entered m s)
    (hclient : s.mCallbacks ≠ none) (camera_id : Int32) (new_status : ℤ) :
    track (listed s) (told s (.cameraDeviceStatusChange camera_id new_status)) =
      listed (next s (.cameraDeviceStatusChange camera_id new_status)) := by
  have htold : told s (.cameraDeviceStatusChange camera_id new_status) =
      (((s.names.filter fun p => p.1 = printInt camera_id.toInt).map Prod.snd).map
        fun name => (name, new_status)) := by
    rw [told, if_neg hclient, List.map_map]
    rfl
  funext deviceName
  rw [htold, track_map]
  have hnext : listed (next s (.cameraDeviceStatusChange camera_id new_status)) deviceName = true ↔
      ∃ cameraId, (cameraId, deviceName) ∈ s.names ∧
        (s.setStatus (printInt camera_id.toInt) new_status).present cameraId = true :=
    decide_eq_true_iff.trans mem_getCameraIdList
  rw [Bool.eq_iff_iff, hnext]
  simp only [present_setStatus]
  split
  · next hmem =>
    obtain ⟨p, hp, rfl⟩ := List.mem_map.mp hmem
    obtain ⟨hnamed, hid⟩ := List.mem_filter.mp hp
    have hid : p.1 = printInt camera_id.toInt := of_decide_eq_true hid
    constructor
    · intro hpresent
      exact ⟨p.1, hnamed, by rwa [if_pos hid]⟩
    · rintro ⟨cameraId, hmem, hpresent⟩
      rwa [id_unique h hmem hnamed, if_pos hid] at hpresent
  · next hnot =>
    have hother : ∀ cameraId, (cameraId, deviceName) ∈ s.names →
        cameraId ≠ printInt camera_id.toInt := by
      rintro cameraId hmem rfl
      exact hnot (List.mem_map.mpr ⟨_, List.mem_filter.mpr ⟨hmem, decide_eq_true rfl⟩, rfl⟩)
    refine (decide_eq_true_iff.trans mem_getCameraIdList).trans (exists_congr fun cameraId => ?_)
    refine and_congr_right fun hmem => ?_
    rw [if_neg (hother cameraId hmem)]

/-- A client that has fetched the list and follows the calls always knows what the list would say. -/
theorem track_calls {m : Module} {s₀ : State} (hinit : initialized m = some s₀)
    {before es : List Event} (hclient : (system.run s₀ before).mCallbacks ≠ none)
    (hkeeps : ∀ callback, .setCallback callback ∉ es) :
    track (listed (system.run s₀ before)) (calls (system.run s₀ before) es) =
      listed (system.run s₀ (before ++ es)) := by
  have h : Entered m (system.run s₀ before) := by
    obtain ⟨hids, hnames⟩ := vectors_run s₀ before
    exact (entered_initialized hinit).1.of_vectors hids hnames
  have hrun : system.run s₀ (before ++ es) = system.run (system.run s₀ before) es :=
    List.foldl_append
  rw [hrun]
  clear hrun
  generalize system.run s₀ before = s at *
  induction es generalizing s with
  | nil => rfl
  | cons e es ih =>
    have hrest : ∀ callback, .setCallback callback ∉ es := fun callback hmem =>
      hkeeps callback (List.mem_cons_of_mem e hmem)
    rw [calls, track_append]
    cases e with
    | setCallback callback => exact absurd List.mem_cons_self (hkeeps callback)
    | cameraDeviceStatusChange camera_id new_status =>
      rw [listed_statusChange h hclient]
      exact ih hrest _ hclient (h.of_vectors rfl rfl)
    | torchModeStatusChange camera_id new_status => exact ih hrest _ hclient h

/-- A camera is unplugged and comes back. -/
theorem track_calls_replugged :
    let s := system.run (addCamera oneCamera empty 0) [.setCallback (some 5)]
    let es : List Event := [.cameraDeviceStatusChange 0 0, .torchModeStatusChange (literal "0") 1,
      .cameraDeviceStatusChange 0 1]
    track (listed s) (calls s es) =
      listed (system.run (addCamera oneCamera empty 0) ([.setCallback (some 5)] ++ es)) := by
  refine track_calls initialized_oneCamera nofun fun callback hmem => ?_
  simp at hmem

end CameraProvider
