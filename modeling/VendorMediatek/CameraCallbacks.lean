import Mathlib.Logic.Function.Basic
import VendorMediatek.LabelledRuns

/-!
# Callbacks of the camera HAL

The provider makes a `CameraDevice` at every request. The HAL gets the device as the user pointer
of its callbacks, but all of them go through the static `sCameraDevice` of the last open.
-/

namespace CameraCallbacks

open LabelledRuns

abbrev Client := ℕ
abbrev MemoryId := ℕ

/-- A CameraDevice, by its number in the order in which they are made. mDevice is whether the
pointer to the HAL's device is set. -/
structure CameraDevice where
  alive : Bool
  mDevice : Bool
  mDeviceCallback : Option Client
  mMemoryMap : MemoryId → Option ℕ
  mMetadataMode : Bool

def CameraDevice.unmade : CameraDevice := ⟨false, false, none, fun _ => none, false⟩

structure CameraHeapMemory where
  mBufSize : ℕ
  mNumBufs : ℕ
  mId : MemoryId
  mDevice : ℕ
  putBack : Bool

/-- passed: the device has been the user pointer of a set_callbacks. -/
structure State where
  created : ℕ
  devices : ℕ → CameraDevice
  sCameraDevice : Option ℕ
  passed : ℕ → Bool
  allocated : ℕ
  memories : ℕ → CameraHeapMemory

def initial : State where
  created := 0
  devices := fun _ => CameraDevice.unmade
  sCameraDevice := none
  passed := fun _ => false
  allocated := 0
  memories := fun _ => ⟨0, 0, 0, 0, true⟩

structure CameraFace where
  rect : Fin 4 → ℤ
  score : ℤ
  id : ℤ
  leftEye : Fin 2 → ℤ
  rightEye : Fin 2 → ℤ
  mouth : Fin 2 → ℤ

/-- A callback of the HAL without its user pointer. A buffer of a timestamp may hold a native
handle. The id of new memory is what the client answers. -/
inductive HalCall where
  | notify (msgType ext1 ext2 : ℤ)
  | data (msgType : ℤ) (mem index : ℕ) (metadata : Option (List CameraFace))
  | dataTimestamp (timestamp msgType : ℤ) (mem index : ℕ) (handle : Option ℕ)
  | getMemory (bufSize numBufs : ℕ) (id : MemoryId)

inductive ClientCall where
  | notifyCallback (msgType ext1 ext2 : ℤ)
  | dataCallback (msgType : ℤ) (id : MemoryId) (index : ℕ) (faces : List CameraFace)
  | dataCallbackTimestamp (msgType : ℤ) (id : MemoryId) (index : ℕ) (timestamp : ℤ)
  | handleCallbackTimestamp (msgType : ℤ) (handle : ℕ) (id : MemoryId) (index : ℕ) (timestamp : ℤ)
  | registerMemory (bufSize numBufs : ℕ) (id : MemoryId)
  | unregisterMemory (id : MemoryId)

/-- How far open gets: the camera info cannot be had, the HAL does not open the device, or it does,
and has set_callbacks or not. -/
inductive Opening where
  | noInfo | refused | opened (setsCallbacks : Bool)

inductive Event where
  | create
  | open (d : ℕ) (callback : Client) (outcome : Opening)
  | storeMetaData (d : ℕ)
  | close (d : ℕ)
  | destroy (d : ℕ)
  | hal (user : ℕ) (c : HalCall)
  | putMemory (mem : ℕ)

/-- What a step does besides: the devices whose fields it uses, and the calls on clients. -/
structure Effect where
  reached : List ℕ
  calls : List (Client × ClientCall)

def State.setDevice (s : State) (d : ℕ) (device : CameraDevice) : State :=
  { s with devices := Function.update s.devices d device }

/-- A change of what the map of one device holds at one id. -/
def State.setEntry (s : State) (d : ℕ) (id : MemoryId) (mem : Option ℕ) : ℕ → CameraDevice :=
  Function.update s.devices d { s.devices d with
    mMemoryMap := Function.update (s.devices d).mMemoryMap id mem }

/-- The call on the client, where the device has one. -/
def toClient (device : CameraDevice) (c : ClientCall) : List (Client × ClientCall) :=
  match device.mDeviceCallback with
  | none => []
  | some client => [(client, c)]

/-- sNotifyCb, sDataCb, sDataCbTimestamp and sGetMemory for this object. No code sets mBatchSize, so
handles are not batched. -/
def callOn (s : State) (object : ℕ) : HalCall → Effect
  | .notify msgType ext1 ext2 =>
    ⟨[object], toClient (s.devices object) (.notifyCallback msgType ext1 ext2)⟩
  | .data msgType mem index metadata =>
    if index ≥ (s.memories mem).mNumBufs then ⟨[], []⟩
    else
      ⟨[object], toClient (s.devices object)
        (.dataCallback msgType (s.memories mem).mId index (metadata.getD []))⟩
  | .dataTimestamp timestamp msgType mem index handle =>
    if index ≥ (s.memories mem).mNumBufs then ⟨[], []⟩
    else
      ⟨[object], toClient (s.devices object)
        (match if (s.devices object).mMetadataMode then handle else none with
        | none => .dataCallbackTimestamp msgType (s.memories mem).mId index timestamp
        | some handle => .handleCallbackTimestamp msgType handle (s.memories mem).mId index
            timestamp)⟩
  | .getMemory bufSize numBufs id =>
    ⟨[object], toClient (s.devices object) (.registerMemory bufSize numBufs id)⟩

/-- What sGetMemory leaves behind for this object. Without a client it returns no memory. -/
def enterMemory (s : State) (object : ℕ) (bufSize numBufs : ℕ) (id : MemoryId) : State :=
  match (s.devices object).mDeviceCallback with
  | none => s
  | some _ =>
    { s with
      devices := s.setEntry object id (some s.allocated)
      allocated := s.allocated + 1
      memories := Function.update s.memories s.allocated ⟨bufSize, numBufs, id, object, false⟩ }

/-- The callbacks do not look at the user pointer. -/
def halEffect (s : State) (c : HalCall) : Effect :=
  match s.sCameraDevice with
  | none => ⟨[], []⟩
  | some object => callOn s object c

def halNext (s : State) (c : HalCall) : State :=
  match s.sCameraDevice, c with
  | some object, .getMemory bufSize numBufs id => enterMemory s object bufSize numBufs id
  | _, _ => s

/-- sPutMemory, through the device that the memory names. -/
def putEffect (s : State) (mem : ℕ) : Effect :=
  ⟨[(s.memories mem).mDevice],
    toClient (s.devices (s.memories mem).mDevice) (.unregisterMemory (s.memories mem).mId)⟩

def putNext (s : State) (mem : ℕ) : State :=
  let data := s.memories mem
  { s with
    devices := s.setEntry data.mDevice data.mId none
    memories := Function.update s.memories mem { data with putBack := true } }

def openNext (s : State) (d : ℕ) (callback : Client) : Opening → State
  | .noInfo => s
  | .refused => s.setDevice d { s.devices d with mDevice := false }
  | .opened setsCallbacks =>
    { s.setDevice d { s.devices d with mDevice := true, mDeviceCallback := some callback } with
      sCameraDevice := some d
      passed := if setsCallbacks then Function.update s.passed d true else s.passed }

/-- The destructor closes an open device. -/
def next (s : State) : Event → State
  | .create => { s.setDevice s.created ⟨true, false, none, fun _ => none, false⟩ with
      created := s.created + 1 }
  | .open d callback outcome => openNext s d callback outcome
  | .storeMetaData d => s.setDevice d { s.devices d with mMetadataMode := true }
  | .close d => s.setDevice d { s.devices d with mDevice := false }
  | .destroy d => s.setDevice d { s.devices d with alive := false, mDevice := false }
  | .hal _ c => halNext s c
  | .putMemory mem => putNext s mem

/-- Memory that the HAL holds. -/
def State.Held (s : State) (mem : ℕ) : Prop :=
  mem < s.allocated ∧ (s.memories mem).putBack = false

instance (s : State) (mem : ℕ) : Decidable (s.Held mem) := inferInstanceAs (Decidable (_ ∧ _))

/-- The HAL passes on memory that it holds. -/
def HalCall.Holds (s : State) : HalCall → Prop
  | .notify .. => True
  | .data _ mem _ _ => s.Held mem
  | .dataTimestamp _ _ mem _ _ => s.Held mem
  | .getMemory .. => True

instance (s : State) : ∀ c : HalCall, Decidable (c.Holds s)
  | .notify .. => isTrue trivial
  | .data _ mem _ _ => inferInstanceAs (Decidable (s.Held mem))
  | .dataTimestamp _ _ mem _ _ => inferInstanceAs (Decidable (s.Held mem))
  | .getMemory .. => isTrue trivial

/-- Methods are called on devices that exist, callbacks made with pointers that were passed. -/
def Enabled (s : State) : Event → Prop
  | .create => True
  | .open d _ _ => (s.devices d).alive = true
  | .storeMetaData d => (s.devices d).alive = true ∧ (s.devices d).mDevice = true
  | .close d => (s.devices d).alive = true
  | .destroy d => (s.devices d).alive = true
  | .hal user c => s.passed user = true ∧ c.Holds s
  | .putMemory mem => s.Held mem

instance (s : State) : ∀ e : Event, Decidable (Enabled s e)
  | .create => isTrue trivial
  | .open .. => inferInstanceAs (Decidable (_ = _))
  | .storeMetaData _ => inferInstanceAs (Decidable (_ ∧ _))
  | .close _ => inferInstanceAs (Decidable (_ = _))
  | .destroy _ => inferInstanceAs (Decidable (_ = _))
  | .hal .. => inferInstanceAs (Decidable (_ ∧ _))
  | .putMemory mem => inferInstanceAs (Decidable (s.Held mem))

def system : System State Event := ⟨Enabled, next⟩

instance (s : State) (e : Event) : Decidable (system.Enabled s e) :=
  inferInstanceAs (Decidable (Enabled s e))

/-- The frame that releaseRecordingFrame gives to the HAL: the memory, and where in it. -/
def releaseRecordingFrame (s : State) (d : ℕ) (memId : MemoryId) (bufferIndex : ℕ) :
    Option (ℕ × ℕ) :=
  if (s.devices d).mDevice then
    match (s.devices d).mMemoryMap memId with
    | none => none
    | some mem =>
      if bufferIndex ≥ (s.memories mem).mNumBufs then none
      else some (mem, bufferIndex * (s.memories mem).mBufSize)
  else none

/-! ## Routing by the user pointer -/

/-- The calls that the callback is meant to make: those of the device that the HAL was given. -/
def ownCalls (s : State) (user : ℕ) (c : HalCall) : List (Client × ClientCall) :=
  if (s.devices user).alive then (callOn s user c).calls else []

/-- New memory is that of the user pointer's device and stands in its map. -/
def EntersOwn (s : State) (user : ℕ) : HalCall → Prop
  | .getMemory bufSize numBufs id =>
    (halNext s (.getMemory bufSize numBufs id)).memories s.allocated =
        ⟨bufSize, numBufs, id, user, false⟩ ∧
      ((halNext s (.getMemory bufSize numBufs id)).devices user).mMemoryMap id = some s.allocated
  | _ => True

/-- No step reaches a device that has been destroyed, and a callback makes the calls of its own
device and no others. -/
def Routed (s : State) : Event → Prop
  | .hal user c => (∀ d ∈ (halEffect s c).reached, (s.devices d).alive = true) ∧
      (halEffect s c).calls = ownCalls s user c ∧ EntersOwn s user c
  | .putMemory mem => ∀ d ∈ (putEffect s mem).reached, (s.devices d).alive = true
  | _ => True

/-- The device of memory that the HAL holds has it in its map, so that frames of it can be
released while the device is open. -/
def Found (s : State) : Prop :=
  ∀ mem, s.Held mem → (s.devices (s.memories mem).mDevice).alive = true →
    (s.devices (s.memories mem).mDevice).mMemoryMap (s.memories mem).mId = some mem ∧
    ∀ i < (s.memories mem).mNumBufs, (s.devices (s.memories mem).mDevice).mDevice = true →
      releaseRecordingFrame s (s.memories mem).mDevice (s.memories mem).mId i =
        some (mem, i * (s.memories mem).mBufSize)

/-- The callback is dropped for its index. -/
def HalCall.Dropped (s : State) : HalCall → Prop
  | .data _ mem index _ => index ≥ (s.memories mem).mNumBufs
  | .dataTimestamp _ _ mem index _ => index ≥ (s.memories mem).mNumBufs
  | _ => False

/-- The callback comes out the same for both devices. -/
def SameFor (s : State) (object user : ℕ) : HalCall → Prop
  | .dataTimestamp _ _ _ _ handle =>
    (s.devices object).mDeviceCallback = (s.devices user).mDeviceCallback ∧
      (handle ≠ none → (s.devices object).mMetadataMode = (s.devices user).mMetadataMode)
  | .getMemory _ _ id => object = user ∧ (s.devices user).mMemoryMap id = none
  | _ => (s.devices object).mDeviceCallback = (s.devices user).mDeviceCallback

/-- The device opened last and that of the user pointer both exist and the callback comes out the
same for them. Memory that is put back is that of a device that exists. -/
def Guard (s : State) : Event → Prop
  | .hal user c => c.Dropped s ∨ ∃ object, s.sCameraDevice = some object ∧
      (s.devices object).alive = true ∧ (s.devices user).alive = true ∧ SameFor s object user c
  | .putMemory mem => (s.devices (s.memories mem).mDevice).alive = true
  | _ => True

structure Inv (s : State) : Prop where
  unmade : ∀ d, s.created ≤ d → s.devices d = CameraDevice.unmade
  current : ∀ d, s.sCameraDevice = some d → (s.devices d).mDeviceCallback ≠ none
  passed : ∀ d, s.passed d = true → (s.devices d).mDeviceCallback ≠ none ∧ s.sCameraDevice ≠ none
  found : ∀ mem, s.Held mem →
    (s.devices (s.memories mem).mDevice).mMemoryMap (s.memories mem).mId = some mem
  entry : ∀ d id mem, (s.devices d).mMemoryMap id = some mem →
    s.Held mem ∧ (s.memories mem).mDevice = d ∧ (s.memories mem).mId = id

theorem inv_initial : Inv initial := by
  constructor
  · exact fun _ _ => rfl
  · exact fun _ h => nomatch h
  · exact fun _ h => nomatch h
  · exact fun mem h => absurd h.1 (Nat.not_lt_zero mem)
  · exact fun _ _ _ h => nomatch h

variable {s : State}

theorem found_of_map
    (h : ∀ mem, s.Held mem →
      (s.devices (s.memories mem).mDevice).mMemoryMap (s.memories mem).mId = some mem) :
    Found s := by
  intro mem hheld _
  refine ⟨h mem hheld, fun i hi hopen => ?_⟩
  simp [releaseRecordingFrame, hopen, h mem hheld, hi]

theorem Inv.setDevice (h : Inv s) {d created : ℕ} {device : CameraDevice} (hd : d < created)
    (hle : s.created ≤ created) (hmap : device.mMemoryMap = (s.devices d).mMemoryMap)
    (hclient : (s.devices d).mDeviceCallback ≠ none → device.mDeviceCallback ≠ none) :
    Inv { s.setDevice d device with created := created } := by
  have hmaps : ∀ d', (Function.update s.devices d device d').mMemoryMap =
      (s.devices d').mMemoryMap := by
    intro d'
    by_cases hd' : d' = d
    · rw [hd', Function.update_self, hmap]
    · rw [Function.update_of_ne hd']
  have hclients : ∀ d', (s.devices d').mDeviceCallback ≠ none →
      (Function.update s.devices d device d').mDeviceCallback ≠ none := by
    intro d' hd'
    by_cases heq : d' = d
    · subst heq
      rw [Function.update_self]
      exact hclient hd'
    · rwa [Function.update_of_ne heq]
  constructor
  · intro d' hd'
    change Function.update s.devices d device d' = _
    change created ≤ d' at hd'
    rw [Function.update_of_ne (by omega)]
    exact h.unmade d' (hle.trans hd')
  · exact fun d' hd' => hclients d' (h.current d' hd')
  · exact fun d' hd' => ⟨hclients d' (h.passed d' hd').1, (h.passed d' hd').2⟩
  · intro mem hheld
    change (Function.update s.devices d device _).mMemoryMap _ = _
    rw [hmaps]
    exact h.found mem hheld
  · intro d' id mem hentry
    change (Function.update s.devices d device d').mMemoryMap id = _ at hentry
    rw [hmaps] at hentry
    exact h.entry d' id mem hentry

theorem Inv.made (h : Inv s) {d : ℕ} (hd : s.devices d ≠ CameraDevice.unmade) : d < s.created := by
  by_contra hge
  exact hd (h.unmade d (Nat.le_of_not_lt hge))

theorem Inv.alive_made (h : Inv s) {d : ℕ} (hd : (s.devices d).alive = true) : d < s.created := by
  apply h.made
  intro heq
  rw [heq] at hd
  cases hd

theorem setEntry_client (d : ℕ) (id : MemoryId) (mem : Option ℕ) (d' : ℕ) :
    (s.setEntry d id mem d').mDeviceCallback = (s.devices d').mDeviceCallback := by
  by_cases hd : d' = d
  · rw [State.setEntry, hd, Function.update_self]
  · rw [State.setEntry, Function.update_of_ne hd]

theorem setEntry_alive (d : ℕ) (id : MemoryId) (mem : Option ℕ) (d' : ℕ) :
    (s.setEntry d id mem d').alive = (s.devices d').alive := by
  by_cases hd : d' = d
  · rw [State.setEntry, hd, Function.update_self]
  · rw [State.setEntry, Function.update_of_ne hd]

theorem setEntry_self (d : ℕ) (id : MemoryId) (mem : Option ℕ) :
    (s.setEntry d id mem d).mMemoryMap id = mem := by
  simp [State.setEntry]

theorem setEntry_of_ne {d d' : ℕ} {id id' : MemoryId} (h : d' ≠ d ∨ id' ≠ id) (mem : Option ℕ) :
    (s.setEntry d id mem d').mMemoryMap id' = (s.devices d').mMemoryMap id' := by
  by_cases hd : d' = d
  · have hid := h.resolve_left (not_not.mpr hd)
    simp [State.setEntry, hd, Function.update_of_ne hid]
  · rw [State.setEntry, Function.update_of_ne hd]

theorem Inv.setEntry (h : Inv s) {s' : State} {d : ℕ} {id : MemoryId} {mem : Option ℕ}
    (hd : d < s.created) (hcreated : s'.created = s.created)
    (hdevices : s'.devices = s.setEntry d id mem) (hcurrent : s'.sCameraDevice = s.sCameraDevice)
    (hpassed : s'.passed = s.passed)
    (found : ∀ mem', s'.Held mem' →
      (s'.devices (s'.memories mem').mDevice).mMemoryMap (s'.memories mem').mId = some mem')
    (entry : ∀ d' id' mem', (s'.devices d').mMemoryMap id' = some mem' →
      s'.Held mem' ∧ (s'.memories mem').mDevice = d' ∧ (s'.memories mem').mId = id') : Inv s' := by
  have hclient : ∀ d', (s'.devices d').mDeviceCallback = (s.devices d').mDeviceCallback := by
    intro d'
    rw [hdevices, setEntry_client]
  refine ⟨?_, ?_, ?_, found, entry⟩
  · intro d' hd'
    rw [hcreated] at hd'
    rw [hdevices, State.setEntry, Function.update_of_ne (by omega)]
    exact h.unmade d' hd'
  · intro d' hd'
    rw [hcurrent] at hd'
    rw [hclient]
    exact h.current d' hd'
  · intro d' hd'
    rw [hpassed] at hd'
    rw [hclient, hcurrent]
    exact h.passed d' hd'

theorem enterMemory_eq {d : ℕ} (h : (s.devices d).mDeviceCallback ≠ none) (bufSize numBufs : ℕ)
    (id : MemoryId) :
    enterMemory s d bufSize numBufs id =
      { s with
        devices := s.setEntry d id (some s.allocated)
        allocated := s.allocated + 1
        memories := Function.update s.memories s.allocated ⟨bufSize, numBufs, id, d, false⟩ } := by
  obtain ⟨client, hclient⟩ := Option.ne_none_iff_exists'.mp h
  simp only [enterMemory, hclient]

theorem inv_enterMemory (h : Inv s) {d : ℕ} (hclient : (s.devices d).mDeviceCallback ≠ none)
    (bufSize numBufs : ℕ) {id : MemoryId} (hnew : (s.devices d).mMemoryMap id = none) :
    Inv (enterMemory s d bufSize numBufs id) := by
  have hmade : d < s.created := h.made fun heq => hclient (by rw [heq]; rfl)
  have hother : ∀ mem < s.allocated,
      Function.update s.memories s.allocated ⟨bufSize, numBufs, id, d, false⟩ mem = s.memories mem :=
    fun mem hmem => Function.update_of_ne hmem.ne ..
  have hheld : ∀ mem, s.Held mem → (enterMemory s d bufSize numBufs id).Held mem := by
    intro mem hmem
    rw [enterMemory_eq hclient]
    refine ⟨Nat.lt_succ_of_lt hmem.1, ?_⟩
    change (Function.update s.memories s.allocated _ mem).putBack = false
    rw [hother mem hmem.1]
    exact hmem.2
  rw [enterMemory_eq hclient] at hheld ⊢
  refine h.setEntry hmade rfl rfl rfl rfl ?_ ?_
  · rintro mem ⟨hlt, hput⟩
    change mem < s.allocated + 1 at hlt
    by_cases hmem : mem = s.allocated
    · subst hmem
      simp only [Function.update_self]
      exact setEntry_self d id _
    · have hold : mem < s.allocated := by omega
      simp only [hother mem hold] at hput ⊢
      have hfound := h.found mem ⟨hold, hput⟩
      rw [setEntry_of_ne, hfound]
      by_contra hsame
      push Not at hsame
      rw [hsame.1, hsame.2, hnew] at hfound
      cases hfound
  · intro d' id' mem hentry
    change (s.setEntry d id _ d').mMemoryMap id' = _ at hentry
    by_cases hplace : d' = d ∧ id' = id
    · obtain ⟨rfl, rfl⟩ := hplace
      rw [setEntry_self] at hentry
      cases hentry
      refine ⟨⟨Nat.lt_succ_self _, ?_⟩, ?_, ?_⟩ <;> simp only [Function.update_self]
    · rw [setEntry_of_ne (not_and_or.mp hplace)] at hentry
      obtain ⟨hmem, hdevice, hid⟩ := h.entry d' id' mem hentry
      refine ⟨hheld mem hmem, ?_⟩
      simp only [hother mem hmem.1]
      exact ⟨hdevice, hid⟩

theorem inv_putNext (h : Inv s) {mem : ℕ} (hheld : s.Held mem) : Inv (putNext s mem) := by
  have hfound := h.found mem hheld
  have hmade : (s.memories mem).mDevice < s.created := by
    apply h.made
    intro heq
    rw [heq] at hfound
    cases hfound
  have hmemory : ∀ mem' ≠ mem, Function.update s.memories mem
      { s.memories mem with putBack := true } mem' = s.memories mem' :=
    fun mem' hne => Function.update_of_ne hne ..
  simp only [putNext]
  refine h.setEntry hmade rfl rfl rfl rfl ?_ ?_
  · rintro mem' ⟨hlt, hput⟩
    by_cases hmem : mem' = mem
    · subst hmem
      simp only [Function.update_self] at hput
      cases hput
    · simp only [hmemory mem' hmem] at hput ⊢
      have hfound' := h.found mem' ⟨hlt, hput⟩
      rw [setEntry_of_ne, hfound']
      by_contra hsame
      push Not at hsame
      rw [hsame.1, hsame.2, hfound] at hfound'
      exact hmem (Option.some.inj hfound').symm
  · intro d id mem' hentry
    change (s.setEntry _ _ _ d).mMemoryMap id = _ at hentry
    by_cases hplace : d = (s.memories mem).mDevice ∧ id = (s.memories mem).mId
    · obtain ⟨rfl, rfl⟩ := hplace
      rw [setEntry_self] at hentry
      cases hentry
    · rw [setEntry_of_ne (not_and_or.mp hplace)] at hentry
      obtain ⟨hmem', hdevice, hid⟩ := h.entry d id mem' hentry
      have hne : mem' ≠ mem := by
        rintro rfl
        exact hplace ⟨hdevice.symm, hid.symm⟩
      refine ⟨⟨hmem'.1, ?_⟩, ?_, ?_⟩ <;> simp only [hmemory mem' hne]
      · exact hmem'.2
      · exact hdevice
      · exact hid

theorem Inv.setCurrent (h : Inv s) {d : ℕ} (hclient : (s.devices d).mDeviceCallback ≠ none)
    (setsCallbacks : Bool) :
    Inv { s with
      sCameraDevice := some d
      passed := if setsCallbacks then Function.update s.passed d true else s.passed } := by
  constructor
  · exact h.unmade
  · rintro d' ⟨⟩
    exact hclient
  · intro d' hd'
    refine ⟨?_, Option.some_ne_none d⟩
    by_cases heq : d' = d
    · rwa [heq]
    · refine (h.passed d' ?_).1
      cases setsCallbacks with
      | false => exact hd'
      | true =>
        simp only [if_true, Function.update_of_ne heq] at hd'
        exact hd'
  · exact h.found
  · exact h.entry

theorem halNext_same {c : HalCall}
    (h : ∀ bufSize numBufs id, c ≠ .getMemory bufSize numBufs id) :
    halNext s c = s := by
  cases c with
  | getMemory bufSize numBufs id => exact absurd rfl (h bufSize numBufs id)
  | _ => cases hs : s.sCameraDevice <;> simp [halNext, hs]

theorem inv_next (h : Inv s) {e : Event} (enabled : Enabled s e) (guard : Guard s e) :
    Inv (next s e) := by
  cases e with
  | create =>
    refine h.setDevice (Nat.lt_succ_self _) (Nat.le_succ _) ?_ ?_
    · rw [h.unmade _ le_rfl]
      rfl
    · rw [h.unmade _ le_rfl]
      exact id
  | «open» d callback outcome =>
    have hmade := h.alive_made enabled
    cases outcome with
    | noInfo => exact h
    | refused => exact h.setDevice hmade le_rfl rfl id
    | opened setsCallbacks =>
      have hset : Inv (s.setDevice d { s.devices d with
          mDevice := true, mDeviceCallback := some callback }) :=
        h.setDevice hmade le_rfl rfl fun _ => Option.some_ne_none _
      refine hset.setCurrent (d := d) ?_ setsCallbacks
      simp [State.setDevice]
  | storeMetaData d => exact h.setDevice (h.alive_made enabled.1) le_rfl rfl id
  | close d => exact h.setDevice (h.alive_made enabled) le_rfl rfl id
  | destroy d => exact h.setDevice (h.alive_made enabled) le_rfl rfl id
  | hal user c =>
    cases c with
    | getMemory bufSize numBufs id =>
      obtain ⟨object, hobject, -, -, rfl, hnew⟩ := guard.resolve_left fun hfalse => hfalse
      simp only [next, halNext, hobject]
      exact inv_enterMemory h (h.current object hobject) bufSize numBufs hnew
    | _ =>
      rw [next, halNext_same (by rintro _ _ _ ⟨⟩)]
      exact h
  | putMemory mem => exact inv_putNext h enabled

theorem Inv.found_all (h : Inv s) : Found s := found_of_map h.found

/-! ## Exactly the guarded steps -/

theorem toClient_eq_iff {a b : CameraDevice} (ha : a.mDeviceCallback ≠ none)
    (hb : b.mDeviceCallback ≠ none) (c c' : ClientCall) :
    toClient a c = toClient b c' ↔ a.mDeviceCallback = b.mDeviceCallback ∧ c = c' := by
  obtain ⟨client, hclient⟩ := Option.ne_none_iff_exists'.mp ha
  obtain ⟨client', hclient'⟩ := Option.ne_none_iff_exists'.mp hb
  simp [toClient, hclient, hclient']

theorem toClient_ne_nil {device : CameraDevice} (h : device.mDeviceCallback ≠ none)
    (c : ClientCall) : toClient device c ≠ [] := by
  obtain ⟨client, hclient⟩ := Option.ne_none_iff_exists'.mp h
  simp [toClient, hclient]

theorem callOn_dropped {c : HalCall} (h : c.Dropped s) (object : ℕ) :
    callOn s object c = ⟨[], []⟩ := by
  cases c with
  | notify => exact h.elim
  | data => exact if_pos h
  | dataTimestamp => exact if_pos h
  | getMemory => exact h.elim

theorem callOn_data {mem index : ℕ} (h : ¬ index ≥ (s.memories mem).mNumBufs) (object : ℕ)
    (msgType : ℤ) (metadata : Option (List CameraFace)) :
    callOn s object (.data msgType mem index metadata) =
      ⟨[object], toClient (s.devices object)
        (.dataCallback msgType (s.memories mem).mId index (metadata.getD []))⟩ :=
  if_neg h

theorem callOn_dataTimestamp {mem index : ℕ} (h : ¬ index ≥ (s.memories mem).mNumBufs)
    (object : ℕ) (timestamp msgType : ℤ) (handle : Option ℕ) :
    callOn s object (.dataTimestamp timestamp msgType mem index handle) =
      ⟨[object], toClient (s.devices object)
        (match if (s.devices object).mMetadataMode then handle else none with
        | none => .dataCallbackTimestamp msgType (s.memories mem).mId index timestamp
        | some handle => .handleCallbackTimestamp msgType handle (s.memories mem).mId index
            timestamp)⟩ :=
  if_neg h

theorem callOn_reached {c : HalCall} (h : ¬ c.Dropped s) (object : ℕ) :
    (callOn s object c).reached = [object] := by
  cases c with
  | notify => rfl
  | data => rw [callOn_data h]
  | dataTimestamp => rw [callOn_dataTimestamp h]
  | getMemory => rfl

theorem callOn_ne_nil {c : HalCall} (h : ¬ c.Dropped s) {object : ℕ}
    (hclient : (s.devices object).mDeviceCallback ≠ none) : (callOn s object c).calls ≠ [] := by
  cases c with
  | notify => exact toClient_ne_nil hclient _
  | data =>
    rw [callOn_data h]
    exact toClient_ne_nil hclient _
  | dataTimestamp =>
    rw [callOn_dataTimestamp h]
    exact toClient_ne_nil hclient _
  | getMemory => exact toClient_ne_nil hclient _

/-- Two devices make the same calls if they have the same client and, for a buffer with a handle,
are in the same mode. -/
theorem callOn_calls_eq_iff {c : HalCall} (h : ¬ c.Dropped s) {object user : ℕ}
    (hobject : (s.devices object).mDeviceCallback ≠ none)
    (huser : (s.devices user).mDeviceCallback ≠ none)
    (hmemory : ∀ bufSize numBufs id, c ≠ .getMemory bufSize numBufs id) :
    (callOn s object c).calls = (callOn s user c).calls ↔ SameFor s object user c := by
  cases c with
  | notify => simp [callOn, toClient_eq_iff hobject huser, SameFor]
  | data =>
    rw [callOn_data h, callOn_data h]
    simp [toClient_eq_iff hobject huser, SameFor]
  | dataTimestamp timestamp msgType mem index handle =>
    rw [callOn_dataTimestamp h, callOn_dataTimestamp h]
    change toClient _ _ = toClient _ _ ↔ _ ∧ _
    rw [toClient_eq_iff hobject huser]
    refine and_congr_right fun _ => ?_
    cases handle with
    | none => simp
    | some handle =>
      cases (s.devices object).mMetadataMode <;> cases (s.devices user).mMetadataMode <;> simp
  | getMemory bufSize numBufs id => exact absurd rfl (hmemory bufSize numBufs id)

theorem halEffect_of_current {object : ℕ} (h : s.sCameraDevice = some object) (c : HalCall) :
    halEffect s c = callOn s object c := by
  rw [halEffect, h]

theorem halEffect_dropped {c : HalCall} (h : c.Dropped s) : halEffect s c = ⟨[], []⟩ := by
  cases hs : s.sCameraDevice with
  | none => rw [halEffect, hs]
  | some object => rw [halEffect_of_current hs, callOn_dropped h]

theorem ownCalls_of_alive {user : ℕ} (h : (s.devices user).alive = true) (c : HalCall) :
    ownCalls s user c = (callOn s user c).calls :=
  if_pos h

theorem ownCalls_dropped {c : HalCall} (h : c.Dropped s) (user : ℕ) : ownCalls s user c = [] := by
  rw [ownCalls, callOn_dropped h, ite_self]

theorem entersOwn_of_ne {c : HalCall} (h : ∀ bufSize numBufs id, c ≠ .getMemory bufSize numBufs id)
    (user : ℕ) : EntersOwn s user c := by
  cases c with
  | getMemory bufSize numBufs id => exact absurd rfl (h bufSize numBufs id)
  | _ => trivial

theorem entersOwn_iff {object : ℕ} (hobject : s.sCameraDevice = some object)
    (hclient : (s.devices object).mDeviceCallback ≠ none) (user bufSize numBufs : ℕ)
    (id : MemoryId) : EntersOwn s user (.getMemory bufSize numBufs id) ↔ object = user := by
  simp only [EntersOwn, halNext, hobject, enterMemory_eq hclient, Function.update_self]
  constructor
  · rintro ⟨hmem, -⟩
    injection hmem
  · rintro rfl
    exact ⟨rfl, setEntry_self object id _⟩

/-- An id that the map already has hides the memory that it stood for. -/
theorem new_of_found (h : Inv s) {d : ℕ} (hclient : (s.devices d).mDeviceCallback ≠ none)
    (halive : (s.devices d).alive = true) {bufSize numBufs : ℕ} {id : MemoryId}
    (found : Found (enterMemory s d bufSize numBufs id)) : (s.devices d).mMemoryMap id = none := by
  by_contra hold
  obtain ⟨mem, hmem⟩ := Option.ne_none_iff_exists'.mp hold
  obtain ⟨hheld, rfl, rfl⟩ := h.entry d id mem hmem
  have hne : mem ≠ s.allocated := hheld.1.ne
  rw [enterMemory_eq hclient] at found
  have hfound := found mem
  simp only [State.Held, Function.update_of_ne hne, setEntry_alive, setEntry_self] at hfound
  have hentry := (hfound ⟨Nat.lt_succ_of_lt hheld.1, hheld.2⟩ halive).1
  exact hne (Option.some.inj hentry).symm

theorem routed_dropped {c : HalCall} (hdrop : c.Dropped s) (user : ℕ) : Routed s (.hal user c) := by
  refine ⟨?_, ?_, entersOwn_of_ne ?_ user⟩
  · rw [halEffect_dropped hdrop]
    exact fun d hd => nomatch hd
  · rw [halEffect_dropped hdrop, ownCalls_dropped hdrop]
  · rintro bufSize numBufs id rfl
    exact hdrop

theorem Inv.object (h : Inv s) {user : ℕ} (hpassed : s.passed user = true) :
    ∃ object, s.sCameraDevice = some object ∧ (s.devices object).mDeviceCallback ≠ none := by
  obtain ⟨object, hobject⟩ := Option.ne_none_iff_exists'.mp (h.passed user hpassed).2
  exact ⟨object, hobject, h.current object hobject⟩

theorem guard_of_routed (h : Inv s) {user : ℕ} {c : HalCall} (hpassed : s.passed user = true)
    (routed : Routed s (.hal user c)) (found : Found (halNext s c)) : Guard s (.hal user c) := by
  by_cases hdrop : c.Dropped s
  · exact Or.inl hdrop
  obtain ⟨object, hobject, hclient⟩ := h.object hpassed
  obtain ⟨hreached, hcalls, henters⟩ := routed
  rw [halEffect_of_current hobject] at hreached hcalls
  have halive : (s.devices object).alive = true := by
    rw [callOn_reached hdrop] at hreached
    exact hreached object (List.mem_singleton.mpr rfl)
  have huser : (s.devices user).alive = true := by
    by_contra hdead
    rw [ownCalls, if_neg hdead] at hcalls
    exact callOn_ne_nil hdrop hclient hcalls
  rw [ownCalls_of_alive huser] at hcalls
  refine Or.inr ⟨object, hobject, halive, huser, ?_⟩
  cases c with
  | getMemory bufSize numBufs id =>
    obtain rfl := (entersOwn_iff hobject hclient user bufSize numBufs id).mp henters
    simp only [halNext, hobject] at found
    exact ⟨rfl, new_of_found h hclient halive found⟩
  | _ =>
    exact (callOn_calls_eq_iff hdrop hclient (h.passed user hpassed).1
      (by rintro _ _ _ ⟨⟩)).mp hcalls

theorem routed_of_guard (h : Inv s) {user : ℕ} {c : HalCall} (hpassed : s.passed user = true)
    (guard : Guard s (.hal user c)) : Routed s (.hal user c) := by
  by_cases hdrop : c.Dropped s
  · exact routed_dropped hdrop user
  obtain ⟨object, hobject, halive, huser, same⟩ := guard.resolve_left hdrop
  have hclient := h.current object hobject
  refine ⟨?_, ?_, ?_⟩
  · rw [halEffect_of_current hobject, callOn_reached hdrop]
    intro d hd
    rwa [List.mem_singleton.mp hd]
  · rw [halEffect_of_current hobject, ownCalls_of_alive huser]
    cases c with
    | getMemory bufSize numBufs id => rw [same.1]
    | _ =>
      exact (callOn_calls_eq_iff hdrop hclient (h.passed user hpassed).1
        (by rintro _ _ _ ⟨⟩)).mpr same
  · cases c with
    | getMemory bufSize numBufs id =>
      exact (entersOwn_iff hobject hclient user bufSize numBufs id).mpr same.1
    | _ => trivial

theorem exact_guard (h : Inv s) {e : Event} (enabled : Enabled s e) :
    (Routed s e ∧ Found (next s e)) ↔ Guard s e := by
  constructor
  · rintro ⟨routed, found⟩
    cases e with
    | hal user c => exact guard_of_routed h enabled.1 routed found
    | putMemory mem => exact routed _ (List.mem_singleton.mpr rfl)
    | _ => trivial
  · intro guard
    refine ⟨?_, (inv_next h enabled guard).found_all⟩
    cases e with
    | hal user c => exact routed_of_guard h enabled.1 guard
    | putMemory mem =>
      intro d hd
      rw [List.mem_singleton.mp hd]
      exact guard
    | _ => trivial

/-- In a run from the start, every callback comes out as that of the device that the HAL was given
and all memory is found until it is put back exactly when every step is guarded. -/
theorem routed_along_iff {es : List Event} (legal : system.Legal initial es) :
    system.Along (fun s e => Routed s e ∧ Found (next s e)) initial es ↔
      system.Along Guard initial es :=
  along_iff_guarded system (I := Inv) (fun _ _ h enabled guard => inv_next h enabled guard)
    (fun _ _ h enabled => exact_guard h enabled) inv_initial legal

/-- One device is made and opened, hands out memory and gets it back. -/
def oneDevice : List Event :=
  [.create, .open 0 10 (.opened true), .hal 0 (.getMemory 16 2 5), .putMemory 0]

theorem routed_along_oneDevice :
    system.Along (fun s e => Routed s e ∧ Found (next s e)) initial oneDevice ↔
      system.Along Guard initial oneDevice :=
  routed_along_iff (by decide)

/-- The client of the device opened second gets what the HAL notifies for the first. -/
theorem notified_other_client : ¬ ∀ es : List Event, system.Legal initial es →
    system.Along (fun s e => Routed s e ∧ Found (next s e)) initial es := by
  intro h
  have hrun := h [.create, .create, .open 0 10 (.opened true), .open 1 11 (.opened true),
    .hal 0 (.notify 1 0 0)] (by decide)
  obtain ⟨-, -, -, -, ⟨⟨-, hcalls, -⟩, -⟩, -⟩ := hrun
  cases hcalls

end CameraCallbacks
