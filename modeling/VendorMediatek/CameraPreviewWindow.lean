import VendorMediatek.HandleLeaves
import VendorMediatek.LabelledRuns
import VendorMediatek.SortedMaps

/-!
# The preview window of a camera

CameraDevice::CameraPreviewWindow: the buffers of the client's preview window as the camera HAL sees
them. A buffer is imported at the first dequeue of its id and kept in a slot whose address the HAL
gives back; the slots are dropped when the HAL asks for other buffers.
-/

namespace CameraPreviewWindow

open LabelledRuns

/-- The callback interface that a client has set. -/
abbrev Window := ℕ
abbrev BufferId := ℕ

/-- The address of a slot, a buffer_handle_t*. -/
abbrev Addr := ℕ

/-- What importBuffer gives: a handle of its own on a buffer of a window. -/
structure Imported where
  handle : ℕ
  buffer : ℕ
  deriving DecidableEq

structure Slot where
  address : Addr
  imported : Imported
  deriving DecidableEq

/-- What has been done with the importer is kept, and what the windows have shown as the buffers of
their ids since the HAL last asked for other buffers. -/
structure State where
  mPreviewCallback : Option Window
  mCirculatingBuffers : List (BufferId × Slot)
  mBufferIdMap : List (Addr × BufferId)
  importer : List (Handles.Event Imported)
  shown : List (Window × BufferId × ℕ)
  alive : Bool

def initial : State := ⟨none, [], [], [], [], true⟩

/-- What dequeueBuffer answers: a status other than OK, or the id of a buffer. importBuffer may fail;
otherwise it gives the handle. The address is where the map makes a new slot. -/
inductive Answer where
  | fails
  | dequeued (bufferId : BufferId) (buffer : ℕ) (handle : Option ℕ) (address : Addr)
  deriving DecidableEq

/-- sSetBufferCount, sSetBuffersGeometry and sSetUsage ask for other buffers. -/
inductive Event where
  | setPreviewWindow (window : Option Window)
  | dequeue (answer : Answer)
  | enqueue (buffer : Addr)
  | cancel (buffer : Addr)
  | otherBuffers
  | destroy
  deriving DecidableEq

/-- cleanUpCirculatingBuffers. -/
def State.cleanUpCirculatingBuffers (s : State) : State :=
  { s with
    mCirculatingBuffers := []
    mBufferIdMap := []
    importer := s.importer ++ s.mCirculatingBuffers.map fun p => .closed p.2.imported }

/-- A slot for a buffer that is not circulating. -/
def State.addSlot (s : State) (bufferId : BufferId) (slot : Slot) : State :=
  { s with
    mCirculatingBuffers := SortedMaps.put bufferId slot s.mCirculatingBuffers
    mBufferIdMap := SortedMaps.put slot.address bufferId s.mBufferIdMap
    importer := s.importer ++ [.opened slot.imported] }

def State.show (s : State) (window : Window) (bufferId : BufferId) (buffer : ℕ) : State :=
  { s with shown := (window, bufferId, buffer) :: s.shown }

/-- sDequeueBuffer. -/
def dequeueNext (s : State) (window : Window) : Answer → State
  | .fails => s
  | .dequeued bufferId buffer handle address =>
    let s := s.show window bufferId buffer
    match SortedMaps.get bufferId s.mCirculatingBuffers, handle with
    | some _, _ => s
    | none, some handle => s.addSlot bufferId ⟨address, handle, buffer⟩
    | none, none => s

/-- The slot whose address sDequeueBuffer writes to the HAL. -/
def dequeued (s : State) (answer : Answer) : Option Slot :=
  match s.mPreviewCallback, answer with
  | some window, .dequeued bufferId _ _ _ =>
    SortedMaps.get bufferId (dequeueNext s window answer).mCirculatingBuffers
  | _, _ => none

/-- The id that sEnqueueBuffer and sCancelBuffer give to the window. at throws where there is none. -/
def bufferIdOf (s : State) (buffer : Addr) : Option BufferId := SortedMaps.get buffer s.mBufferIdMap

def next (s : State) : Event → State
  | .setPreviewWindow window => { s with mPreviewCallback := window }
  | .dequeue answer =>
    match s.mPreviewCallback with
    | none => s
    | some window => dequeueNext s window answer
  | .enqueue _ | .cancel _ => s
  | .otherBuffers =>
    match s.mPreviewCallback with
    | none => s
    | some _ => { s.cleanUpCirculatingBuffers with shown := [] }
  | .destroy => { s.cleanUpCirculatingBuffers with alive := false }

/-- A window shows one buffer for an id. A new slot is where no other is, and an imported handle is
none of those still held. -/
def Answer.Fits (s : State) (window : Window) : Answer → Prop
  | .fails => True
  | .dequeued bufferId buffer handle address =>
    (∀ shown, (window, bufferId, shown) ∈ s.shown → shown = buffer) ∧
      (∀ p ∈ s.mCirculatingBuffers, p.2.address ≠ address) ∧
      ∀ h ∈ handle, ∀ p ∈ s.mCirculatingBuffers, p.2.imported.handle ≠ h

/-- A buffer comes back to the HAL's window only where at finds it. -/
def Enabled (s : State) : Event → Prop
  | .dequeue answer => s.alive = true ∧ ∀ window ∈ s.mPreviewCallback, answer.Fits s window
  | .enqueue buffer | .cancel buffer =>
    s.alive = true ∧ (s.mPreviewCallback ≠ none → (bufferIdOf s buffer).isSome)
  | _ => s.alive = true

def system : System State Event := ⟨Enabled, next⟩

instance (s : State) (window : Window) (bufferId : BufferId) (buffer : ℕ) :
    Decidable (∀ shown, (window, bufferId, shown) ∈ s.shown → shown = buffer) :=
  decidable_of_iff (∀ t ∈ s.shown, t.1 = window → t.2.1 = bufferId → t.2.2 = buffer)
    ⟨fun h _ hshown => h _ hshown rfl rfl, fun h t ht hw hid => h t.2.2 (hw ▸ hid ▸ ht)⟩

instance (s : State) (window : Window) (answer : Answer) : Decidable (answer.Fits s window) := by
  cases answer <;> simp only [Answer.Fits] <;> infer_instance

instance (s : State) (e : Event) : Decidable (system.Enabled s e) := by
  cases e <;> simp only [system, Enabled] <;> infer_instance

/-! ## What is kept -/

/-- The id map goes from the address of a slot to its id. The importer's open handles are those of
the slots. -/
structure Inv (s : State) : Prop where
  buffers : SortedMaps.Sorted s.mCirculatingBuffers
  ids : SortedMaps.Sorted s.mBufferIdMap
  inverse : ∀ address bufferId, bufferIdOf s address = some bufferId ↔
    ∃ slot, SortedMaps.get bufferId s.mCirculatingBuffers = some slot ∧ slot.address = address
  held : Handles.Leaves s.importer (s.mCirculatingBuffers.map fun p => p.2.imported)

theorem inv_initial : Inv initial :=
  ⟨SortedMaps.sorted_nil, SortedMaps.sorted_nil, by simp [initial, bufferIdOf], Handles.leaves_nil⟩

theorem leaves_cleanUp {s : State} (h : Inv s) :
    Handles.Leaves s.cleanUpCirculatingBuffers.importer [] := by
  have hmap : (s.mCirculatingBuffers.map fun p => Handles.Event.closed p.2.imported) =
      (s.mCirculatingBuffers.map fun p => p.2.imported).map .closed := by
    rw [List.map_map]
    rfl
  rw [State.cleanUpCirculatingBuffers, hmap]
  exact Handles.Leaves.closed (by rw [List.append_nil]; exact h.held)

theorem inv_cleanUp {s : State} (h : Inv s) : Inv s.cleanUpCirculatingBuffers :=
  ⟨SortedMaps.sorted_nil, SortedMaps.sorted_nil,
    by simp [State.cleanUpCirculatingBuffers, bufferIdOf], leaves_cleanUp h⟩

theorem inv_addSlot {s : State} (h : Inv s) {bufferId : BufferId} {slot : Slot}
    (hnew : SortedMaps.get bufferId s.mCirculatingBuffers = none)
    (haddr : ∀ p ∈ s.mCirculatingBuffers, p.2.address ≠ slot.address) :
    Inv (s.addSlot bufferId slot) := by
  have hunmapped : bufferIdOf s slot.address = none := by
    refine Option.eq_none_iff_forall_ne_some.mpr fun other hother => ?_
    obtain ⟨slot', hslot, hsame⟩ := (h.inverse _ _).mp hother
    exact haddr _ (SortedMaps.mem_of_get hslot) hsame
  refine ⟨h.buffers.put _ _, h.ids.put _ _, fun address other => ?_, ?_⟩
  · rw [State.addSlot, bufferIdOf, SortedMaps.get_put h.ids]
    simp only [SortedMaps.get_put h.buffers]
    split
    · next hsame =>
      subst hsame
      constructor
      · rintro ⟨⟩
        exact ⟨slot, if_pos rfl, rfl⟩
      · rintro ⟨slot', hslot, hsame⟩
        split at hslot
        · next heq => rw [heq]
        · exact absurd hsame (haddr _ (SortedMaps.mem_of_get hslot))
    · next hne =>
      have hinv := h.inverse address other
      unfold bufferIdOf at hinv
      rw [hinv]
      refine exists_congr fun slot' => and_congr_left fun hsame => ?_
      split
      · next heq =>
        subst heq
        refine iff_of_false (by rw [hnew]; nofun) ?_
        rintro ⟨⟩
        exact hne hsame.symm
      · exact Iff.rfl
  · have hput := (SortedMaps.perm_put hnew slot).map fun p => p.2.imported
    exact (h.held.opened [slot.imported]).perm hput.symm

/-- What a dequeue does: nothing to the slots, or a new one at an address of its own. -/
theorem dequeueNext_cases {s : State} {window : Window} {answer : Answer}
    (hfits : answer.Fits s window) :
    (dequeueNext s window answer).mCirculatingBuffers = s.mCirculatingBuffers ∧
        (dequeueNext s window answer).mBufferIdMap = s.mBufferIdMap ∧
        (dequeueNext s window answer).importer = s.importer ∨
      ∃ bufferId buffer handle address,
        answer = .dequeued bufferId buffer (some handle) address ∧
        SortedMaps.get bufferId s.mCirculatingBuffers = none ∧
        (∀ p ∈ s.mCirculatingBuffers, p.2.address ≠ address) ∧
        dequeueNext s window answer =
          (s.show window bufferId buffer).addSlot bufferId ⟨address, handle, buffer⟩ := by
  cases answer with
  | fails => exact .inl ⟨rfl, rfl, rfl⟩
  | dequeued bufferId buffer handle address =>
    have hget : ∀ o, SortedMaps.get bufferId (s.show window bufferId buffer).mCirculatingBuffers = o ↔
        SortedMaps.get bufferId s.mCirculatingBuffers = o := fun _ => Iff.rfl
    simp only [dequeueNext]
    split
    · exact .inl ⟨rfl, rfl, rfl⟩
    · next hnew =>
      exact .inr ⟨bufferId, buffer, _, address, rfl, (hget none).mp hnew, hfits.2.1, rfl⟩
    · exact .inl ⟨rfl, rfl, rfl⟩

theorem inv_of_same {s t : State} (h : Inv s)
    (hbuffers : t.mCirculatingBuffers = s.mCirculatingBuffers)
    (hids : t.mBufferIdMap = s.mBufferIdMap) (himporter : t.importer = s.importer) : Inv t := by
  obtain ⟨_, ids, held, _, _⟩ := t
  cases hbuffers
  cases hids
  cases himporter
  exact ⟨h.buffers, h.ids, h.inverse, h.held⟩

theorem inv_dequeue {s : State} {window : Window} {answer : Answer} (h : Inv s)
    (hfits : answer.Fits s window) : Inv (dequeueNext s window answer) := by
  rcases dequeueNext_cases hfits with ⟨hbuffers, hids, himporter⟩ |
    ⟨bufferId, buffer, handle, address, -, hnew, haddr, heq⟩
  · exact inv_of_same h hbuffers hids himporter
  · have hshow : Inv (s.show window bufferId buffer) := inv_of_same h rfl rfl rfl
    rw [heq]
    exact inv_addSlot hshow hnew haddr

theorem inv_step (s : State) (e : Event) (h : Inv s) (he : Enabled s e) : Inv (next s e) := by
  cases e with
  | setPreviewWindow window => exact inv_of_same h rfl rfl rfl
  | dequeue answer =>
    cases hwindow : s.mPreviewCallback with
    | none =>
      simp only [next, hwindow]
      exact h
    | some window =>
      simp only [next, hwindow]
      exact inv_dequeue h (he.2 window hwindow)
  | enqueue buffer => exact h
  | cancel buffer => exact h
  | otherBuffers =>
    simp only [next]
    split
    · exact h
    · exact inv_of_same (inv_cleanUp h) rfl rfl rfl
  | destroy => exact inv_of_same (inv_cleanUp h) rfl rfl rfl

theorem inv_run {es : List Event} (legal : system.Legal initial es) : Inv (system.run initial es) :=
  invariant_legal system inv_step inv_initial legal

/-- A device that is gone has freed what it imported. -/
def FreedAtEnd (s : State) : Prop := s.alive = false → Handles.Settled s.importer

theorem alive_of_enabled {s : State} {e : Event} (he : Enabled s e) : s.alive = true := by
  cases e with
  | dequeue answer => exact he.1
  | enqueue buffer => exact he.1
  | cancel buffer => exact he.1
  | _ => exact he

theorem dequeueNext_alive (s : State) (window : Window) (answer : Answer) :
    (dequeueNext s window answer).alive = s.alive := by
  cases answer with
  | fails => rfl
  | dequeued bufferId buffer handle address =>
    simp only [dequeueNext]
    split <;> rfl

theorem alive_step {s : State} {e : Event} (he : Enabled s e) (hne : e ≠ .destroy) :
    (next s e).alive = true := by
  have halive := alive_of_enabled he
  cases e with
  | dequeue answer =>
    simp only [next]
    split
    · exact halive
    · rw [dequeueNext_alive, halive]
  | otherBuffers =>
    simp only [next]
    split <;> exact halive
  | destroy => exact absurd rfl hne
  | _ => exact halive

theorem freedAtEnd_step {s : State} {e : Event} (h : Inv s) (he : Enabled s e) :
    FreedAtEnd (next s e) := by
  by_cases hne : e = .destroy
  · subst hne
    exact fun _ => (leaves_cleanUp h).settled_iff_nil.mpr rfl
  · intro hdead
    rw [alive_step he hne] at hdead
    cases hdead

/-- Over every run: a handle has been imported as often as it has been freed and is circulating, and
the end of the device frees the rest. -/
theorem imports_balance {es : List Event} (legal : system.Legal initial es) :
    let s := system.run initial es
    (∀ x, s.importer.count (.opened x) =
      (s.mCirculatingBuffers.map fun p => p.2.imported).count x + s.importer.count (.closed x)) ∧
    (s.alive = false → Handles.Settled s.importer) := by
  have hkeeps : Inv (system.run initial es) ∧ FreedAtEnd (system.run initial es) :=
    invariant_legal (I := fun s => Inv s ∧ FreedAtEnd s) system
      (fun s e h he => ⟨inv_step s e h.1 he, freedAtEnd_step h.1 he⟩)
      ⟨inv_initial, fun hdead => Bool.noConfusion hdead⟩ legal
  exact ⟨hkeeps.1.held.count_opened, hkeeps.2⟩

/-- Two imports, of which the HAL drops the first. -/
theorem imports_balance_gone :
    let s := system.run initial [.setPreviewWindow (some 1), .dequeue (.dequeued 7 70 (some 3) 16),
      .otherBuffers, .dequeue (.dequeued 7 71 (some 3) 32), .enqueue 32, .destroy]
    (∀ x, s.importer.count (.opened x) =
      (s.mCirculatingBuffers.map fun p => p.2.imported).count x + s.importer.count (.closed x)) ∧
    (s.alive = false → Handles.Settled s.importer) :=
  imports_balance (by decide)

/-- The HAL has not asked for other buffers, nor has the device gone. -/
def Event.keepsSlots : Event → Bool
  | .otherBuffers | .destroy => false
  | _ => true

theorem get_dequeueNext {s : State} {window : Window} {answer : Answer} (h : Inv s)
    (hfits : answer.Fits s window) {bufferId : BufferId} {slot : Slot}
    (hslot : SortedMaps.get bufferId s.mCirculatingBuffers = some slot) :
    SortedMaps.get bufferId (dequeueNext s window answer).mCirculatingBuffers = some slot := by
  rcases dequeueNext_cases hfits with ⟨hbuffers, -, -⟩ |
    ⟨other, buffer, handle, address, -, hnew, -, heq⟩
  · rwa [hbuffers]
  · rw [heq]
    have hne : bufferId ≠ other := by
      rintro rfl
      rw [hnew] at hslot
      cases hslot
    exact (SortedMaps.get_put h.buffers other bufferId _).trans ((if_neg hne).trans hslot)

/-- The step drops no slots. Without a window the HAL's asking does nothing. -/
def KeepsSlots (s : State) : Event → Prop
  | .otherBuffers => s.mPreviewCallback = none
  | .destroy => False
  | _ => True

theorem along_keepsSlots (s : State) {es : List Event} (h : ∀ e ∈ es, e.keepsSlots = true) :
    system.Along KeepsSlots s es := by
  induction es generalizing s with
  | nil => trivial
  | cons e es ih =>
    obtain ⟨he, hrest⟩ := List.forall_mem_cons.mp h
    refine ⟨?_, ih _ hrest⟩
    cases e with
    | otherBuffers => cases he
    | destroy => cases he
    | _ => trivial

theorem get_step {s : State} {e : Event} (h : Inv s) (he : Enabled s e)
    (hkeeps : KeepsSlots s e) {bufferId : BufferId} {slot : Slot}
    (hslot : SortedMaps.get bufferId s.mCirculatingBuffers = some slot) :
    SortedMaps.get bufferId (next s e).mCirculatingBuffers = some slot := by
  cases e with
  | dequeue answer =>
    cases hwindow : s.mPreviewCallback with
    | none => simpa only [next, hwindow] using hslot
    | some window =>
      simp only [next, hwindow]
      exact get_dequeueNext h (he.2 window hwindow) hslot
  | otherBuffers =>
    have hwindow : s.mPreviewCallback = none := hkeeps
    simpa only [next, hwindow] using hslot
  | destroy => exact hkeeps.elim
  | _ => exact hslot

theorem get_run {s : State} {es : List Event} (h : Inv s) (legal : system.Legal s es)
    (hkeeps : system.Along KeepsSlots s es) {bufferId : BufferId} {slot : Slot}
    (hslot : SortedMaps.get bufferId s.mCirculatingBuffers = some slot) :
    SortedMaps.get bufferId (system.run s es).mCirculatingBuffers = some slot := by
  induction es generalizing s with
  | nil => exact hslot
  | cons e es ih =>
    exact ih (inv_step s e h legal.1) legal.2 hkeeps.2 (get_step h legal.1 hkeeps.1 hslot)

theorem get_of_dequeued {s : State} {answer : Answer} {slot : Slot}
    (hd : dequeued s answer = some slot) :
    ∃ bufferId buffer handle address, answer = .dequeued bufferId buffer handle address ∧
      SortedMaps.get bufferId (next s (.dequeue answer)).mCirculatingBuffers = some slot := by
  unfold dequeued at hd
  split at hd
  · next window bufferId buffer handle address hwindow =>
    exact ⟨bufferId, buffer, handle, address, rfl, by simpa only [next, hwindow] using hd⟩
  · cases hd

/-- A buffer that the HAL has dequeued goes back to the window under the id it came with, and still
is the same handle, whatever else is dequeued and whichever windows are set in between, as long as
the HAL does not ask for other buffers. -/
theorem goes_back_under_its_id {es more : List Event} {bufferId : BufferId} {buffer : ℕ}
    {handle : Option ℕ} {address : Addr} {slot : Slot}
    (legal : system.Legal initial (es ++ .dequeue (.dequeued bufferId buffer handle address) :: more))
    (hd : dequeued (system.run initial es) (.dequeued bufferId buffer handle address) = some slot)
    (hkeeps : ∀ e ∈ more, e.keepsSlots = true) :
    let s := system.run initial (es ++ .dequeue (.dequeued bufferId buffer handle address) :: more)
    bufferIdOf s slot.address = some bufferId ∧
      SortedMaps.get bufferId s.mCirculatingBuffers = some slot := by
  obtain ⟨hes, hdequeue, hmore⟩ := (along_append system _ _ _ _).mp legal
  have hinv := inv_run legal
  have hafter : Inv (next (system.run initial es)
      (.dequeue (.dequeued bufferId buffer handle address))) :=
    inv_step _ _ (inv_run hes) hdequeue
  obtain ⟨_, _, _, _, ⟨⟩, hslot⟩ := get_of_dequeued hd
  have hend := get_run hafter hmore (along_keepsSlots _ hkeeps) hslot
  have hrun : system.run initial (es ++ .dequeue (.dequeued bufferId buffer handle address) :: more) =
      system.run (next (system.run initial es) (.dequeue (.dequeued bufferId buffer handle address)))
        more := List.foldl_append
  simp only [hrun]
  rw [hrun] at hinv
  exact ⟨(hinv.inverse _ _).mpr ⟨slot, hend, rfl⟩, hend⟩

/-- Another window is set while the buffer is with the HAL. -/
theorem goes_back_under_its_id_other_window :
    let s := system.run initial [.setPreviewWindow (some 1), .dequeue (.dequeued 7 70 (some 3) 16),
      .setPreviewWindow (some 2), .dequeue (.dequeued 8 80 (some 4) 48), .cancel 48]
    bufferIdOf s 16 = some 7 ∧ SortedMaps.get 7 s.mCirculatingBuffers = some ⟨16, 3, 70⟩ := by
  have legal : system.Legal initial ([.setPreviewWindow (some 1)] ++
      .dequeue (.dequeued 7 70 (some 3) 16) ::
      [.setPreviewWindow (some 2), .dequeue (.dequeued 8 80 (some 4) 48), .cancel 48]) := by
    decide
  have hd : dequeued (system.run initial [.setPreviewWindow (some 1)])
      (.dequeued 7 70 (some 3) 16) = some ⟨16, 3, 70⟩ := by
    decide
  exact goes_back_under_its_id legal hd (by decide)

/-- The HAL has dequeued the slot under the id, and has not asked for other buffers since. -/
def DequeuedSince (s : State) (es : List Event) (bufferId : BufferId) (slot : Slot) : Prop :=
  ∃ earlier buffer handle address later,
    es = earlier ++ .dequeue (.dequeued bufferId buffer handle address) :: later ∧
      dequeued (system.run s earlier) (.dequeued bufferId buffer handle address) = some slot ∧
      system.Along KeepsSlots (system.run s (earlier ++
        [.dequeue (.dequeued bufferId buffer handle address)])) later

theorem DequeuedSince.cons {s : State} {e : Event} {es : List Event} {bufferId : BufferId}
    {slot : Slot} (h : DequeuedSince (next s e) es bufferId slot) :
    DequeuedSince s (e :: es) bufferId slot := by
  obtain ⟨earlier, buffer, handle, address, later, rfl, hd, hkeeps⟩ := h
  exact ⟨e :: earlier, buffer, handle, address, later, rfl, hd, hkeeps⟩

theorem get_of_dequeuedSince {s : State} {es : List Event} (h : Inv s) (legal : system.Legal s es)
    {bufferId : BufferId} {slot : Slot} (hsince : DequeuedSince s es bufferId slot) :
    SortedMaps.get bufferId (system.run s es).mCirculatingBuffers = some slot := by
  obtain ⟨earlier, buffer, handle, address, later, rfl, hd, hkeeps⟩ := hsince
  obtain ⟨hearlier, hdequeue, hlater⟩ := (along_append system _ _ _ _).mp legal
  have hbefore : Inv (system.run s earlier) := invariant_legal system inv_step h hearlier
  have hafter : Inv (next (system.run s earlier)
      (.dequeue (.dequeued bufferId buffer handle address))) := inv_step _ _ hbefore hdequeue
  obtain ⟨_, _, _, _, ⟨⟩, hslot⟩ := get_of_dequeued hd
  rw [System.run, List.foldl_append] at hkeeps
  have hend := get_run hafter hlater hkeeps hslot
  rw [System.run, List.foldl_append]
  exact hend

/-- An address is known after a step if it was and no slots are dropped, or if it is that of the
slot that a dequeue has made. -/
theorem known_step {s : State} {e : Event} (h : Inv s) (he : Enabled s e) {address : Addr}
    {bufferId : BufferId} (hid : bufferIdOf (next s e) address = some bufferId) :
    bufferIdOf s address = some bufferId ∧ KeepsSlots s e ∨
      ∃ buffer handle addr slot, e = .dequeue (.dequeued bufferId buffer handle addr) ∧
        dequeued s (.dequeued bufferId buffer handle addr) = some slot ∧ slot.address = address := by
  cases e with
  | dequeue answer =>
    cases hwindow : s.mPreviewCallback with
    | none => exact .inl ⟨by simpa only [next, hwindow] using hid, trivial⟩
    | some window =>
      simp only [next, hwindow] at hid
      rcases dequeueNext_cases (he.2 window hwindow) with ⟨-, hids, -⟩ |
        ⟨other, buffer, handle, addr, rfl, -, -, heq⟩
      · exact .inl ⟨by rwa [bufferIdOf, hids] at hid, trivial⟩
      · have hput := hid
        rw [heq] at hput
        replace hput := (SortedMaps.get_put h.ids addr address other).symm.trans hput
        split at hput
        · next hsame =>
          cases hput
          refine .inr ⟨buffer, some handle, addr, ⟨addr, handle, buffer⟩, rfl, ?_, hsame.symm⟩
          simp only [dequeued, hwindow, heq]
          exact (SortedMaps.get_put h.buffers bufferId bufferId _).trans (if_pos rfl)
        · exact .inl ⟨hput, trivial⟩
  | otherBuffers =>
    cases hwindow : s.mPreviewCallback with
    | none => exact .inl ⟨by simpa only [next, hwindow] using hid, hwindow⟩
    | some window =>
      simp only [next, hwindow] at hid
      cases hid
  | destroy => cases hid
  | _ => exact .inl ⟨hid, trivial⟩

theorem known_run {s : State} {es : List Event} (h : Inv s) (legal : system.Legal s es)
    {address : Addr} {bufferId : BufferId}
    (hid : bufferIdOf (system.run s es) address = some bufferId) :
    bufferIdOf s address = some bufferId ∧ system.Along KeepsSlots s es ∨
      ∃ slot, slot.address = address ∧ DequeuedSince s es bufferId slot := by
  induction es generalizing s with
  | nil => exact .inl ⟨hid, trivial⟩
  | cons e es ih =>
    rcases ih (inv_step s e h legal.1) legal.2 hid with ⟨hnext, hkeeps⟩ | ⟨slot, hslot, hsince⟩
    · rcases known_step h legal.1 hnext with
        ⟨hold, hkeep⟩ | ⟨buffer, handle, addr, slot, rfl, hd, hslot⟩
      · exact .inl ⟨hold, hkeep, hkeeps⟩
      · exact .inr ⟨slot, hslot, [], buffer, handle, addr, es, rfl, hd, hkeeps⟩
    · exact .inr ⟨slot, hslot, hsince.cons⟩

/-- A buffer that the HAL kept from before it asked for other buffers is known exactly where a slot
at its address has been dequeued since. Then enqueue and cancel take it for the buffer of that slot:
they give the window its id. -/
theorem stale_buffer_taken_for_new {es more : List Event} (address : Addr) (bufferId : BufferId)
    (legal : system.Legal initial (es ++ .otherBuffers :: more))
    (hwindow : (system.run initial es).mPreviewCallback ≠ none) :
    let asked := system.run initial (es ++ [.otherBuffers])
    let s := system.run initial (es ++ .otherBuffers :: more)
    (bufferIdOf s address = some bufferId ↔
        ∃ slot, slot.address = address ∧ DequeuedSince asked more bufferId slot) ∧
      ∀ slot, DequeuedSince asked more bufferId slot →
        SortedMaps.get bufferId s.mCirculatingBuffers = some slot := by
  obtain ⟨hes, hclean, hmore⟩ := (along_append system _ _ _ _).mp legal
  have hafter : Inv (next (system.run initial es) .otherBuffers) := inv_step _ _ (inv_run hes) hclean
  have hasked : system.run initial (es ++ [.otherBuffers]) =
      next (system.run initial es) .otherBuffers := List.foldl_append
  have hrun : system.run initial (es ++ .otherBuffers :: more) =
      system.run (next (system.run initial es) .otherBuffers) more := List.foldl_append
  have hend : Inv (system.run (next (system.run initial es) .otherBuffers) more) :=
    invariant_legal system inv_step hafter hmore
  simp only [hasked, hrun]
  refine ⟨⟨fun hid => ?_, ?_⟩, fun slot => get_of_dequeuedSince hafter hmore⟩
  · rcases known_run hafter hmore hid with ⟨hold, -⟩ | hsince
    · obtain ⟨window, hwindow⟩ := Option.ne_none_iff_exists'.mp hwindow
      simp only [next, hwindow] at hold
      cases hold
    · exact hsince
  · rintro ⟨slot, rfl, hsince⟩
    exact (hend.inverse _ _).mpr ⟨slot, get_of_dequeuedSince hafter hmore hsince, rfl⟩

/-- The HAL cancels the address of a buffer it dequeued before it asked for others. -/
theorem stale_buffer_taken_for_new_reused :
    let asked := system.run initial ([.setPreviewWindow (some 1),
      .dequeue (.dequeued 7 70 (some 3) 16)] ++ [.otherBuffers])
    let more := [Event.dequeue (.dequeued 9 90 (some 5) 16), .cancel 16]
    let s := system.run initial ([.setPreviewWindow (some 1),
      .dequeue (.dequeued 7 70 (some 3) 16)] ++ .otherBuffers :: more)
    (bufferIdOf s 16 = some 9 ↔ ∃ slot, slot.address = 16 ∧ DequeuedSince asked more 9 slot) ∧
      ∀ slot, DequeuedSince asked more 9 slot →
        SortedMaps.get 9 s.mCirculatingBuffers = some slot :=
  stale_buffer_taken_for_new 16 9 (by decide) (by decide)

/-! ## Which window a buffer is of -/

/-- After another window is set the HAL asks for other buffers before it dequeues. -/
def AsksFirst (s : State) : Event → Prop
  | .dequeue _ => ∀ t ∈ s.shown, ∀ window ∈ s.mPreviewCallback, t.1 = window
  | _ => True

instance (s : State) (e : Event) : Decidable (AsksFirst s e) := by
  cases e <;> simp only [AsksFirst] <;> infer_instance

/-- What the HAL is given is the buffer that the window means. -/
def GivesOwn (s : State) (e : Event) : Prop :=
  ∀ bufferId buffer handle address slot,
    e = .dequeue (.dequeued bufferId buffer handle address) →
    dequeued s (.dequeued bufferId buffer handle address) = some slot →
    slot.imported.buffer = buffer

/-- The circulating buffers are some that the windows have shown. -/
def Circulating (s : State) : Prop :=
  ∀ p ∈ s.mCirculatingBuffers, ∃ window, (window, p.1, p.2.imported.buffer) ∈ s.shown

theorem givesOwn_of_circulating {s : State} {e : Event} (h : Inv s) (hcirc : Circulating s)
    (he : Enabled s e) (hasks : AsksFirst s e) : GivesOwn s e := by
  rintro bufferId buffer handle address slot rfl hd
  unfold dequeued at hd
  split at hd
  · next window bufferId' buffer' handle' address' hwindow heq =>
    cases heq
    have hfits := he.2 window hwindow
    rcases dequeueNext_cases hfits with ⟨hbuffers, -, -⟩ |
      ⟨other, buffer', handle', address', ⟨⟩, -, -, heq⟩
    · rw [hbuffers] at hd
      obtain ⟨window', hshown⟩ := hcirc _ (SortedMaps.mem_of_get hd)
      have hsame : window' = window := hasks _ hshown window hwindow
      subst hsame
      exact hfits.1 _ hshown
    · rw [heq] at hd
      have hput := (SortedMaps.get_put h.buffers bufferId bufferId _).symm.trans hd
      rw [if_pos rfl] at hput
      cases hput
      rfl
  · cases hd

theorem circulating_dequeue {s : State} {window : Window} {answer : Answer} (h : Inv s)
    (hcirc : Circulating s) : Circulating (dequeueNext s window answer) := by
  cases answer with
  | fails => exact hcirc
  | dequeued bufferId buffer handle address =>
    have hshow : Circulating (s.show window bufferId buffer) := fun p hp => by
      obtain ⟨window', hshown⟩ := hcirc p hp
      exact ⟨window', List.mem_cons_of_mem _ hshown⟩
    simp only [dequeueNext]
    split
    · exact hshow
    · intro p hp
      rcases (SortedMaps.mem_put_iff h.buffers).mp hp with rfl | ⟨-, hold⟩
      · exact ⟨window, List.mem_cons_self⟩
      · exact hshow p hold
    · exact hshow

theorem circulating_step {s : State} {e : Event} (h : Inv s) (hcirc : Circulating s) :
    Circulating (next s e) := by
  cases e with
  | dequeue answer =>
    simp only [next]
    split
    · exact hcirc
    · exact circulating_dequeue h hcirc
  | otherBuffers =>
    simp only [next]
    split
    · exact hcirc
    · exact nofun
  | destroy => exact nofun
  | _ => exact hcirc

/-- setPreviewWindow itself keeps the slots: where the new window means another buffer by an id that
is still circulating, the next dequeue gives the HAL the old one. -/
theorem setPreviewWindow_gives_old {s : State} {bufferId : BufferId} {slot : Slot}
    (hslot : SortedMaps.get bufferId s.mCirculatingBuffers = some slot) (window : Window) {buffer : ℕ}
    (hother : slot.imported.buffer ≠ buffer) (handle : Option ℕ) (address : Addr) :
    ¬ system.Along GivesOwn s [.setPreviewWindow (some window),
      .dequeue (.dequeued bufferId buffer handle address)] := by
  rintro ⟨-, hgives, -⟩
  refine hother (hgives bufferId buffer handle address slot rfl ?_)
  have hkept : SortedMaps.get bufferId ((next s (.setPreviewWindow (some window))).show window
      bufferId buffer).mCirculatingBuffers = some slot := hslot
  have hkeeps : dequeueNext (next s (.setPreviewWindow (some window))) window
      (.dequeued bufferId buffer handle address) =
        (next s (.setPreviewWindow (some window))).show window bufferId buffer := by
    simp only [dequeueNext, hkept]
  change SortedMaps.get bufferId (dequeueNext (next s (.setPreviewWindow (some window))) window
    (.dequeued bufferId buffer handle address)).mCirculatingBuffers = some slot
  rw [hkeeps]
  exact hkept

/-- In a run in which the HAL asks for other buffers whenever another window is set, each dequeue
gives it the buffer that the window means. Where another window is set behind it and the HAL does
not ask, an id that is still circulating finds the old window's buffer. -/
theorem along_givesOwn {es : List Event} (legal : system.Legal initial es)
    (hasks : system.Along AsksFirst initial es) :
    system.Along GivesOwn initial es ∧
      ∀ bufferId slot, SortedMaps.get bufferId (system.run initial es).mCirculatingBuffers =
          some slot →
        ∀ window buffer handle address, slot.imported.buffer ≠ buffer →
          ¬ system.Along GivesOwn initial (es ++ [.setPreviewWindow (some window),
            .dequeue (.dequeued bufferId buffer handle address)]) := by
  refine ⟨along_of_invariant (I := fun s => Inv s ∧ Circulating s) system
    (fun s e h he _ => ⟨inv_step s e h.1 he, circulating_step h.1 h.2⟩)
    ⟨inv_initial, nofun⟩ legal hasks
    fun _ _ h he hask => givesOwn_of_circulating h.1 h.2 he hask, ?_⟩
  intro bufferId slot hslot window buffer handle address hother hgives
  exact setPreviewWindow_gives_old hslot window hother handle address
    ((along_append system _ _ _ _).mp hgives).2

/-- The second window gives its buffers the ids of the first. -/
theorem along_givesOwn_two_windows :
    let es := [Event.setPreviewWindow (some 1), .dequeue (.dequeued 7 70 (some 3) 16),
      .enqueue 16, .setPreviewWindow (some 2), .otherBuffers,
      .dequeue (.dequeued 7 80 (some 4) 16)]
    system.Along GivesOwn initial es ∧
      ∀ bufferId slot, SortedMaps.get bufferId (system.run initial es).mCirculatingBuffers =
          some slot →
        ∀ window buffer handle address, slot.imported.buffer ≠ buffer →
          ¬ system.Along GivesOwn initial (es ++ [.setPreviewWindow (some window),
            .dequeue (.dequeued bufferId buffer handle address)]) :=
  along_givesOwn (by decide) (by decide)

end CameraPreviewWindow
