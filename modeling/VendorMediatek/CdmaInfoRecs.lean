import Mathlib.Algebra.GroupWithZero.Nat
import VendorMediatek.AccessTraces
import VendorMediatek.HeapLedgers
import VendorMediatek.RilDispatch

/-!
# CDMA information records

cdmaInfoRecInd of ril_service.cpp. A char is unsigned. The members of the union in a record are all
given, although they share their bytes.
-/

namespace CdmaInfoRecs

open AccessTraces HeapLedgers
open RilDispatch (HidlString)

/-- RIL_CDMA_InfoRecName, and any other value that the field may have. -/
inductive InfoRecName where
  | display | calledPartyNumber | callingPartyNumber | connectedNumber | signal
  | redirectingNumber | lineControl | extendedDisplay | t53Clir | t53Release | t53AudioControl
  | other (value : ℤ)
  deriving DecidableEq, Repr

abbrev cdmaAlphaInfoBufferLength : ℕ := 64
abbrev cdmaNumberInfoBufferLength : ℕ := 81
abbrev rilCdmaMaxNumberOfInfoRecs : ℕ := 10

structure RilDisplayInfo where
  alphaLen : UInt8
  alphaBuf : Vector UInt8 cdmaAlphaInfoBufferLength

structure RilNumberInfo where
  len : UInt8
  buf : Vector UInt8 cdmaNumberInfoBufferLength
  numberType : UInt8
  numberPlan : UInt8
  pi : UInt8
  si : UInt8

structure SignalInfo where
  isPresent : Bool
  signalType : UInt8
  alertPitch : UInt8
  signal : UInt8
  deriving DecidableEq, Repr

structure LineControlInfo where
  lineCtrlPolarityIncluded : UInt8
  lineCtrlToggle : UInt8
  lineCtrlReverse : UInt8
  lineCtrlPowerDenial : UInt8
  deriving DecidableEq, Repr

structure AudioControlInfo where
  upLink : UInt8
  downLink : UInt8
  deriving DecidableEq, Repr

/-- RIL_CDMA_InformationRecord -/
structure RilInformationRecord where
  name : InfoRecName
  display : RilDisplayInfo
  number : RilNumberInfo
  signalIsPresent : UInt8
  signalType : UInt8
  alertPitch : UInt8
  signal : UInt8
  redirectingNumber : RilNumberInfo
  redirectingReason : ℤ
  lineCtrl : LineControlInfo
  clirCause : UInt8
  audioCtrl : AudioControlInfo

/-- RIL_CDMA_InformationRecords -/
structure RilInformationRecords where
  numberOfInfoRecs : UInt8
  infoRec : Vector RilInformationRecord rilCdmaMaxNumberOfInfoRecs

structure NumberInfo where
  number : HidlString
  numberType : UInt8
  numberPlan : UInt8
  pi : UInt8
  si : UInt8
  deriving DecidableEq, Repr

structure RedirectingNumberInfo where
  redirectingNumber : NumberInfo
  redirectingReason : ℤ
  deriving DecidableEq, Repr

/-- CdmaInformationRecord -/
structure InformationRecord where
  name : InfoRecName
  display : List HidlString
  number : List NumberInfo
  signal : List SignalInfo
  redir : List RedirectingNumberInfo
  lineCtrl : List LineControlInfo
  clir : List UInt8
  audioCtrl : List AudioControlInfo
  deriving DecidableEq, Repr

def InformationRecord.empty (name : InfoRecName) : InformationRecord :=
  ⟨name, [], [], [], [], [], [], []⟩

/-! ## The function -/

/-- What a part of the function touches, what it does to the heap, and its result unless the function
returns early. The string8 of record i is block i. -/
structure Part (α : Type) where
  accesses : List Access
  heap : List (Op ℕ)
  result : Option α

namespace Part

variable {α β : Type}

protected def pure (a : α) : Part α := ⟨[], [], some a⟩

/-- The function returns without telling the client. -/
def refuse : Part α := ⟨[], [], none⟩

def map (f : α → β) (m : Part α) : Part β := ⟨m.accesses, m.heap, m.result.map f⟩

protected def bind (m : Part α) (f : α → Part β) : Part β :=
  match m.result with
  | none => ⟨m.accesses, m.heap, none⟩
  | some a => ⟨m.accesses ++ (f a).accesses, m.heap ++ (f a).heap, (f a).result⟩

end Part

/-- The string in string8 once len bytes are copied and terminated. -/
def terminated (buf : List UInt8) (len : ℕ) : HidlString :=
  (buf.take len ++ [0]).takeWhile (· ≠ 0)

/-- string8 from its allocation to its free; malloc tells whether there is memory for it. -/
def copyString (malloc : Bool) (i : ℕ) {capacity : ℕ} (len : UInt8) (buf : Vector UInt8 capacity) :
    Part HidlString :=
  if capacity < len.toNat then .refuse
  else if malloc = false then .refuse
  else
    -- memcpy reads the buffer and writes string8, then the terminator, then the hidl_string
    { accesses := [⟨capacity, 0, len.toNat⟩, ⟨len.toNat + 1, 0, len.toNat⟩,
        ⟨len.toNat + 1, len.toNat, 1⟩]
      heap := [.alloc i, .use i, .use i, .use i, .free i 0]
      result := some (terminated buf.toList len.toNat) }

/-- A number, which two kinds of records have. -/
def copyNumber (malloc : Bool) (i : ℕ) (number : RilNumberInfo) : Part NumberInfo :=
  (copyString malloc i number.len number.buf).map fun string8 =>
    ⟨string8, number.numberType, number.numberPlan, number.pi, number.si⟩

/-- One turn of the loop. -/
def convertRecord (malloc : Bool) (i : ℕ) (infoRec : RilInformationRecord) :
    Part InformationRecord :=
  let record := InformationRecord.empty infoRec.name
  match infoRec.name with
  | .display | .extendedDisplay =>
    (copyString malloc i infoRec.display.alphaLen infoRec.display.alphaBuf).map fun string8 =>
      { record with display := [string8] }
  | .calledPartyNumber | .callingPartyNumber | .connectedNumber =>
    (copyNumber malloc i infoRec.number).map fun number => { record with number := [number] }
  | .signal => .pure { record with
      signal := [⟨infoRec.signalIsPresent != 0, infoRec.signalType, infoRec.alertPitch,
        infoRec.signal⟩] }
  | .redirectingNumber =>
    (copyNumber malloc i infoRec.redirectingNumber).map fun number =>
      { record with redir := [⟨number, infoRec.redirectingReason⟩] }
  | .lineControl => .pure { record with lineCtrl := [infoRec.lineCtrl] }
  | .t53Clir => .pure { record with clir := [infoRec.clirCause] }
  | .t53AudioControl => .pure { record with audioCtrl := [infoRec.audioCtrl] }
  | .t53Release => .refuse
  | .other _ => .refuse

/-- The loop from record i on. -/
def convertRecords (malloc : ℕ → Bool) (i : ℕ) :
    List RilInformationRecord → Part (List InformationRecord)
  | [] => .pure []
  | infoRec :: infoRecs =>
    (convertRecord (malloc i) i infoRec).bind fun record =>
      (convertRecords malloc (i + 1) infoRecs).map (record :: ·)

/-- The records that the loop reaches. -/
def RilInformationRecords.read (recordsRil : RilInformationRecords) : List RilInformationRecord :=
  recordsRil.infoRec.toList.take
    (min recordsRil.numberOfInfoRecs.toNat rilCdmaMaxNumberOfInfoRecs)

/-- The records that go to the client. response is none when it is NULL or of another size than the
structure. -/
def cdmaInfoRecInd (malloc : ℕ → Bool) (client : Bool) (response : Option RilInformationRecords) :
    Part (List InformationRecord) :=
  if client = false then .refuse
  else match response with
    | none => .refuse
    | some recordsRil => convertRecords malloc 0 recordsRil.read

/-! ## What the client should get -/

def RilNumberInfo.toNumber (number : RilNumberInfo) : NumberInfo :=
  ⟨(number.buf.toList.take number.len.toNat).takeWhile (· ≠ 0), number.numberType,
    number.numberPlan, number.pi, number.si⟩

/-- The sub-vector of the record's name has the one element, its string cut to the length that the
record gives. -/
def InformationRecord.ofRil (infoRec : RilInformationRecord) : InformationRecord :=
  let record := InformationRecord.empty infoRec.name
  match infoRec.name with
  | .display | .extendedDisplay => { record with
      display := [(infoRec.display.alphaBuf.toList.take infoRec.display.alphaLen.toNat).takeWhile
        (· ≠ 0)] }
  | .calledPartyNumber | .callingPartyNumber | .connectedNumber =>
    { record with number := [infoRec.number.toNumber] }
  | .signal => { record with
      signal := [⟨infoRec.signalIsPresent != 0, infoRec.signalType, infoRec.alertPitch,
        infoRec.signal⟩] }
  | .redirectingNumber =>
    { record with redir := [⟨infoRec.redirectingNumber.toNumber, infoRec.redirectingReason⟩] }
  | .lineControl => { record with lineCtrl := [infoRec.lineCtrl] }
  | .t53Clir => { record with clir := [infoRec.clirCause] }
  | .t53AudioControl => { record with audioCtrl := [infoRec.audioCtrl] }
  | .t53Release | .other _ => record

/-- The length of the string that a record of this name has, with the capacity of its buffer. -/
def RilInformationRecord.string (infoRec : RilInformationRecord) : Option (ℕ × ℕ) :=
  match infoRec.name with
  | .display | .extendedDisplay =>
    some (infoRec.display.alphaLen.toNat, cdmaAlphaInfoBufferLength)
  | .calledPartyNumber | .callingPartyNumber | .connectedNumber =>
    some (infoRec.number.len.toNat, cdmaNumberInfoBufferLength)
  | .redirectingNumber => some (infoRec.redirectingNumber.len.toNat, cdmaNumberInfoBufferLength)
  | .signal | .lineControl | .t53Clir | .t53Release | .t53AudioControl | .other _ => none

/-- The name is unknown or that of a release record, or the length is above the capacity. -/
def RilInformationRecord.Invalid (infoRec : RilInformationRecord) : Prop :=
  infoRec.name = .t53Release ∨ (∃ value, infoRec.name = .other value) ∨
    ∃ s ∈ infoRec.string, s.2 < s.1

/-! ## What a part touches -/

/-- The accesses stay in bounds, and the heap is left as it was, by work on some blocks only. -/
structure Part.Clean {α : Type} (m : Part α) (blocks : ℕ → Prop) : Prop where
  inBounds : ∀ a ∈ m.accesses, a.InBounds
  balanced : Balanced m.heap
  own : ∀ o ∈ m.heap, blocks o.block

section Clean

variable {α β : Type} {m : Part α} {blocks others : ℕ → Prop}

theorem clean_pure (a : α) : (Part.pure a).Clean blocks := ⟨nofun, balanced_nil, nofun⟩

theorem clean_refuse : (Part.refuse : Part α).Clean blocks := ⟨nofun, balanced_nil, nofun⟩

theorem Part.Clean.map (h : m.Clean blocks) (f : α → β) : (m.map f).Clean blocks :=
  ⟨h.inBounds, h.balanced, h.own⟩

theorem Part.Clean.mono (h : m.Clean blocks) (hle : ∀ b, blocks b → others b) : m.Clean others :=
  ⟨h.inBounds, h.balanced, fun o ho => hle _ (h.own o ho)⟩

theorem Part.Clean.bind {f : α → Part β} (h : m.Clean blocks) (hf : ∀ a, (f a).Clean others)
    (hne : ∀ b c, blocks b → others c → b ≠ c) :
    (m.bind f).Clean fun b => blocks b ∨ others b := by
  rw [Part.bind]
  cases m.result with
  | none => exact ⟨h.inBounds, h.balanced, fun o ho => .inl (h.own o ho)⟩
  | some a =>
    refine ⟨fun x hx => ?_, h.balanced.append (hf a).balanced fun o ho p hp =>
      hne _ _ (h.own o ho) ((hf a).own p hp), fun o ho => ?_⟩
    · exact (List.mem_append.mp hx).elim (h.inBounds x) ((hf a).inBounds x)
    · exact (List.mem_append.mp ho).imp (h.own o) ((hf a).own o)

end Clean

theorem balanced_string8 (i : ℕ) :
    Balanced [Op.alloc i, .use i, .use i, .use i, .free i 0] := by
  have released : Releases [Op.use i, .use i, .use i, .free i 0] [i] :=
    (((releases_free i).use i).use i).use i
  show Balanced ([Op.alloc i] ++ [.use i, .use i, .use i, .free i 0])
  exact balanced_of_releases rfl (List.nodup_singleton i) released

theorem clean_copyString (malloc : Bool) (i : ℕ) {capacity : ℕ} (len : UInt8)
    (buf : Vector UInt8 capacity) : (copyString malloc i len buf).Clean (· = i) := by
  rw [copyString]
  split_ifs with hlen hmalloc
  · exact clean_refuse
  · exact clean_refuse
  · refine ⟨fun a ha => ?_, balanced_string8 i, fun o ho => ?_⟩
    · simp only [List.mem_cons, List.not_mem_nil, or_false] at ha
      rcases ha with rfl | rfl | rfl <;> simp only [Access.InBounds] <;> omega
    · simp only [List.mem_cons, List.not_mem_nil, or_false] at ho
      rcases ho with rfl | rfl | rfl | rfl | rfl <;> rfl

theorem clean_convertRecord (malloc : Bool) (i : ℕ) (infoRec : RilInformationRecord) :
    (convertRecord malloc i infoRec).Clean (· = i) := by
  rw [convertRecord]
  cases infoRec.name with
  | display | extendedDisplay => exact (clean_copyString ..).map _
  | calledPartyNumber | callingPartyNumber | connectedNumber | redirectingNumber =>
    exact ((clean_copyString ..).map _).map _
  | signal | lineControl | t53Clir | t53AudioControl => exact clean_pure _
  | t53Release | other value => exact clean_refuse

theorem clean_convertRecords (malloc : ℕ → Bool) (i : ℕ) (infoRecs : List RilInformationRecord) :
    (convertRecords malloc i infoRecs).Clean (i ≤ ·) := by
  induction infoRecs generalizing i with
  | nil => exact clean_pure _
  | cons infoRec infoRecs ih =>
    have hrest := fun record : InformationRecord => (ih (i + 1)).map (record :: ·)
    refine ((clean_convertRecord (malloc i) i infoRec).bind hrest ?_).mono ?_
    · rintro b c rfl hc
      omega
    · rintro b (rfl | hb)
      · exact Nat.le_refl b
      · exact Nat.le_of_succ_le hb

/-! ## What a part gives -/

theorem terminated_eq (buf : List UInt8) (len : ℕ) :
    terminated buf len = (buf.take len).takeWhile (· ≠ 0) := by
  rw [terminated]
  induction buf.take len with
  | nil => rfl
  | cons c s ih =>
    rw [List.cons_append, List.takeWhile_cons, List.takeWhile_cons, ih]

/-- The record is invalid, or there is no memory for its string. -/
def Refused (malloc : Bool) (infoRec : RilInformationRecord) : Prop :=
  infoRec.Invalid ∨ infoRec.string ≠ none ∧ malloc = false

theorem refused_iff_of_string {malloc : Bool} {infoRec : RilInformationRecord} {len capacity : ℕ}
    (h : infoRec.string = some (len, capacity)) :
    Refused malloc infoRec ↔ capacity < len ∨ malloc = false := by
  have hname : infoRec.name ≠ .t53Release ∧ ∀ value, infoRec.name ≠ .other value := by
    constructor
    · intro hname
      simp [RilInformationRecord.string, hname] at h
    · intro value hname
      simp [RilInformationRecord.string, hname] at h
  simp [Refused, RilInformationRecord.Invalid, h, hname.1, hname.2]

theorem refused_iff_of_no_string {malloc : Bool} {infoRec : RilInformationRecord}
    (h : infoRec.string = none) :
    Refused malloc infoRec ↔ infoRec.name = .t53Release ∨ ∃ value, infoRec.name = .other value := by
  simp [Refused, RilInformationRecord.Invalid, h]

theorem copyString_result (malloc : Bool) (i : ℕ) {capacity : ℕ} (len : UInt8)
    (buf : Vector UInt8 capacity) :
    (copyString malloc i len buf).result = none ∧ (capacity < len.toNat ∨ malloc = false) ∨
      (copyString malloc i len buf).result =
          some ((buf.toList.take len.toNat).takeWhile (· ≠ 0)) ∧
        ¬ (capacity < len.toNat ∨ malloc = false) := by
  rw [copyString]
  split_ifs with hlen hmalloc
  · exact .inl ⟨rfl, .inl hlen⟩
  · exact .inl ⟨rfl, .inr hmalloc⟩
  · exact .inr ⟨congrArg some (terminated_eq ..), not_or.mpr ⟨hlen, hmalloc⟩⟩

/-- A record is refused, or converted as it should be. -/
def Converted (malloc : Bool) (i : ℕ) (infoRec : RilInformationRecord) : Prop :=
  (convertRecord malloc i infoRec).result = none ∧ Refused malloc infoRec ∨
    (convertRecord malloc i infoRec).result = some (InformationRecord.ofRil infoRec) ∧
      ¬ Refused malloc infoRec

theorem converted_of_string {malloc : Bool} {i : ℕ} {infoRec : RilInformationRecord} {capacity : ℕ}
    {len : UInt8} {buf : Vector UInt8 capacity} {f : HidlString → InformationRecord}
    (hstring : infoRec.string = some (len.toNat, capacity))
    (hresult : (convertRecord malloc i infoRec).result =
      (copyString malloc i len buf).result.map f)
    (hright : InformationRecord.ofRil infoRec =
      f ((buf.toList.take len.toNat).takeWhile (· ≠ 0))) : Converted malloc i infoRec := by
  rw [Converted, refused_iff_of_string hstring, hresult, hright]
  rcases copyString_result malloc i len buf with ⟨hcopy, hbad⟩ | ⟨hcopy, hgood⟩
  · exact .inl ⟨by rw [hcopy, Option.map_none], hbad⟩
  · exact .inr ⟨by rw [hcopy, Option.map_some], hgood⟩

theorem converted_of_number {malloc : Bool} {i : ℕ} {infoRec : RilInformationRecord}
    {number : RilNumberInfo} {f : NumberInfo → InformationRecord}
    (hstring : infoRec.string = some (number.len.toNat, cdmaNumberInfoBufferLength))
    (hresult : (convertRecord malloc i infoRec).result =
      (copyNumber malloc i number).result.map f)
    (hright : InformationRecord.ofRil infoRec = f number.toNumber) :
    Converted malloc i infoRec :=
  converted_of_string (f := fun string8 =>
      f ⟨string8, number.numberType, number.numberPlan, number.pi, number.si⟩) hstring
    (hresult.trans (Option.map_map ..)) hright

theorem converted_of_no_string {malloc : Bool} {i : ℕ} {infoRec : RilInformationRecord}
    (hstring : infoRec.string = none)
    (hname : infoRec.name ≠ .t53Release ∧ ∀ value, infoRec.name ≠ .other value)
    (hresult : (convertRecord malloc i infoRec).result =
      some (InformationRecord.ofRil infoRec)) : Converted malloc i infoRec := by
  refine .inr ⟨hresult, ?_⟩
  rw [refused_iff_of_no_string hstring, not_or, not_exists]
  exact hname

theorem convertRecord_result (malloc : Bool) (i : ℕ) (infoRec : RilInformationRecord) :
    Converted malloc i infoRec := by
  cases hname : infoRec.name with
  | display | extendedDisplay =>
    exact converted_of_string (by rw [RilInformationRecord.string, hname])
      (by rw [convertRecord, hname]; rfl) (by rw [InformationRecord.ofRil, hname])
  | calledPartyNumber | callingPartyNumber | connectedNumber | redirectingNumber =>
    exact converted_of_number (by rw [RilInformationRecord.string, hname])
      (by rw [convertRecord, hname]; rfl) (by rw [InformationRecord.ofRil, hname])
  | signal | lineControl | t53Clir | t53AudioControl =>
    exact converted_of_no_string (by rw [RilInformationRecord.string, hname])
      (by rw [hname]; exact ⟨nofun, nofun⟩)
      (by rw [convertRecord, InformationRecord.ofRil, hname]; rfl)
  | t53Release =>
    exact .inl ⟨by rw [convertRecord, hname]; rfl, .inl (.inl hname)⟩
  | other value =>
    exact .inl ⟨by rw [convertRecord, hname]; rfl, .inl (.inr (.inl ⟨value, hname⟩))⟩

/-- One of the records, with the outcome of its own malloc, is refused. -/
def SomeRefused (malloc : ℕ → Bool) (i : ℕ) (infoRecs : List RilInformationRecord) : Prop :=
  ∃ j infoRec, infoRecs[j]? = some infoRec ∧ Refused (malloc (i + j)) infoRec

theorem someRefused_cons {malloc : ℕ → Bool} {i : ℕ} {infoRec : RilInformationRecord}
    {infoRecs : List RilInformationRecord} :
    SomeRefused malloc i (infoRec :: infoRecs) ↔
      Refused (malloc i) infoRec ∨ SomeRefused malloc (i + 1) infoRecs := by
  constructor
  · rintro ⟨j, found, hj, hrefused⟩
    cases j with
    | zero =>
      cases hj
      exact .inl hrefused
    | succ j => exact .inr ⟨j, found, hj, by rwa [Nat.add_assoc, Nat.add_comm 1 j]⟩
  · rintro (hrefused | ⟨j, found, hj, hrefused⟩)
    · exact ⟨0, infoRec, rfl, hrefused⟩
    · exact ⟨j + 1, found, hj, by rwa [Nat.add_assoc, Nat.add_comm 1 j] at hrefused⟩

theorem convertRecords_result (malloc : ℕ → Bool) (i : ℕ) (infoRecs : List RilInformationRecord) :
    (convertRecords malloc i infoRecs).result = none ∧ SomeRefused malloc i infoRecs ∨
      (convertRecords malloc i infoRecs).result = some (infoRecs.map InformationRecord.ofRil) ∧
        ¬ SomeRefused malloc i infoRecs := by
  induction infoRecs generalizing i with
  | nil => exact .inr ⟨rfl, fun ⟨j, found, hj, _⟩ => by cases hj⟩
  | cons infoRec infoRecs ih =>
    rw [convertRecords, Part.bind, someRefused_cons]
    rcases convertRecord_result (malloc i) i infoRec with ⟨hresult, hrefused⟩ | ⟨hresult, hgood⟩
    · rw [hresult]
      exact .inl ⟨rfl, .inl hrefused⟩
    · rw [hresult]
      rcases ih (i + 1) with ⟨hrest, hrefused⟩ | ⟨hrest, hgoods⟩
      · exact .inl ⟨congrArg (Option.map _) hrest, .inr hrefused⟩
      · exact .inr ⟨congrArg (Option.map _) hrest, not_or.mpr ⟨hgood, hgoods⟩⟩

/-! ## The sub-vectors -/

/-- The lengths of the seven sub-vectors. -/
def InformationRecord.sizes (record : InformationRecord) : List ℕ :=
  [record.display.length, record.number.length, record.signal.length, record.redir.length,
    record.lineCtrl.length, record.clir.length, record.audioCtrl.length]

/-- Which sub-vector the records of a name have. -/
def InfoRecName.sizes : InfoRecName → List ℕ
  | .display | .extendedDisplay => [1, 0, 0, 0, 0, 0, 0]
  | .calledPartyNumber | .callingPartyNumber | .connectedNumber => [0, 1, 0, 0, 0, 0, 0]
  | .signal => [0, 0, 1, 0, 0, 0, 0]
  | .redirectingNumber => [0, 0, 0, 1, 0, 0, 0]
  | .lineControl => [0, 0, 0, 0, 1, 0, 0]
  | .t53Clir => [0, 0, 0, 0, 0, 1, 0]
  | .t53AudioControl => [0, 0, 0, 0, 0, 0, 1]
  | .t53Release | .other _ => [0, 0, 0, 0, 0, 0, 0]

theorem sizes_ofRil (infoRec : RilInformationRecord) :
    (InformationRecord.ofRil infoRec).sizes = infoRec.name.sizes := by
  rw [InformationRecord.sizes, InformationRecord.ofRil]
  cases infoRec.name <;> rfl

theorem sizes_sum {infoRec : RilInformationRecord} (h : ¬ infoRec.Invalid) :
    infoRec.name.sizes.sum = 1 := by
  obtain ⟨hrelease, h⟩ := not_or.mp h
  obtain ⟨hother, -⟩ := not_or.mp h
  cases hname : infoRec.name with
  | t53Release => exact absurd hname hrelease
  | other value => exact absurd ⟨value, hname⟩ hother
  | display | calledPartyNumber | callingPartyNumber | connectedNumber | signal
  | redirectingNumber | lineControl | extendedDisplay | t53Clir | t53AudioControl => rfl

theorem someRefused_zero {malloc : ℕ → Bool} {infoRecs : List RilInformationRecord} :
    SomeRefused malloc 0 infoRecs ↔ ∃ j infoRec, infoRecs[j]? = some infoRec ∧
      (infoRec.Invalid ∨ infoRec.string ≠ none ∧ malloc j = false) := by
  simp only [SomeRefused, Refused, Nat.zero_add]

/-- A record that is delivered has one element, in the sub-vector of its name. -/
theorem sizes_of_delivered {malloc : ℕ → Bool} {infoRecs : List RilInformationRecord}
    (h : ¬ SomeRefused malloc 0 infoRecs) {record : InformationRecord}
    (hrecord : record ∈ infoRecs.map InformationRecord.ofRil) :
    record.sizes = record.name.sizes ∧ record.sizes.sum = 1 := by
  obtain ⟨infoRec, hmem, rfl⟩ := List.mem_map.mp hrecord
  obtain ⟨j, hj⟩ := List.mem_iff_getElem?.mp hmem
  have hvalid : ¬ infoRec.Invalid := fun hinvalid => h ⟨j, infoRec, hj, .inl hinvalid⟩
  have hname : (InformationRecord.ofRil infoRec).name = infoRec.name := by
    rw [InformationRecord.ofRil]
    cases infoRec.name <;> rfl
  rw [sizes_ofRil, hname]
  exact ⟨rfl, sizes_sum hvalid⟩

/-- The function delivers the first records in order, each as it should be, or nothing, and nothing
exactly when one of them is invalid or there is no memory for its string. Its accesses stay within
the buffers, and its temporary strings are freed once and not used after that. -/
theorem cdmaInfoRecInd_delivers (malloc : ℕ → Bool) (recordsRil : RilInformationRecords) :
    let run := cdmaInfoRecInd malloc true (some recordsRil)
    (run.result = none ∨ run.result = some (recordsRil.read.map InformationRecord.ofRil)) ∧
      (run.result = none ↔ ∃ j infoRec, recordsRil.read[j]? = some infoRec ∧
        (infoRec.Invalid ∨ infoRec.string ≠ none ∧ malloc j = false)) ∧
      (∀ delivered ∈ run.result, ∀ record ∈ delivered, record.sizes = record.name.sizes ∧
        record.sizes.sum = 1) ∧
      (∀ a ∈ run.accesses, a.InBounds) ∧ Balanced run.heap := by
  intro run
  have clean : run.Clean (0 ≤ ·) := clean_convertRecords malloc 0 recordsRil.read
  rw [← someRefused_zero]
  rcases convertRecords_result malloc 0 recordsRil.read with ⟨hresult, hrefused⟩ | ⟨hresult, hgood⟩
  · have hnone : run.result = none := hresult
    refine ⟨.inl hnone, iff_of_true hnone hrefused, ?_, clean.inBounds, clean.balanced⟩
    rw [hnone]
    nofun
  · have hsome : run.result = some (recordsRil.read.map InformationRecord.ofRil) := hresult
    refine ⟨.inr hsome, iff_of_false (by rw [hsome]; nofun) hgood, ?_, clean.inBounds,
      clean.balanced⟩
    rw [hsome]
    rintro delivered ⟨⟩ record hrecord
    exact sizes_of_delivered hgood hrecord

/-- A display record of two characters. -/
def displayRecord : RilInformationRecord where
  name := .display
  display := ⟨2, Vector.replicate _ 72⟩
  number := ⟨0, Vector.replicate _ 0, 0, 0, 0, 0⟩
  signalIsPresent := 0
  signalType := 0
  alertPitch := 0
  signal := 0
  redirectingNumber := ⟨0, Vector.replicate _ 0, 0, 0, 0, 0⟩
  redirectingReason := 0
  lineCtrl := ⟨0, 0, 0, 0⟩
  clirCause := 0
  audioCtrl := ⟨0, 0⟩

/-- Without memory for a string nothing is delivered, although no record is invalid. -/
theorem displayRecord_without_memory :
    ¬ ∀ (malloc : ℕ → Bool) (recordsRil : RilInformationRecords),
      (cdmaInfoRecInd malloc true (some recordsRil)).result = none ↔
        ∃ infoRec ∈ recordsRil.read, infoRec.Invalid := by
  intro h
  obtain ⟨infoRec, hmem, hinvalid⟩ :=
    (h (fun _ => false) ⟨1, Vector.replicate _ displayRecord⟩).mp rfl
  obtain rfl : infoRec = displayRecord := by
    have hall := List.mem_of_mem_take hmem
    rw [Vector.toList_replicate] at hall
    exact List.eq_of_mem_replicate hall
  rcases hinvalid with hname | ⟨value, hname⟩ | ⟨s, hs, hlong⟩
  · cases hname
  · cases hname
  · cases hs
    exact absurd hlong (by decide)

end CdmaInfoRecs
