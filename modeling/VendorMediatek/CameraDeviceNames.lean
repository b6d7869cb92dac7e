import VendorMediatek.TextInput

/-!
# The names of camera devices

CameraProvider gives its clients names like device@1.0/legacy/0, made of a version and the id of a
camera, and takes them apart again with a regular expression.
-/

namespace CameraDeviceNames

open CStrings DecimalStrings TextInput

/-- What comes behind a literal part of the expression. -/
def behind (part s : CString) : Option CString :=
  if part <+: s then some (s.drop part.length) else none

/-- The any-character of an expression takes no line feed and no carriage return. -/
def isAny (c : UInt8) : Bool := c ≠ 10 ∧ c ≠ 13

/-- regex_match with device@([0-9]+\.[0-9]+)/legacy/(.+): the two groups. -/
def matchDeviceName (deviceName : CString) : Option (CString × CString) := do
  let version ← behind (literal "device@") deviceName
  let major := version.takeWhile isDigit
  let fraction ← behind (literal ".") (version.dropWhile isDigit)
  let minor := fraction.takeWhile isDigit
  let cameraId ← behind (literal "/legacy/") (fraction.dropWhile isDigit)
  if major ≠ [] ∧ minor ≠ [] ∧ cameraId ≠ [] ∧ cameraId.all isAny then
    some (major ++ literal "." ++ minor, cameraId)
  else none

def CAMERA_DEVICE_API_VERSION_1_0 : ℤ := 0x100
def CAMERA_DEVICE_API_VERSION_3_2 : ℤ := 0x302
def CAMERA_DEVICE_API_VERSION_3_3 : ℤ := 0x303
def CAMERA_DEVICE_API_VERSION_3_4 : ℤ := 0x304

def kHAL3_2 : CString := literal "3.2"
def kHAL1_0 : CString := literal "1.0"
def kMaxCameraDeviceNameLen : ℕ := 128

/-- The device versions that have names. -/
def Supported (deviceVersion : ℤ) : Prop :=
  deviceVersion = CAMERA_DEVICE_API_VERSION_1_0 ∨ deviceVersion = CAMERA_DEVICE_API_VERSION_3_2 ∨
    deviceVersion = CAMERA_DEVICE_API_VERSION_3_3 ∨ deviceVersion = CAMERA_DEVICE_API_VERSION_3_4

instance (deviceVersion : ℤ) : Decidable (Supported deviceVersion) :=
  inferInstanceAs (Decidable (_ ∨ _ ∨ _ ∨ _))

def versionStr (deviceVersion : ℤ) : CString :=
  if deviceVersion = CAMERA_DEVICE_API_VERSION_1_0 then kHAL1_0 else kHAL3_2

/-- snprintf leaves room for the terminator. -/
def getHidlDeviceName (cameraId : CString) (deviceVersion : ℤ) : CString :=
  if Supported deviceVersion then
    (literal "device@" ++ versionStr deviceVersion ++ literal "/legacy/" ++ cameraId).take
      (kMaxCameraDeviceNameLen - 1)
  else []

/-! ## What the expression takes -/

theorem behind_eq_some_iff {part s t : CString} : behind part s = some t ↔ s = part ++ t := by
  unfold behind
  constructor
  · intro h
    split at h
    · next hpart =>
      cases h
      exact (List.prefix_iff_eq_append.mp hpart).symm
    · cases h
  · rintro rfl
    rw [if_pos (List.prefix_append part t), List.drop_left]

theorem span_digits {s t : CString} (hs : ∀ c ∈ s, isDigit c = true)
    (ht : EndsNumber t) : (s ++ t).takeWhile isDigit = s ∧ (s ++ t).dropWhile isDigit = t := by
  have hstop : t.takeWhile isDigit = [] ∧ t.dropWhile isDigit = t := by
    cases t with
    | nil => exact ⟨rfl, rfl⟩
    | cons c t =>
      have hc : isDigit c = false := ht c rfl
      exact ⟨List.takeWhile_cons_of_neg (by simp [hc]), List.dropWhile_cons_of_neg (by simp [hc])⟩
  constructor
  · rw [List.takeWhile_append_of_pos hs, hstop.1, List.append_nil]
  · rw [List.dropWhile_append_of_pos hs, hstop.2]

/-- A non-empty string of digits. -/
def IsNumber (s : CString) : Prop := s ≠ [] ∧ ∀ c ∈ s, isDigit c = true

/-- The expression as a language: it takes these names apart and no others. -/
theorem matchDeviceName_eq_some_iff {s version cameraId : CString} :
    matchDeviceName s = some (version, cameraId) ↔
      ∃ major minor, IsNumber major ∧ IsNumber minor ∧ version = major ++ literal "." ++ minor ∧
        cameraId ≠ [] ∧ (∀ c ∈ cameraId, isAny c = true) ∧
        s = literal "device@" ++ version ++ literal "/legacy/" ++ cameraId := by
  constructor
  · intro h
    obtain ⟨rest, hrest, h⟩ := Option.bind_eq_some_iff.mp h
    obtain ⟨fraction, hfraction, h⟩ := Option.bind_eq_some_iff.mp h
    obtain ⟨id, hid, h⟩ := Option.bind_eq_some_iff.mp h
    obtain ⟨⟨hmajor, hminor, hne, hany⟩, h⟩ := Option.ite_some_none_eq_some.mp h
    cases h
    refine ⟨_, _, ⟨hmajor, List.all_eq_true.mp List.all_takeWhile⟩,
      ⟨hminor, List.all_eq_true.mp List.all_takeWhile⟩, rfl, hne, List.all_eq_true.mp hany, ?_⟩
    rw [behind_eq_some_iff.mp hrest]
    have hsplit := List.takeWhile_append_dropWhile (p := isDigit) (l := rest)
    rw [behind_eq_some_iff.mp hfraction] at hsplit
    have hsplit' := List.takeWhile_append_dropWhile (p := isDigit) (l := fraction)
    rw [behind_eq_some_iff.mp hid] at hsplit'
    simp only [List.append_assoc, hsplit', hsplit]
  · rintro ⟨major, minor, hmajor, hminor, rfl, hne, hany, rfl⟩
    have hdot : EndsNumber (literal "." ++ (minor ++ (literal "/legacy/" ++ cameraId))) := by
      rintro c ⟨⟩
      decide
    have hslash : EndsNumber (literal "/legacy/" ++ cameraId) := by
      rintro c ⟨⟩
      decide
    have hfirst := span_digits hmajor.2 hdot
    have hsecond := span_digits hminor.2 hslash
    simp only [matchDeviceName, List.append_assoc, behind_eq_some_iff.mpr rfl, Option.bind_eq_bind,
      Option.bind_some, hfirst.1, hfirst.2, hsecond.1, hsecond.2]
    rw [if_pos ⟨hmajor.1, hminor.1, hne, List.all_eq_true.mpr hany⟩]

/-! ## Names given and taken back -/

/-- The longest id that a name has room for. -/
def maxIdLength : ℕ := kMaxCameraDeviceNameLen - 1 - (literal "device@1.0/legacy/").length

theorem isNumber_singleton {c : UInt8} (h : isDigit c = true) : IsNumber [c] := by
  refine ⟨List.cons_ne_nil _ _, fun d hd => ?_⟩
  rw [List.mem_singleton.mp hd, h]

theorem versionStr_split (deviceVersion : ℤ) : ∃ major minor, IsNumber major ∧ IsNumber minor ∧
    versionStr deviceVersion = major ++ literal "." ++ minor := by
  unfold versionStr
  split
  · exact ⟨[49], [48], isNumber_singleton rfl, isNumber_singleton rfl, rfl⟩
  · exact ⟨[51], [50], isNumber_singleton rfl, isNumber_singleton rfl, rfl⟩

theorem getHidlDeviceName_eq {deviceVersion : ℤ} (h : Supported deviceVersion)
    (cameraId : CString) : getHidlDeviceName cameraId deviceVersion =
      literal "device@" ++ versionStr deviceVersion ++ literal "/legacy/" ++
        cameraId.take maxIdLength := by
  have hlength : (versionStr deviceVersion).length = 3 := by
    unfold versionStr
    split <;> rfl
  rw [getHidlDeviceName, if_pos h, List.take_append]
  congr 1
  · refine List.take_of_length_le ?_
    simp only [List.length_append, hlength]
    decide
  · congr 1
    simp only [List.length_append, hlength]
    decide

theorem match_getHidlDeviceName {deviceVersion : ℤ} (h : Supported deviceVersion)
    {cameraId : CString} (hne : cameraId ≠ []) (hany : ∀ c ∈ cameraId, isAny c = true)
    (hfits : cameraId.length ≤ maxIdLength) :
    matchDeviceName (getHidlDeviceName cameraId deviceVersion) =
      some (versionStr deviceVersion, cameraId) := by
  rw [matchDeviceName_eq_some_iff, getHidlDeviceName_eq h]
  obtain ⟨major, minor, hmajor, hminor, hversion⟩ := versionStr_split deviceVersion
  exact ⟨major, minor, hmajor, hminor, hversion, hne, hany, by rw [List.take_of_length_le hfits]⟩

/-- A name is taken back to the version and the id it was made of exactly when the id is not empty,
has no line break and fits. -/
theorem match_getHidlDeviceName_iff {deviceVersion : ℤ} (h : Supported deviceVersion)
    (cameraId : CString) :
    matchDeviceName (getHidlDeviceName cameraId deviceVersion) =
        some (versionStr deviceVersion, cameraId) ↔
      cameraId ≠ [] ∧ (∀ c ∈ cameraId, isAny c = true) ∧ cameraId.length ≤ maxIdLength := by
  refine ⟨fun hmatch => ?_, fun hid => match_getHidlDeviceName h hid.1 hid.2.1 hid.2.2⟩
  rw [matchDeviceName_eq_some_iff, getHidlDeviceName_eq h] at hmatch
  obtain ⟨major, minor, -, -, -, hne, hany, heq⟩ := hmatch
  have htake := List.append_cancel_left heq
  have hlength := congrArg List.length htake
  rw [List.length_take] at hlength
  exact ⟨hne, hany, by omega⟩

theorem match_getHidlDeviceName_iff_first :
    matchDeviceName (getHidlDeviceName (literal "0") 0x302) = some (versionStr 0x302, literal "0") ↔
      literal "0" ≠ [] ∧ (∀ c ∈ literal "0", isAny c = true) ∧
        (literal "0").length ≤ maxIdLength :=
  match_getHidlDeviceName_iff (by decide) (literal "0")

theorem isAny_of_digit {c : UInt8} (hc : digitValue c < 10) : isAny c = true := by
  have hspace := (ne_of_digit c hc).1
  refine decide_eq_true ⟨?_, ?_⟩
  · rintro rfl
    cases hspace
  · rintro rfl
    cases hspace

theorem isAny_printInt {x : ℤ} {c : UInt8} (hc : c ∈ printInt x) : isAny c = true := by
  have hdigit : ∀ c ∈ decimal x.natAbs, isAny c = true := fun c hc =>
    isAny_of_digit ((decimal_isDecimal _).2 c hc)
  unfold printInt at hc
  split at hc
  · rcases List.mem_cons.mp hc with rfl | hc
    · decide
    · exact hdigit c hc
  · exact hdigit c hc

theorem printInt_ne_nil (x : ℤ) : printInt x ≠ [] := by
  unfold printInt
  split
  · exact List.cons_ne_nil _ _
  · exact (decimal_isDecimal _).1

theorem match_printInt {deviceVersion : ℤ} (h : Supported deviceVersion) (x : Int32) :
    matchDeviceName (getHidlDeviceName (printInt x.toInt) deviceVersion) =
      some (versionStr deviceVersion, printInt x.toInt) := by
  refine match_getHidlDeviceName h (printInt_ne_nil _) (fun c hc => isAny_printInt hc) ?_
  exact (printInt_length_le x).trans (by decide)

end CameraDeviceNames
