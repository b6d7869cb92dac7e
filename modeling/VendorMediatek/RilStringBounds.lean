import VendorMediatek.RilStringAnswers

/-!
# What the arrays need

Which data the functions of RilStringAnswers take without a fault.
-/

namespace RilStringBounds

open CStrings Faults RilPayloads RilStringAnswers
open RilDispatch (Abi)

variable {abi : Abi} (p : Payload abi)

/-! ## Registration states -/

/-- An entry is read only below the count, and looked into only when it is not NULL. -/
theorem ok_convertResponseStringEntryToInt (index : ℕ) :
    Ok (convertResponseStringEntryToInt p index) := by
  rw [convertResponseStringEntryToInt]
  split_ifs with h
  · refine (ok_bind_of fun s => ?_).mpr ((ok_string p).mpr ⟨h.1, string_within p h.2⟩)
    cases s with
    | none => exact ok_pure _
    | some s => exact ok_pure _
  · exact ok_pure _

theorem ok_fillCellIdentityFromVoiceRegStateResponseString :
    Ok (fillCellIdentityFromVoiceRegStateResponseString p) ↔ Ok (p.string 3) := by
  have entry := ok_convertResponseStringEntryToInt p
  refine ok_bind_of fun rat => ?_
  cases getCellInfoTypeRadioTechnology abi rat with
  | none => exact ok_pure _
  | gsm | tdScdma | lte => exact ok_seq (entry 1) fun _ => ok_seq (entry 2) fun _ => ok_pure _
  | wcdma =>
    exact ok_seq (entry 1) fun _ => ok_seq (entry 2) fun _ => ok_seq (entry 14) fun _ => ok_pure _
  | cdma =>
    exact ok_seq (entry 4) fun _ => ok_seq (entry 5) fun _ => ok_seq (entry 6) fun _ =>
      ok_seq (entry 8) fun _ => ok_seq (entry 9) fun _ => ok_pure _

theorem ok_fillCellIdentityFromDataRegStateResponseString :
    Ok (fillCellIdentityFromDataRegStateResponseString p) ↔ Ok (p.string 3) := by
  have entry := ok_convertResponseStringEntryToInt p
  refine ok_bind_of fun rat => ?_
  cases getCellInfoTypeRadioTechnology abi rat with
  | none | cdma => exact ok_pure _
  | gsm | tdScdma | wcdma => exact ok_seq (entry 1) fun _ => ok_seq (entry 2) fun _ => ok_pure _
  | lte =>
    exact ok_seq (entry 6) fun _ => ok_seq (entry 7) fun _ => ok_seq (entry 8) fun _ => ok_pure _

theorem ok_optionalEntry (i : ℕ) (defaultVal other : ℤ) :
    Ok (optionalEntry p i defaultVal other) ↔ (4 < p.numStrings → Ok (p.string i)) := by
  unfold optionalEntry
  split_ifs with h
  · rw [ok_bind_of fun s => ok_pure _]
    exact ⟨fun hs _ => hs, fun hs => hs h⟩
  · exact iff_of_true (ok_pure _) fun hs => absurd hs h

theorem ok_readStructure {size : ℕ} (hnull : p.isNull = false) (hsize : p.responseLen = size) :
    Ok (readStructure p size) := by
  refine ok_mapM fun i hi => (ok_int p).mpr ⟨hnull, ?_⟩
  rw [p.ints_length, hsize]
  exact List.mem_range.mp hi

/-- The fourteen strings of an answer are tested for by numStrings < 4 only. -/
theorem ok_getVoiceRegistrationStateResponse (client : Bool) (version : ℤ) :
    Ok (getVoiceRegistrationStateResponse client version p) ↔
      (client = true → p.isNull = true ∨ 14 < version ∨ p.numStrings ≤ 4 ∨
        14 ≤ p.strings.length) := by
  refine ok_unless ?_
  split_ifs with hnull hversion hfew hsize
  · exact iff_of_true (ok_pure _) (.inl hnull)
  · exact iff_of_true (ok_pure _) (.inr (.inr (.inl (by omega))))
  · have hnull := Bool.eq_false_iff.mpr hnull
    have hthree : 3 < p.strings.length := string_within p (by omega)
    refine (ok_bind_iff fun _ => ok_bind_iff fun _ => ok_bind_iff fun _ => ok_bind_iff fun _ =>
      ok_bind_iff fun _ => ok_bind_iff fun _ => ok_bind_iff fun _ => ok_bind_of fun _ =>
        ok_pure _).trans ?_
    simp only [ok_optionalEntry, ok_fillCellIdentityFromVoiceRegStateResponseString, ok_string,
      hnull, true_and]
    constructor
    · rintro ⟨-, -, -, -, -, -, hlast, -⟩
      rcases lt_or_ge 4 p.numStrings with hmore | hfour
      · exact .inr (.inr (.inr (hlast hmore)))
      · exact .inr (.inr (.inl hfour))
    · intro h
      have hmany : ∀ i ≤ 13, 4 < p.numStrings → i < p.strings.length := by
        intro i hi hmore
        rcases h with h | h | h | h
        · cases h
        · omega
        · omega
        · omega
      exact ⟨by omega, hthree, hmany 7 (by decide), hmany 10 (by decide), hmany 11 (by decide),
        hmany 12 (by decide), hmany 13 le_rfl, hthree⟩
  · exact iff_of_true (ok_pure _) (.inr (.inl (by omega)))
  · have hnull := Bool.eq_false_iff.mpr hnull
    refine iff_of_true (ok_seq (ok_readStructure p hnull ?_) fun _ => ok_pure _)
      (.inr (.inl (by omega)))
    exact not_not.mp hsize

/-- The counts that are let through have all the strings that are read. -/
theorem ok_getDataRegistrationStateResponse (client : Bool) (version : ℤ) :
    Ok (getDataRegistrationStateResponse client version p) := by
  rw [getDataRegistrationStateResponse]
  split_ifs with hclient hnull hversion hcount hsize
  · exact ok_pure _
  · exact ok_pure _
  · exact ok_pure _
  · have hnull := Bool.eq_false_iff.mpr hnull
    have hstring : ∀ i : ℕ, (i : ℤ) < p.numStrings → Ok (p.string i) := fun i hi =>
      (ok_string p).mpr ⟨hnull, string_within p hi⟩
    have hthree := hstring 3 (by omega)
    refine ok_seq (hstring 0 (by omega)) fun _ => ok_seq hthree fun _ =>
      ok_seq ((ok_optionalEntry p 4 _ _).mpr fun h => hstring 4 (by omega)) fun _ =>
      ok_seq ((ok_optionalEntry p 5 _ _).mpr fun h => hstring 5 (by omega)) fun _ =>
      ok_seq ((ok_fillCellIdentityFromDataRegStateResponseString p).mpr hthree) fun _ => ok_pure _
  · exact ok_pure _
  · exact ok_seq (ok_readStructure p (Bool.eq_false_iff.mpr hnull) (not_not.mp hsize))
      fun _ => ok_pure _

/-! ## Operators -/

theorem ok_getOperatorResponse (spn : List Spn) (client : Bool) :
    Ok (getOperatorResponse spn client p) ↔
      (client = true → p.isNull = true ∨ p.numStrings = 0 ∨ p.Has 0) := by
  refine ok_unless ?_
  split_ifs with hnone
  · exact iff_of_true (ok_pure _) (hnone.imp id .inl)
  · obtain ⟨hnull, hcount⟩ := not_or.mp hnone
    have hchars : Ok (p.chars 0) ↔ p.Has 0 :=
      (ok_chars p).trans (and_iff_right (Bool.eq_false_iff.mpr hnull))
    refine (ok_bind_of fun s => ?_).trans (hchars.trans ?_)
    · cases getname spn (atoi (8 * abi.pointer) s) with
      | none => exact ok_pure _
      | some name => exact ok_pure _
    · exact ⟨fun h => .inr (.inr h), fun h => (h.resolve_left hnull).resolve_left hcount⟩

/-- Every fourth string is a status. -/
def StatusesGiven : Prop := ∀ j : ℕ, (4 * j + 3 : ℕ) < p.numStrings → p.Has (4 * j + 3)

theorem ok_addNetwork (hnull : p.isNull = false) {j : ℕ} (hj : (4 * j + 3 : ℕ) < p.numStrings)
    {s : Bool × List OperatorInfo} (hs : j < s.2.length) :
    Ok (addNetwork p j s) ↔ p.Has (4 * j + 3) := by
  have hstring : ∀ i ≤ 4 * j + 3, Ok (p.string i) := fun i hi =>
    (ok_string p).mpr ⟨hnull, string_within p (by omega)⟩
  refine (ok_bind_iff fun _ => ok_bind_iff fun _ => ok_bind_iff fun _ => ok_bind_of fun status =>
    ok_seq (ok_put.mpr hs) fun _ => ok_pure _).trans ?_
  rw [ok_chars, and_iff_right (hstring _ (by omega)), and_iff_right (hstring _ (by omega)),
    and_iff_right (hstring _ (by omega)), and_iff_right hnull]

theorem addNetwork_length {j : ℕ} {s t : Bool × List OperatorInfo}
    (h : addNetwork p j s = .ok t) : t.2.length = s.2.length := by
  obtain ⟨_, -, h⟩ := bind_eq_ok.mp h
  obtain ⟨_, -, h⟩ := bind_eq_ok.mp h
  obtain ⟨_, -, h⟩ := bind_eq_ok.mp h
  obtain ⟨_, -, h⟩ := bind_eq_ok.mp h
  obtain ⟨networks, hput, h⟩ := bind_eq_ok.mp h
  cases h
  exact put_length hput

theorem div_pointer_mod {n : ℕ} (h : n % (4 * abi.pointer) = 0) : n / abi.pointer % 4 = 0 := by
  cases abi with
  | ilp32 =>
    simp only [Abi.pointer] at h ⊢
    omega
  | lp64 =>
    simp only [Abi.pointer] at h ⊢
    omega

theorem four_dvd_numStrings (h : p.responseLen % (4 * abi.pointer) = 0) : 4 ∣ p.numStrings := by
  have hcount : p.responseLen / abi.pointer % 4 = 0 := div_pointer_mod h
  have hpow : (2 : ℕ) ^ 32 = 4294967296 := rfl
  rw [Payload.numStrings, toInt, Int.bmod_def, hpow]
  split_ifs <;> omega

theorem ok_getAvailableNetworksResponse (client : Bool) :
    Ok (getAvailableNetworksResponse client p) ↔
      (client = true → p.isNull = true ∨ p.responseLen % (4 * abi.pointer) ≠ 0 ∨
        0 ≤ p.numStrings ∧ StatusesGiven p) := by
  refine ok_unless ?_
  split_ifs with hnone
  · exact iff_of_true (ok_pure _) (hnone.imp id .inl)
  · obtain ⟨hnull, hlen⟩ := not_or.mp hnone
    have hdvd := four_dvd_numStrings p (not_not.mp hlen)
    have hdiv : p.numStrings.tdiv 4 = p.numStrings / 4 := Int.tdiv_eq_ediv_of_dvd hdvd
    rw [or_iff_right hnull, or_iff_right hlen, hdiv]
    by_cases hneg : 0 ≤ p.numStrings / 4
    · obtain ⟨networks, hresize⟩ := ok_resize (a := OperatorInfo.mk [] [] [] 0).mpr hneg
      rw [bind_of_ok hresize, and_iff_right (by omega)]
      refine (ok_bind_of fun _ => ok_pure _).trans ?_
      refine (ok_loop_iff (fun s => s.2.length = (p.numStrings / 4).toNat)
        (fun j => p.Has (4 * j + 3)) (resize_length hresize) (fun j s hj hs => ?_)
        fun j s t _ hs ht => (addNetwork_length p ht).trans hs).trans ?_
      · exact ok_addNetwork p (Bool.eq_false_iff.mpr hnull) (by omega) (by omega)
      · exact ⟨fun h j hj => h j (by omega), fun h j hj => h j (by omega)⟩
    · refine iff_of_false (fun h => ?_) fun h => hneg (by omega)
      obtain ⟨_, hresize, -⟩ := bind_eq_ok.mp h.choose_spec
      exact hneg (ok_resize.mp ⟨_, hresize⟩)

/-! ## Logical channels -/

theorem ok_iccOpenLogicalChannelResponse (client : Bool) :
    Ok (iccOpenLogicalChannelResponse client p) ↔
      (client = true → p.isNull = true ∨ p.responseLen % 4 ≠ 0 ∨ 1 ≤ p.numInts) := by
  refine ok_unless ?_
  split_ifs with hnone
  · exact iff_of_true (ok_pure _) (hnone.imp id .inl)
  · obtain ⟨hnull, hlen⟩ := not_or.mp hnone
    rw [or_iff_right hnull, or_iff_right hlen]
    have hint : ∀ i : ℕ, (i : ℤ) < p.numInts → Ok (p.int i) := fun i hi =>
      (ok_int p).mpr ⟨Bool.eq_false_iff.mpr hnull, int_within p hi⟩
    constructor
    · rintro ⟨_, h⟩
      obtain ⟨_, -, h⟩ := bind_eq_ok.mp h
      obtain ⟨_, hresize, -⟩ := bind_eq_ok.mp h
      have hsize := ok_resize.mp ⟨_, hresize⟩
      omega
    · intro hsome
      refine ok_seq (hint 0 (by omega)) fun channelId => ?_
      obtain ⟨response, hresize⟩ := ok_resize (a := (0 : ℤ)).mpr (show 0 ≤ p.numInts - 1 by omega)
      rw [bind_of_ok hresize]
      refine ok_seq ?_ fun _ => ok_pure _
      refine (ok_loop_iff (fun s => s.length = (p.numInts - 1).toNat) (fun _ => True)
        (resize_length hresize) (fun i s hi hs => ?_) fun i s t _ hs ht => ?_).mpr fun _ _ => trivial
      · exact iff_of_true (ok_seq (hint (i + 1) (by omega)) fun _ => ok_put.mpr (by omega)) trivial
      · obtain ⟨_, -, hput⟩ := bind_eq_ok.mp ht
        exact (put_length hput).trans hs

/-! ## Indications of the vendor -/

theorem ok_int_zero : Ok (p.int 0) ↔ p.isNull = false ∧ 4 ≤ p.responseLen := by
  rw [ok_int, p.ints_length]
  exact and_congr_right fun _ => by omega

theorem ok_registrationSuspendInd (client : Bool) :
    Ok (registrationSuspendInd client p) ↔
      (client = true → p.isNull = false ∧ 4 ≤ p.responseLen) :=
  ok_unless ((ok_bind_of fun _ => ok_pure _).trans (ok_int_zero p))

theorem ok_incomingCallInd (client : Bool) :
    Ok (incomingCallInd client p) ↔
      (client = true → p.isNull = false ∧ p.Has 0 ∧ p.Has 3 ∧ p.Has 4) := by
  refine ok_unless ((ok_bind_iff fun _ => ok_bind_iff fun _ => ok_bind_of fun _ =>
    ok_pure _).trans ?_)
  simp only [ok_chars]
  constructor
  · rintro ⟨⟨hnull, h3⟩, ⟨-, h0⟩, -, h4⟩
    exact ⟨hnull, h0, h3, h4⟩
  · rintro ⟨hnull, h0, h3, h4⟩
    exact ⟨⟨hnull, h3⟩, ⟨hnull, h0⟩, hnull, h4⟩

theorem ok_callInfoInd (client : Bool) :
    Ok (callInfoInd client p) ↔
      (client = true → p.responseLen < 2 ∨ p.isNull = false ∧ p.Has 1) := by
  refine ok_unless ?_
  split_ifs with hlen
  · rw [or_iff_right (not_lt.mpr hlen), ← ok_chars]
    exact ok_bind_of fun _ => ok_pure _
  · exact iff_of_true (ok_pure _) (.inl (not_le.mp hlen))

theorem ok_psNetworkStateChangedInd (client : Bool) :
    Ok (psNetworkStateChangedInd client p) ↔
      (client = true → p.isNull = false ∧ 4 ≤ p.responseLen) :=
  ok_unless ((ok_bind_of fun _ => ok_pure _).trans (ok_int_zero p))

/-! ## All of them -/

inductive Handler where
  | voiceRegistrationState | dataRegistrationState | operator | availableNetworks
  | iccOpenLogicalChannel | registrationSuspend | incomingCall | callInfo | psNetworkStateChanged
  deriving DecidableEq, Repr

/-- The function comes to its end without a fault. -/
def Handler.Safe (spn : List Spn) (client : Bool) (version : ℤ) (p : Payload abi) : Handler → Prop
  | .voiceRegistrationState => Ok (getVoiceRegistrationStateResponse client version p)
  | .dataRegistrationState => Ok (getDataRegistrationStateResponse client version p)
  | .operator => Ok (getOperatorResponse spn client p)
  | .availableNetworks => Ok (getAvailableNetworksResponse client p)
  | .iccOpenLogicalChannel => Ok (iccOpenLogicalChannelResponse client p)
  | .registrationSuspend => Ok (registrationSuspendInd client p)
  | .incomingCall => Ok (incomingCallInd client p)
  | .callInfo => Ok (callInfoInd client p)
  | .psNetworkStateChanged => Ok (psNetworkStateChangedInd client p)

/-- The data that the function takes without a fault. -/
def Handler.Takes (version : ℤ) (p : Payload abi) : Handler → Prop
  | .voiceRegistrationState =>
    p.isNull = true ∨ 14 < version ∨ p.numStrings ≤ 4 ∨ 14 ≤ p.strings.length
  | .dataRegistrationState => True
  | .operator => p.isNull = true ∨ p.numStrings = 0 ∨ p.Has 0
  | .availableNetworks =>
    p.isNull = true ∨ p.responseLen % (4 * abi.pointer) ≠ 0 ∨ 0 ≤ p.numStrings ∧ StatusesGiven p
  | .iccOpenLogicalChannel =>
    p.isNull = true ∨ p.responseLen % 4 ≠ 0 ∨ 1 ≤ p.numInts
  | .registrationSuspend | .psNetworkStateChanged => p.isNull = false ∧ 4 ≤ p.responseLen
  | .incomingCall => p.isNull = false ∧ p.Has 0 ∧ p.Has 3 ∧ p.Has 4
  | .callInfo => p.responseLen < 2 ∨ p.isNull = false ∧ p.Has 1

/-- For each function, exactly the data that it takes without a fault. -/
theorem handler_safe_iff (spn : List Spn) (client : Bool) (version : ℤ) (p : Payload abi)
    (handler : Handler) :
    handler.Safe spn client version p ↔ (client = true → handler.Takes version p) := by
  cases handler with
  | voiceRegistrationState => exact ok_getVoiceRegistrationStateResponse p client version
  | dataRegistrationState =>
    exact iff_of_true (ok_getDataRegistrationStateResponse p client version) fun _ => trivial
  | operator => exact ok_getOperatorResponse p spn client
  | availableNetworks => exact ok_getAvailableNetworksResponse p client
  | iccOpenLogicalChannel => exact ok_iccOpenLogicalChannelResponse p client
  | registrationSuspend => exact ok_registrationSuspendInd p client
  | incomingCall => exact ok_incomingCallInd p client
  | callInfo => exact ok_callInfoInd p client
  | psNetworkStateChanged => exact ok_psNetworkStateChangedInd p client

/-- No data, behind a pointer that is not NULL. -/
def noData : Payload .lp64 := ⟨false, 0, [], [], rfl, rfl⟩

/-- Five strings. -/
def fiveStrings : Payload .lp64 where
  isNull := false
  responseLen := 40
  strings := List.replicate 5 (some (literal "1"))
  ints := List.replicate 10 49
  strings_length := rfl
  ints_length := rfl

theorem two_ints_length : ([0, 0] : List ℤ).length = 8 / 4 := rfl

/-- One string pointer, which is NULL. -/
def nullString : Payload .lp64 := ⟨false, 8, [none], [0, 0], rfl, two_ints_length⟩

theorem handler_faults :
    getVoiceRegistrationStateResponse true 12 fiveStrings = .error .outside ∧
      getOperatorResponse [] true nullString = .error .null ∧
      iccOpenLogicalChannelResponse true noData = .error .outside ∧
      ¬ ∀ (client : Bool) (version : ℤ) (p : Payload .lp64) (handler : Handler),
        handler.Safe [] client version p := by
  refine ⟨by decide, by decide, by decide, fun h => ?_⟩
  obtain ⟨result, hresult⟩ := h true 12 fiveStrings .voiceRegistrationState
  have hfault : getVoiceRegistrationStateResponse true 12 fiveStrings = .error .outside := by
    decide
  exact nomatch hresult.symm.trans hfault

end RilStringBounds
