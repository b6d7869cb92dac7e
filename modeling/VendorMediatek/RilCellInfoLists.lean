import VendorMediatek.RilStringAnswers

/-!
# Lists of cells

convertRilCellInfoListToHal of ril_service.cpp and its two callers, as MTK_HARDWARE builds them: the
data is an array of pointers to RIL_CellInfo, but its length is tested and divided by the size of a
RIL_CellInfo_v12.
-/

namespace RilCellInfoLists

open CStrings Faults
open RilDispatch (Abi)
open RilStringAnswers (Answer)

/-- The member of the union that cellInfoType tells, with the fields that are read of it. -/
inductive RilCell where
  | gsm (mcc mnc lac cid signalStrength bitErrorRate : ℤ)
  | cdma (networkId systemId basestationId longitude latitude : ℤ)
      (cdmaDbm cdmaEcio evdoDbm evdoEcio signalNoiseRatio : ℤ)
  | lte (mcc mnc ci pci tac signalStrength rsrp rsrq rssnr cqi : ℤ)
  | wcdma (mcc mnc lac cid psc signalStrength bitErrorRate : ℤ)
  | tdscdma (mcc mnc lac cid cpid rscp : ℤ)
  | other (cellInfoType : ℤ)
  deriving DecidableEq, Repr

structure RilCellInfo where
  registered : ℤ
  timeStampType : ℤ
  timeStamp : UInt64
  cell : RilCell
  deriving DecidableEq, Repr

def RilCell.cellInfoType : RilCell → ℤ
  | .gsm .. => 1
  | .cdma .. => 2
  | .lte .. => 3
  | .wcdma .. => 4
  | .tdscdma .. => 5
  | .other t => t

structure CellInfoGsm where
  mcc : String
  mnc : String
  lac : ℤ
  cid : ℤ
  signalStrength : ℤ
  bitErrorRate : ℤ
  deriving DecidableEq, Repr

structure CellInfoCdma where
  networkId : ℤ
  systemId : ℤ
  baseStationId : ℤ
  longitude : ℤ
  latitude : ℤ
  cdmaDbm : ℤ
  cdmaEcio : ℤ
  evdoDbm : ℤ
  evdoEcio : ℤ
  signalNoiseRatio : ℤ
  deriving DecidableEq, Repr

structure CellInfoLte where
  mcc : String
  mnc : String
  ci : ℤ
  pci : ℤ
  tac : ℤ
  signalStrength : ℤ
  rsrp : ℤ
  rsrq : ℤ
  rssnr : ℤ
  cqi : ℤ
  deriving DecidableEq, Repr

structure CellInfoWcdma where
  mcc : String
  mnc : String
  lac : ℤ
  cid : ℤ
  psc : ℤ
  signalStrength : ℤ
  bitErrorRate : ℤ
  deriving DecidableEq, Repr

structure CellInfoTdscdma where
  mcc : String
  mnc : String
  lac : ℤ
  cid : ℤ
  cpid : ℤ
  rscp : ℤ
  deriving DecidableEq, Repr

structure CellInfo where
  cellInfoType : ℤ
  registered : Bool
  timeStampType : ℤ
  timeStamp : UInt64
  gsm : List CellInfoGsm
  cdma : List CellInfoCdma
  lte : List CellInfoLte
  wcdma : List CellInfoWcdma
  tdscdma : List CellInfoTdscdma
  deriving DecidableEq, Repr

/-- What records.resize leaves in a new element. -/
def CellInfo.new : CellInfo := ⟨0, false, 0, 0, [], [], [], [], []⟩

/-- resize(1), and what is then assigned to element 0. -/
def single {α : Type} (new a : α) : Checked (List α) := do
  put (← resize 1 new) 0 a

/-- One turn of the loop. -/
def convertRilCellInfo (rilCellInfo : RilCellInfo) : Checked CellInfo :=
  let record : CellInfo := { CellInfo.new with
    cellInfoType := rilCellInfo.cell.cellInfoType
    registered := rilCellInfo.registered != 0
    timeStampType := rilCellInfo.timeStampType
    timeStamp := rilCellInfo.timeStamp }
  match rilCellInfo.cell with
  | .gsm mcc mnc lac cid signalStrength bitErrorRate => do
    let gsm ← single ⟨"", "", 0, 0, 0, 0⟩
      ⟨toString mcc, toString mnc, lac, cid, signalStrength, bitErrorRate⟩
    return { record with gsm := gsm }
  | .cdma networkId systemId basestationId longitude latitude cdmaDbm cdmaEcio evdoDbm evdoEcio
      signalNoiseRatio => do
    let cdma ← single ⟨0, 0, 0, 0, 0, 0, 0, 0, 0, 0⟩
      ⟨networkId, systemId, basestationId, longitude, latitude, cdmaDbm, cdmaEcio, evdoDbm,
        evdoEcio, signalNoiseRatio⟩
    return { record with cdma := cdma }
  | .lte mcc mnc ci pci tac signalStrength rsrp rsrq rssnr cqi => do
    let lte ← single ⟨"", "", 0, 0, 0, 0, 0, 0, 0, 0⟩
      ⟨toString mcc, toString mnc, ci, pci, tac, signalStrength, rsrp, rsrq, rssnr, cqi⟩
    return { record with lte := lte }
  | .wcdma mcc mnc lac cid psc signalStrength bitErrorRate => do
    let wcdma ← single ⟨"", "", 0, 0, 0, 0, 0⟩
      ⟨toString mcc, toString mnc, lac, cid, psc, signalStrength, bitErrorRate⟩
    return { record with wcdma := wcdma }
  | .tdscdma mcc mnc lac cid cpid rscp => do
    let tdscdma ← single ⟨"", "", 0, 0, 0, 0⟩
      ⟨toString mcc, toString mnc, lac, cid, cpid, rscp⟩
    return { record with tdscdma := tdscdma }
  | .other _ => return record

/-- How many ints the largest member of RIL_CellInfo_v12's union has: of GSM, WCDMA, CDMA, LTE and
TD-SCDMA, the identity and the signal strengths. -/
def unionInts : ℕ := [6 + 3, 6 + 2, 5 + 2 + 3, 6 + 6, 5 + 1].foldl max 0

/-- sizeof(RIL_CellInfo_v12): three ints, the time stamp on a multiple of 8, and the union. -/
def sizeofCellInfoV12 : ℕ := 16 + 8 + 4 * unionInts

def convertRilCellInfoListToHal (response : List RilCellInfo) (responseLen : ℕ) :
    Checked (List CellInfo) :=
  fillVector (toInt (responseLen / sizeofCellInfoV12 : ℕ)) CellInfo.new response convertRilCellInfo

def getCellInfoListResponse (client : Bool) (response : Option (List RilCellInfo))
    (responseLen : ℕ) : Checked (Option (Answer (List CellInfo))) :=
  if client = false then return none
  else match response with
    | none => return some ⟨true, []⟩
    | some cells =>
      if responseLen % sizeofCellInfoV12 ≠ 0 then return some ⟨true, []⟩
      else do return some ⟨false, ← convertRilCellInfoListToHal cells responseLen⟩

/-- The records that go to the client, unless the data is refused. -/
def cellInfoListInd (client : Bool) (response : Option (List RilCellInfo)) (responseLen : ℕ) :
    Checked (Option (List CellInfo)) :=
  if client = false then return none
  else match response with
    | none => return none
    | some cells =>
      if responseLen % sizeofCellInfoV12 ≠ 0 then return none
      else do return some (← convertRilCellInfoListToHal cells responseLen)

/-! ## What the client should get -/

/-- One record, with the fields of its entry in the vector of its type. -/
def CellInfo.ofRil (rilCellInfo : RilCellInfo) : CellInfo :=
  let record : CellInfo := { CellInfo.new with
    cellInfoType := rilCellInfo.cell.cellInfoType
    registered := rilCellInfo.registered != 0
    timeStampType := rilCellInfo.timeStampType
    timeStamp := rilCellInfo.timeStamp }
  match rilCellInfo.cell with
  | .gsm mcc mnc lac cid signalStrength bitErrorRate =>
    { record with gsm := [⟨toString mcc, toString mnc, lac, cid, signalStrength, bitErrorRate⟩] }
  | .cdma networkId systemId basestationId longitude latitude cdmaDbm cdmaEcio evdoDbm evdoEcio
      signalNoiseRatio =>
    { record with cdma := [⟨networkId, systemId, basestationId, longitude, latitude, cdmaDbm,
        cdmaEcio, evdoDbm, evdoEcio, signalNoiseRatio⟩] }
  | .lte mcc mnc ci pci tac signalStrength rsrp rsrq rssnr cqi =>
    { record with lte := [⟨toString mcc, toString mnc, ci, pci, tac, signalStrength, rsrp, rsrq,
        rssnr, cqi⟩] }
  | .wcdma mcc mnc lac cid psc signalStrength bitErrorRate =>
    { record with wcdma := [⟨toString mcc, toString mnc, lac, cid, psc, signalStrength,
        bitErrorRate⟩] }
  | .tdscdma mcc mnc lac cid cpid rscp =>
    { record with tdscdma := [⟨toString mcc, toString mnc, lac, cid, cpid, rscp⟩] }
  | .other _ => record

theorem convertRilCellInfo_eq (rilCellInfo : RilCellInfo) :
    convertRilCellInfo rilCellInfo = .ok (CellInfo.ofRil rilCellInfo) := by
  rw [convertRilCellInfo, CellInfo.ofRil]
  cases rilCellInfo.cell <;> rfl

theorem pointer_lt (abi : Abi) : 0 < abi.pointer ∧ abi.pointer < sizeofCellInfoV12 := by
  cases abi <;> decide

/-- The quotient counts fewer records than there are pointers, unless there are none. -/
theorem quotient_lt (abi : Abi) {n : ℕ} (hn : n ≠ 0) : n * abi.pointer / sizeofCellInfoV12 < n := by
  obtain ⟨hpos, hlt⟩ := pointer_lt abi
  refine Nat.div_lt_of_lt_mul ?_
  rw [Nat.mul_comm sizeofCellInfoV12]
  exact Nat.mul_lt_mul_of_pos_left hlt (Nat.pos_of_ne_zero hn)

theorem quotient_le (abi : Abi) (n : ℕ) : n * abi.pointer / sizeofCellInfoV12 ≤ n := by
  rcases eq_or_ne n 0 with rfl | hn
  · rw [Nat.zero_mul, Nat.zero_div]
  · exact Nat.le_of_lt (quotient_lt abi hn)

/-- Where the quotient fits an int, only as many entries as it counts are converted. -/
theorem convertRilCellInfoListToHal_eq (abi : Abi) (cells : List RilCellInfo)
    (hint : cells.length * abi.pointer / sizeofCellInfoV12 < 2 ^ 31) :
    convertRilCellInfoListToHal cells (cells.length * abi.pointer) =
      .ok ((cells.take (cells.length * abi.pointer / sizeofCellInfoV12)).map CellInfo.ofRil) := by
  have hle := quotient_le abi cells.length
  rw [convertRilCellInfoListToHal, (toInt_natCast_eq_iff _).mpr hint,
    fillVector_eq (Int.natCast_nonneg _) (Int.ofNat_le.mpr hle), Int.toNat_natCast]
  exact mapM_eq_ok_map.mpr fun cell _ => convertRilCellInfo_eq cell

theorem convertRilCellInfoListToHal_iff (abi : Abi) (cells : List RilCellInfo) :
    convertRilCellInfoListToHal cells (cells.length * abi.pointer) =
      .ok (cells.map CellInfo.ofRil) ↔ cells = [] := by
  have hle := toInt_natCast_le (cells.length * abi.pointer / sizeofCellInfoV12)
  have hquotient := quotient_le abi cells.length
  rw [convertRilCellInfoListToHal, fillVector_eq_map_iff (by omega)]
  constructor
  · rintro ⟨hnum, -⟩
    by_contra hne
    have hlt := quotient_lt abi fun h0 => hne (List.length_eq_zero_iff.mp h0)
    omega
  · rintro rfl
    have hzero : ([] : List RilCellInfo).length * abi.pointer / sizeofCellInfoV12 = 0 := by
      rw [List.length_nil, Nat.zero_mul, Nat.zero_div]
    rw [hzero, List.length_nil]
    exact ⟨(toInt_natCast_eq_iff 0).mpr (Nat.two_pow_pos 31),
      fun cell hcell => absurd hcell List.not_mem_nil⟩

/-- Both functions give the client one record for each entry only when there is none. -/
theorem cellInfoLists_iff (abi : Abi) (cells : List RilCellInfo) :
    (getCellInfoListResponse true (some cells) (cells.length * abi.pointer) =
        .ok (some ⟨false, cells.map CellInfo.ofRil⟩) ↔ cells = []) ∧
      (cellInfoListInd true (some cells) (cells.length * abi.pointer) =
        .ok (some (cells.map CellInfo.ofRil)) ↔ cells = []) := by
  have hconvert := convertRilCellInfoListToHal_iff abi cells
  have hempty : cells = [] → cells.length * abi.pointer % sizeofCellInfoV12 = 0 := by
    rintro rfl
    rw [List.length_nil, Nat.zero_mul, Nat.zero_mod]
  simp only [getCellInfoListResponse, cellInfoListInd, Bool.true_eq_false, if_false]
  by_cases hmod : cells.length * abi.pointer % sizeofCellInfoV12 = 0
  · rw [if_neg (not_not.mpr hmod), if_neg (not_not.mpr hmod), ← hconvert]
    exact ⟨return_eq_ok_iff (g := fun records => some (Answer.mk false records)) fun _ _ h => by
        cases h
        rfl,
      return_eq_ok_iff (g := some) (Option.some_injective _)⟩
  · rw [if_pos hmod, if_pos hmod]
    exact ⟨iff_of_false nofun fun h => hmod (hempty h), iff_of_false nofun fun h => hmod (hempty h)⟩

def gsmCell : RilCellInfo := ⟨1, 1, 5, .gsm 262 1 2 3 20 99⟩

/-- Of nine pointers the first is delivered, and one pointer alone is refused. -/
theorem gsmCell_lost :
    getCellInfoListResponse true (some (List.replicate 9 gsmCell)) 72 =
        .ok (some ⟨false, [CellInfo.ofRil gsmCell]⟩) ∧
      getCellInfoListResponse true (some [gsmCell]) 8 = .ok (some ⟨true, []⟩) ∧
      ¬ ∀ cells : List RilCellInfo,
        getCellInfoListResponse true (some cells) (cells.length * Abi.lp64.pointer) =
          .ok (some ⟨false, cells.map CellInfo.ofRil⟩) := by
  have hrefused : getCellInfoListResponse true (some [gsmCell]) 8 = .ok (some ⟨true, []⟩) := by
    decide
  refine ⟨by decide +kernel, hrefused, fun h => ?_⟩
  exact nomatch hrefused.symm.trans (h [gsmCell])

end RilCellInfoLists
