import VendorMediatek.CountedArrays
import VendorMediatek.RilDispatch

/-!
# CDMA messages for the vendor

constructCdmaSms and cdmaNewSmsInd of ril_service.cpp. ril_cdma_sms.h is not part of the repository:
the lengths of the three arrays and the types of their counts are parameters. These lengths are
constants of type int and a count is no wider than an int, so that digitLimit holds the lesser of
the two.
-/

namespace CdmaSms

open CountedArrays
open RilDispatch (CdmaSmsMessage boolToInt)

/-- RIL_CDMA_SMS_ADDRESS_MAX, RIL_CDMA_SMS_SUBADDRESS_MAX, RIL_CDMA_SMS_BEARER_DATA_MAX, and the
types of the two number_of_digits and of uBearerDataLen. -/
structure Header where
  addressMax : ℕ
  subaddressMax : ℕ
  bearerDataMax : ℕ
  addressDigits : IntType
  subaddressDigits : IntType
  bearerDataLen : IntType

structure Address (header : Header) where
  digitMode : UInt32
  numberMode : UInt32
  numberType : UInt32
  numberPlan : UInt32
  numberOfDigits : ℤ
  digits : Vector UInt8 header.addressMax

structure Subaddress (header : Header) where
  subaddressType : UInt32
  odd : UInt32
  numberOfDigits : ℤ
  digits : Vector UInt8 header.subaddressMax

structure Message (header : Header) where
  uTeleserviceID : UInt32
  bIsServicePresent : UInt32
  uServicecategory : UInt32
  sAddress : Address header
  sSubAddress : Subaddress header
  uBearerDataLen : ℤ
  aBearerData : Vector UInt8 header.bearerDataMax

variable {header : Header}

def constructCdmaSms (rcsm : Message header) (sms : CdmaSmsMessage) : Option (Message header) := do
  let (addressCount, addressDigits) ←
    fill header.addressDigits sms.address.digits rcsm.sAddress.digits
  let (subaddressCount, subaddressDigits) ←
    fill header.subaddressDigits sms.subAddress.digits rcsm.sSubAddress.digits
  let (uBearerDataLen, aBearerData) ← fill header.bearerDataLen sms.bearerData rcsm.aBearerData
  return {
    uTeleserviceID := sms.teleserviceId
    bIsServicePresent := boolToInt sms.isServicePresent
    uServicecategory := sms.serviceCategory
    sAddress := {
      digitMode := sms.address.digitMode
      numberMode := sms.address.numberMode
      numberType := sms.address.numberType
      numberPlan := sms.address.numberPlan
      numberOfDigits := addressCount
      digits := addressDigits }
    sSubAddress := {
      subaddressType := sms.subAddress.subaddressType
      odd := boolToInt sms.subAddress.odd
      numberOfDigits := subaddressCount
      digits := subaddressDigits }
    uBearerDataLen := uBearerDataLen
    aBearerData := aBearerData }

/-- Each array with its count is the beginning of what the message has. -/
structure Readable (rcsm : Message header) (sms : CdmaSmsMessage) : Prop where
  address : Counted rcsm.sAddress.numberOfDigits rcsm.sAddress.digits sms.address.digits
  subAddress : Counted rcsm.sSubAddress.numberOfDigits rcsm.sSubAddress.digits
    sms.subAddress.digits
  bearerData : Counted rcsm.uBearerDataLen rcsm.aBearerData sms.bearerData

/-- The sizes, as far as the counts hold them, are within the arrays. -/
structure Fits (header : Header) (sms : CdmaSmsMessage) : Prop where
  address : header.addressDigits.Fits sms.address.digits.length header.addressMax
  subAddress : header.subaddressDigits.Fits sms.subAddress.digits.length header.subaddressMax
  bearerData : header.bearerDataLen.Fits sms.bearerData.length header.bearerDataMax

theorem constructCdmaSms_eq (rcsm : Message header) (sms : CdmaSmsMessage) :
    ∃ filled, constructCdmaSms rcsm sms = some filled ∧
      (Counted filled.sAddress.numberOfDigits filled.sAddress.digits sms.address.digits ↔
        header.addressDigits.Fits sms.address.digits.length header.addressMax) ∧
      (Counted filled.sSubAddress.numberOfDigits filled.sSubAddress.digits sms.subAddress.digits ↔
        header.subaddressDigits.Fits sms.subAddress.digits.length header.subaddressMax) ∧
      (Counted filled.uBearerDataLen filled.aBearerData sms.bearerData ↔
        header.bearerDataLen.Fits sms.bearerData.length header.bearerDataMax) := by
  obtain ⟨address, haddress, addressIff⟩ :=
    fill_eq header.addressDigits sms.address.digits rcsm.sAddress.digits
  obtain ⟨subaddress, hsubaddress, subaddressIff⟩ :=
    fill_eq header.subaddressDigits sms.subAddress.digits rcsm.sSubAddress.digits
  obtain ⟨bearerData, hbearerData, bearerDataIff⟩ :=
    fill_eq header.bearerDataLen sms.bearerData rcsm.aBearerData
  rw [constructCdmaSms, haddress, hsubaddress, hbearerData]
  exact ⟨_, rfl, addressIff, subaddressIff, bearerDataIff⟩

/-- A consumer that reads as many bytes as the counts say reads the beginning of the input exactly
when the sizes as the counts hold them are within the arrays. -/
theorem constructCdmaSms_readable_iff (rcsm : Message header) (sms : CdmaSmsMessage) :
    ∃ filled, constructCdmaSms rcsm sms = some filled ∧
      (Readable filled sms ↔ Fits header sms) := by
  obtain ⟨filled, hfilled, address, subAddress, bearerData⟩ := constructCdmaSms_eq rcsm sms
  refine ⟨filled, hfilled, ?_⟩
  constructor
  · rintro ⟨haddress, hsubAddress, hbearerData⟩
    exact ⟨address.mp haddress, subAddress.mp hsubAddress, bearerData.mp hbearerData⟩
  · rintro ⟨haddress, hsubAddress, hbearerData⟩
    exact ⟨address.mpr haddress, subAddress.mpr hsubAddress, bearerData.mpr hbearerData⟩

/-- Counts of unsigned char and int beside arrays of 36, 36 and 255 bytes. -/
def unsignedCharCounts : Header := ⟨36, 36, 255, ⟨8, false⟩, ⟨8, false⟩, ⟨32, true⟩⟩

def longAddress : CdmaSmsMessage where
  teleserviceId := 4098
  isServicePresent := false
  serviceCategory := 0
  address := ⟨0, 0, 0, 0, List.replicate 37 1⟩
  subAddress := ⟨0, false, []⟩
  bearerData := [1, 2, 3]

def zeroed (header : Header) : Message header where
  uTeleserviceID := 0
  bIsServicePresent := 0
  uServicecategory := 0
  sAddress := ⟨0, 0, 0, 0, 0, Vector.replicate header.addressMax 0⟩
  sSubAddress := ⟨0, 0, 0, Vector.replicate header.subaddressMax 0⟩
  uBearerDataLen := 0
  aBearerData := Vector.replicate header.bearerDataMax 0

/-- The loop stops at the end of the array, but the count is stored as it is. -/
theorem longAddress_not_readable :
    ¬ ∀ sms, ∃ filled, constructCdmaSms (zeroed unsignedCharCounts) sms = some filled ∧
      Readable filled sms := by
  intro h
  obtain ⟨filled, hfilled, readable⟩ := h longAddress
  obtain ⟨filled', hfilled', address, -⟩ :=
    constructCdmaSms_eq (zeroed unsignedCharCounts) longAddress
  cases hfilled.symm.trans hfilled'
  exact absurd (address.mp readable.address) (by decide)

/-! ## The way back -/

/-- The message that goes to cdmaNewSms for the structure of a response; none where a list would be
set to more than its array. -/
def cdmaNewSmsInd (rilMsg : Message header) : Option CdmaSmsMessage := do
  let addressDigits ← clamped rilMsg.sAddress.numberOfDigits rilMsg.sAddress.digits
  let subaddressDigits ← clamped rilMsg.sSubAddress.numberOfDigits rilMsg.sSubAddress.digits
  let bearerData ← clamped rilMsg.uBearerDataLen rilMsg.aBearerData
  return {
    teleserviceId := rilMsg.uTeleserviceID
    isServicePresent := rilMsg.bIsServicePresent != 0
    serviceCategory := rilMsg.uServicecategory
    address := {
      digitMode := rilMsg.sAddress.digitMode
      numberMode := rilMsg.sAddress.numberMode
      numberType := rilMsg.sAddress.numberType
      numberPlan := rilMsg.sAddress.numberPlan
      digits := addressDigits }
    subAddress := {
      subaddressType := rilMsg.sSubAddress.subaddressType
      odd := rilMsg.sSubAddress.odd != 0
      digits := subaddressDigits }
    bearerData := bearerData }

/-- The message with its three lists cut to the arrays. -/
def cut (header : Header) (sms : CdmaSmsMessage) : CdmaSmsMessage :=
  { sms with
    address := { sms.address with digits := sms.address.digits.take header.addressMax }
    subAddress := { sms.subAddress with digits := sms.subAddress.digits.take header.subaddressMax }
    bearerData := sms.bearerData.take header.bearerDataMax }

/-- The counts keep the sizes apart as far as the arrays go. -/
structure Keeps (header : Header) (sms : CdmaSmsMessage) : Prop where
  address : header.addressDigits.Keeps sms.address.digits.length header.addressMax
  subAddress : header.subaddressDigits.Keeps sms.subAddress.digits.length header.subaddressMax
  bearerData : header.bearerDataLen.Keeps sms.bearerData.length header.bearerDataMax

theorem boolToInt_ne_zero (b : Bool) : (boolToInt b != 0) = b := by cases b <;> rfl

theorem roundTrip_iff (rcsm : Message header) (sms : CdmaSmsMessage) :
    (constructCdmaSms rcsm sms).bind cdmaNewSmsInd = some (cut header sms) ↔
      header.addressDigits.Keeps sms.address.digits.length header.addressMax ∧
        header.subaddressDigits.Keeps sms.subAddress.digits.length header.subaddressMax ∧
        header.bearerDataLen.Keeps sms.bearerData.length header.bearerDataMax := by
  obtain ⟨address, haddress, addressIff⟩ :=
    clamped_fill header.addressDigits sms.address.digits rcsm.sAddress.digits
  obtain ⟨subaddress, hsubaddress, subaddressIff⟩ :=
    clamped_fill header.subaddressDigits sms.subAddress.digits rcsm.sSubAddress.digits
  obtain ⟨bearerData, hbearerData, bearerDataIff⟩ :=
    clamped_fill header.bearerDataLen sms.bearerData rcsm.aBearerData
  rw [constructCdmaSms, haddress, hsubaddress, hbearerData]
  simp only [Option.bind_eq_bind, Option.bind_some, Option.pure_def, cdmaNewSmsInd,
    boolToInt_ne_zero]
  constructor
  · intro h
    obtain ⟨addressDigits, ha, h⟩ := Option.bind_eq_some_iff.mp h
    obtain ⟨subaddressDigits, hs, h⟩ := Option.bind_eq_some_iff.mp h
    obtain ⟨data, hb, h⟩ := Option.bind_eq_some_iff.mp h
    cases Option.some_inj.mp h
    exact ⟨addressIff.mp ha, subaddressIff.mp hs, bearerDataIff.mp hb⟩
  · rintro ⟨ha, hs, hb⟩
    rw [addressIff.mpr ha, subaddressIff.mpr hs, bearerDataIff.mpr hb]
    rfl

/-- Back and forth a message is cut to the arrays, and otherwise unchanged, exactly when the counts
keep its three sizes apart. -/
theorem cdmaNewSmsInd_constructCdmaSms_iff (rcsm : Message header) (sms : CdmaSmsMessage) :
    (constructCdmaSms rcsm sms).bind cdmaNewSmsInd = some (cut header sms) ↔ Keeps header sms := by
  rw [roundTrip_iff]
  constructor
  · rintro ⟨haddress, hsubAddress, hbearerData⟩
    exact ⟨haddress, hsubAddress, hbearerData⟩
  · rintro ⟨haddress, hsubAddress, hbearerData⟩
    exact ⟨haddress, hsubAddress, hbearerData⟩

def roundAddress : CdmaSmsMessage where
  teleserviceId := 4098
  isServicePresent := false
  serviceCategory := 0
  address := ⟨0, 0, 0, 0, List.replicate 256 1⟩
  subAddress := ⟨0, false, []⟩
  bearerData := [1, 2, 3]

/-- The count of the 256 digits is 0, before the code takes the minimum. -/
theorem roundAddress_lost :
    ¬ ∀ sms, (constructCdmaSms (zeroed unsignedCharCounts) sms).bind cdmaNewSmsInd =
      some (cut unsignedCharCounts sms) := by
  intro h
  obtain ⟨address, -, -⟩ := (roundTrip_iff _ _).mp (h roundAddress)
  have hlength : roundAddress.address.digits.length = 256 := List.length_replicate ..
  rw [hlength] at address
  exact absurd address (by decide)

end CdmaSms
