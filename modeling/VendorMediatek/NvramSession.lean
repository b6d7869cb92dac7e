import Mathlib.Logic.Function.Basic
import VendorMediatek.DataFile
import VendorMediatek.VersionUpdate

/-!
# NVM_GetFileDesc and NVM_CloseFileDesc

The library calls of a session on a lid, on a disk that holds the files of all lids. The
version file is the file of the lid iFileVerInfoLID, and a special lid has its region of the
partition instead. Files open where they exist, and the other
system calls succeed; what the backup region yields is arbitrary at every call.
-/

namespace Nvram

open ByteFile RecordFile

abbrev Disk := ℕ → Option (List UInt8)

def iFileVerInfoLid : ℕ := 0

/-- The tables that the platform links in, and whether the partition of the special lids is
on a device that must be erased, neither eMMC nor UFS. -/
structure Platform where
  tables : Tables
  aPerformance : List ℕ
  aBackupToBinRegion : List (ℕ × List UInt8)
  specialLids : List ℕ
  erasable : Bool

/-- What a call finds outside: the flag file, what the backup region yields for the file of
the lid, and whether the partition passes the tests of its layout and opens. -/
structure Surroundings where
  nvmFlag : Bool
  binRegion : Option (List UInt8)
  partitionFits : Bool
  partitionOpens : Bool

/-- A valid F_ID. -/
structure FId where
  ifileLid : ℕ
  bIsRead : Bool
  deriving DecidableEq, Repr

/-- "Reserved" -/
def reservedName : List UInt8 := [82, 101, 115, 101, 114, 118, 101, 100]

/-- The record at the head of a generated version file. -/
def headerBytes (t : Tables) : List UInt8 :=
  zeroPad fileNameLength strVerInfo ++
    ((t.gAkCfgFile.map TCfgFile.cFileVer).headD (List.replicate fileVerLength 0))

/-- Written from the start of the file, which is not truncated. -/
def nvmGenerateFileVer (t : Tables) (d : Disk) : Disk :=
  let content := headerBytes t ++
    encode ((t.gAkCfgFile ++ t.gAkCfgFileCustom).map TCfgFile.verRecord)
  Function.update d iFileVerInfoLid (some (writeAt ((d iFileVerInfoLid).getD []) 0 content))

/-- The test of NVM_CheckVerFile and what follows it. -/
def ensureVerFile (t : Tables) (d : Disk) : Disk :=
  if (d iFileVerInfoLid).isSome then d else nvmGenerateFileVer t d

/-- NVM_UpdateFileVerNo with VerUpdate; its result is not looked at. -/
def updateFileVer (t : Tables) (lid : ℕ) (d : Disk) : Disk :=
  match d iFileVerInfoLid with
  | none => d
  | some file =>
    match nvmUpdateFileVerNo t lid .verUpdate file with
    | some (_, file') => Function.update d iFileVerInfoLid (some file')
    | none => d

/-- NVM_CmpFileVerNo, with the generation of a missing version file. -/
def cmpFileVer (t : Tables) (lid : ℕ) (d : Disk) : Bool × Disk :=
  match t.cfgFile lid with
  | none => (false, d)
  | some f =>
    if slash ∈ f.cFileName then
      let d := ensureVerFile t d
      (nvmCmpFileVerNo t lid ((d iFileVerInfoLid).getD []), d)
    else (false, d)

/-- An entry that is rejected leaves the file truncated. -/
def nvmResetFileToDefault (p : Platform) (lid : ℕ) (d : Disk) : Bool × Disk :=
  let d := ensureVerFile p.tables d
  match p.tables.cfgFile lid with
  | none => (false, d)
  | some f =>
    if lid = iFileVerInfoLid then (true, nvmGenerateFileVer p.tables d)
    else
      match f.defaultContent with
      | none => (false, Function.update d lid (some []))
      | some content =>
        let d := updateFileVer p.tables lid (Function.update d lid (some content))
        if lid ∈ p.aPerformance then (true, d)
        else (true, Function.update d lid (some (nvmSetCheckNo false content)))

/-- The last part of the restore, NVM_RestoreFromFiles_OneFile, where the region yields a file. -/
def nvmRestoreFromBinRegionOneFile (p : Platform) (env : Surroundings) (lid : ℕ) (d : Disk) :
    Bool × Disk :=
  match env.binRegion with
  | none => (false, d)
  | some content =>
    let d := ensureVerFile p.tables d
    match p.tables.cfgFile lid with
    | none => (false, d)
    | some f =>
      if lid = iFileVerInfoLid then (false, nvmGenerateFileVer p.tables d)
      else if content.length ≠ f.i4RecNum * f.i4RecSize + 2 then (false, d)
      else
        (nvmCheckFile content ∧ nvmCheckFileSize f content ≠ -1,
          Function.update d lid (some content))

/-- The label restore of NVM_ProtectDataFile. -/
def restoreOrReset (p : Platform) (env : Surroundings) (lid : ℕ) (f : TCfgFile) (d : Disk) :
    ℤ × Disk :=
  let restored := if (lid, f.targetName) ∈ p.aBackupToBinRegion then
    nvmRestoreFromBinRegionOneFile p env lid d else (false, d)
  if restored.1 then (1, restored.2)
  else
    let reset := nvmResetFileToDefault p lid restored.2
    (if reset.1 then 1 else 0, reset.2)

def nvmProtectDataFile (p : Platform) (env : Surroundings) (lid : ℕ) (setflag : Bool) (d : Disk) :
    ℤ × Disk :=
  let d := ensureVerFile p.tables d
  match p.tables.cfgFile lid with
  | none => (-1, d)
  | some f =>
    if lid = iFileVerInfoLid then (-1, nvmGenerateFileVer p.tables d)
    else
      match d lid with
      | none => restoreOrReset p env lid f d
      | some file =>
        if nvmCheckFileSize f file = -1 then restoreOrReset p env lid f d
        else if setflag ∨ nvmCheckFileSize f file = 0 then
          (1, Function.update d lid (some (nvmSetCheckNo (nvmCheckFileSize f file ≠ 0) file)))
        else if nvmCheckFile file then (1, d)
        else restoreOrReset p env lid f d

def isSpace (b : UInt8) : Bool := b = 32 ∨ (9 ≤ b ∧ b ≤ 13)

def isDigit (b : UInt8) : Bool := 48 ≤ b ∧ b ≤ 57

def atoiDigits (s : List UInt8) : ℤ :=
  (s.takeWhile isDigit).foldl (fun n b => 10 * n + (b.toNat - 48 : ℤ)) 0

def atoi (s : List UInt8) : ℤ :=
  match s.dropWhile isSpace with
  | [] => 0
  | b :: s => if b = 45 then -atoiDigits s else if b = 43 then atoiDigits s else atoiDigits (b :: s)

/-- The convert function and what follows it. -/
def convertData (p : Platform) (env : Surroundings) (lid : ℕ) (f : TCfgFile) (current : ℤ)
    (d : Disk) : Bool × Disk :=
  match d lid, f.nvmDataConvertFunc with
  | some file, some convert =>
    match convert current (atoi (cString f.cFileVer)) file with
    | none => (false, d)
    | some content =>
      let d := updateFileVer p.tables lid (Function.update d lid (some content.val))
      if lid ∈ p.aPerformance then (true, d)
      else
        let outcome := nvmProtectDataFile p env lid true d
        (outcome.1 = 1, outcome.2)
  | _, _ => (false, d)

def nvmDataVerConvert (p : Platform) (env : Surroundings) (lid : ℕ) (d : Disk) : Bool × Disk :=
  match d iFileVerInfoLid, p.tables.cfgFile lid with
  | some verFile, some f =>
    let offset := if bIsNewVerInfo verFile then (lid + 1) * recordSize + fileNameLength
      else lid * fileVerLength
    if offset + fileVerLength > verFile.length then nvmResetFileToDefault p lid d
    else
      convertData p env lid f (atoi (cString (readAt verFile offset (fileVerLength - 1)))) d
  | _, _ => (false, d)

/-- The file does not exist: it is restored or created. -/
def bringIntoBeing (p : Platform) (env : Surroundings) (lid : ℕ) (d : Disk) : Bool × Disk :=
  let restored := if env.nvmFlag ∧ lid ∈ p.aBackupToBinRegion.map Prod.fst then
    nvmRestoreFromBinRegionOneFile p env lid d else (false, d)
  if restored.1 then restored
  else
    let d := restored.2
    nvmResetFileToDefault p lid (Function.update d lid (some ((d lid).getD [])))

/-- The file exists: it is converted or reset where its version differs. -/
def bringUpToDate (p : Platform) (env : Surroundings) (lid : ℕ) (f : TCfgFile) (d : Disk) :
    Bool × Disk :=
  let compared := cmpFileVer p.tables lid d
  if compared.1 then (true, compared.2)
  else
    match f.bDataProcessingType with
    | .dataReset => nvmResetFileToDefault p lid (Function.update compared.2 lid (some []))
    | .dataConvert =>
      let converted := nvmDataVerConvert p env lid compared.2
      if converted.1 then converted
      else nvmResetFileToDefault p lid (Function.update converted.2 lid (some []))

def prepareFile (p : Platform) (env : Surroundings) (lid : ℕ) (f : TCfgFile) (d : Disk) :
    Bool × Disk :=
  match d lid with
  | none => bringIntoBeing p env lid d
  | some _ => bringUpToDate p env lid f d

/-- The label Solve_Special_Lid. -/
def solveSpecialLid (p : Platform) (env : Surroundings) (lid : ℕ) (isRead : Bool) (d : Disk) :
    Option FId × Disk :=
  if env.partitionFits then
    let d := if isRead ∨ ¬ p.erasable then d
      else Function.update d lid ((d lid).map fun region => List.replicate region.length 0xFF)
    (if env.partitionOpens then some ⟨lid, isRead⟩ else none, d)
  else (none, d)

def nvmGetFileDesc (p : Platform) (env : Surroundings) (lid : ℕ) (isRead : Bool) (d : Disk) :
    Option FId × Disk :=
  match p.tables.cfgFile lid with
  | none => (none, d)
  | some f =>
    if lid ∈ p.specialLids then solveSpecialLid p env lid isRead d
    else if f.cFileName = reservedName then (none, d)
    else
      let prepared := prepareFile p env lid f d
      if prepared.1 then
        if lid ∈ p.aPerformance then (some ⟨lid, isRead⟩, prepared.2)
        else
          let outcome := nvmProtectDataFile p env lid false prepared.2
          (if outcome.1 = 1 then some ⟨lid, isRead⟩ else none, outcome.2)
      else (none, prepared.2)

def nvmCloseFileDesc (p : Platform) (env : Surroundings) (fileId : Option FId) (d : Disk) :
    Bool × Disk :=
  match fileId with
  | none => (false, d)
  | some fileId =>
    if fileId.ifileLid ∈ p.specialLids ∨ fileId.ifileLid ∈ p.aPerformance ∨ fileId.bIsRead then
      (true, d)
    else
      let outcome := nvmProtectDataFile p env fileId.ifileLid true d
      (outcome.1 = 1, outcome.2)

/-- A write through a descriptor that is open for writing. -/
def writeThrough (lid off : ℕ) (data : List UInt8) (d : Disk) : Disk :=
  Function.update d lid (some (writeAt ((d lid).getD []) off data))

def payloadOf (f : TCfgFile) (lid : ℕ) (d : Disk) : Option (List UInt8) :=
  (d lid).map fun file => file.take f.contentSize

def smallPlatform : Platform where
  tables := smallTables
  aPerformance := []
  aBackupToBinRegion := []
  specialLids := []
  erasable := false

def quiet : Surroundings := ⟨false, none, false, false⟩

end Nvram
