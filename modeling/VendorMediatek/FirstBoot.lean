import VendorMediatek.ResetWrites
import VendorMediatek.VersionsCurrent

/-!
# The version file in the first boot

`Check_FileVerinFirstBoot` and `NVM_GenerateFileVer` with the outcome of every call. The version
file is opened without O_TRUNC, and the results of the writes are not looked at.
-/

namespace FirstBoot

open Nvram ByteFile RecordFile ResetWrites SlotDirectory

/-- What stands at the path of the version file. -/
inductive Node where
  | absent
  | regular (content : List UInt8)
  | special

/-- What NVM_Init, the two calls of stat and the opens come to, and how many bytes arrive of each
write. -/
structure BootCalls where
  init : Bool
  restoreFlag : Bool
  stat : Bool
  opens : Bool
  arrives : ℕ → ℕ

/-- The buffers that are written in turn: the header and a record for each entry. -/
def recordWrites (t : Tables) (entries : List TCfgFile) : List (List UInt8) :=
  [zeroPad fileNameLength strVerInfo,
    (t.gAkCfgFile.map TCfgFile.cFileVer).headD (List.replicate fileVerLength 0)] ++
    entries.flatMap fun f => [f.nameField, f.cFileVer]

def versionWrites (t : Tables) : List (List UInt8) :=
  recordWrites t (t.gAkCfgFile ++ t.gAkCfgFileCustom)

/-- Every write goes to where the one before it has ended. -/
def written (t : Tables) (c : BootCalls) (old : List UInt8) : List UInt8 :=
  writeAt old 0 (writeDefaults c.arrives 0 (versionWrites t) [])

def nvmGenerateFileVer (t : Tables) (c : BootCalls) (n : Node) : Bool × Node :=
  if c.opens = false then (false, n)
  else
    match n with
    | .absent => (true, .regular (written t c []))
    | .regular old => (true, .regular (written t c old))
    | .special => (true, .special)

/-- The size that the check accepts. -/
def acceptedSize (t : Tables) : ℕ := recordSize * (t.iNvRamFileMaxLid + 1)

def Accepted (t : Tables) : Node → Prop
  | .regular content => content.length = acceptedSize t
  | _ => False

instance (t : Tables) : ∀ n, Decidable (Accepted t n)
  | .regular _ => inferInstanceAs (Decidable (_ = _))
  | .absent => inferInstanceAs (Decidable False)
  | .special => inferInstanceAs (Decidable False)

def checkFileVerinFirstBoot (t : Tables) (c : BootCalls) (n : Node) : Bool × Node :=
  if c.init = false ∨ t.iNvRamFileMaxLid = 0 then (false, n)
  else if c.restoreFlag = true then (true, n)
  else if c.stat = true ∧ Accepted t n then (true, n)
  else nvmGenerateFileVer t c n

/-- Without a restore flag the result true means that the file has the accepted size, and a second
call leaves it alone. -/
def Repairs (t : Tables) (c : BootCalls) (n : Node) : Prop :=
  c.restoreFlag = false → (checkFileVerinFirstBoot t c n).1 = true →
    Accepted t (checkFileVerinFirstBoot t c n).2 ∧
      ∀ again : BootCalls, again.init = true → again.restoreFlag = false → again.stat = true →
        checkFileVerinFirstBoot t again (checkFileVerinFirstBoot t c n).2 =
          (true, (checkFileVerinFirstBoot t c n).2)

/-- Generating it again repairs a file that is missing or shorter if all the bytes of the writes
arrive, and one that has the size already. -/
def Repairable (t : Tables) (c : BootCalls) : Node → Prop
  | .absent => AllArrive c.arrives 0 (versionWrites t)
  | .regular old => old.length = acceptedSize t ∨
      old.length < acceptedSize t ∧ AllArrive c.arrives 0 (versionWrites t)
  | .special => False

/-! ## The generated content -/

theorem recordWrites_flatten (t : Tables) (entries : List TCfgFile) :
    (recordWrites t entries).flatten =
      headerBytes t ++ encode (entries.map TCfgFile.verRecord) := by
  have hrecords : ∀ entries : List TCfgFile,
      (entries.flatMap fun f => [f.nameField, f.cFileVer]).flatten =
        encode (entries.map TCfgFile.verRecord) := by
    intro entries
    induction entries with
    | nil => rfl
    | cons f entries ih =>
      rw [List.flatMap_cons, List.flatten_append, ih, List.map_cons, encode_cons]
      simp [TCfgFile.verRecord]
  rw [recordWrites, List.flatten_append, hrecords, headerBytes]
  simp

theorem versionWrites_flatten (t : Tables) :
    (versionWrites t).flatten =
      headerBytes t ++ encode ((t.gAkCfgFile ++ t.gAkCfgFileCustom).map TCfgFile.verRecord) :=
  recordWrites_flatten t _

theorem length_versionWrites (t : Tables) :
    (versionWrites t).flatten.length = acceptedSize t := by
  rw [versionWrites_flatten, List.length_append, length_headerBytes, length_encode,
    List.length_map, List.length_append, acceptedSize, Tables.iNvRamFileMaxLid]
  change recordSize + _ * recordSize = _
  ring

theorem acceptedSize_pos (t : Tables) : 0 < acceptedSize t :=
  Nat.mul_pos (by decide) (Nat.succ_pos _)

/-- Of the writes, too many bytes never arrive, and all bytes only where no write falls short. -/
theorem length_arrived (t : Tables) (c : BootCalls) :
    (writeDefaults c.arrives 0 (versionWrites t) []).length ≤ acceptedSize t := by
  have := length_writeDefaults c.arrives 0 (versionWrites t) []
  rwa [length_versionWrites, List.length_nil, Nat.zero_add] at this

theorem length_written (t : Tables) (c : BootCalls) (old : List UInt8) :
    (written t c old).length =
      max old.length (writeDefaults c.arrives 0 (versionWrites t) []).length := by
  by_cases hnil : writeDefaults c.arrives 0 (versionWrites t) [] = []
  · simp [written, hnil]
  · rw [written, length_writeAt_max hnil, Nat.zero_add]

theorem length_writeDefaults_iff (arrives : ℕ → ℕ) (i : ℕ) (bufs : List (List UInt8))
    (file : List UInt8) :
    file.length + bufs.flatten.length ≤ (writeDefaults arrives i bufs file).length ↔
      AllArrive arrives i bufs := by
  constructor
  · induction bufs generalizing i file with
    | nil => exact fun _ => trivial
    | cons databuf bufs ih =>
      intro h
      rw [writeDefaults, List.flatten_cons, List.length_append] at h
      have hlen := length_writeDefaults arrives (i + 1) bufs (file ++ databuf.take (arrives i))
      have hrest := ih (i + 1) (file ++ databuf.take (arrives i))
      simp only [List.length_append, List.length_take] at hlen hrest
      exact ⟨by omega, hrest (by omega)⟩
  · intro h
    rw [(writeDefaults_eq_iff arrives i bufs file).mpr h, List.length_append]

/-- What is left has the accepted size exactly if nothing longer stood there, and it had that size
or every byte arrives. -/
theorem length_written_iff (t : Tables) (c : BootCalls) (old : List UInt8) :
    (written t c old).length = acceptedSize t ↔ Repairable t c (.regular old) := by
  have hle := length_arrived t c
  have hall := length_writeDefaults_iff c.arrives 0 (versionWrites t) []
  rw [length_versionWrites, List.length_nil, Nat.zero_add] at hall
  rw [length_written, Repairable, ← hall]
  omega

theorem repairable_absent (t : Tables) (c : BootCalls) :
    Repairable t c (.regular []) ↔ Repairable t c .absent := by
  have hpos := acceptedSize_pos t
  simp only [Repairable, List.length_nil]
  constructor
  · rintro (h | h)
    · omega
    · exact h.2
  · exact fun h => Or.inr ⟨hpos, h⟩

theorem accepted_generated (t : Tables) (c : BootCalls) (n : Node) (hopens : c.opens = true) :
    (nvmGenerateFileVer t c n).1 = true ∧
      (Accepted t (nvmGenerateFileVer t c n).2 ↔ Repairable t c n) := by
  simp only [nvmGenerateFileVer, hopens, Bool.true_eq_false, if_false]
  cases n with
  | absent => exact ⟨rfl, (length_written_iff t c []).trans (repairable_absent t c)⟩
  | regular old => exact ⟨rfl, length_written_iff t c old⟩
  | special => exact ⟨rfl, Iff.rfl⟩

theorem Accepted.repairable {t : Tables} {n : Node} (h : Accepted t n) (c : BootCalls) :
    Repairable t c n := by
  cases n with
  | absent => exact h.elim
  | regular old => exact Or.inl h
  | special => exact h.elim

/-! ## The check -/

theorem check_eq {t : Tables} {c : BootCalls} (hinit : c.init = true)
    (hlids : t.iNvRamFileMaxLid ≠ 0) (hflag : c.restoreFlag = false) (n : Node) :
    checkFileVerinFirstBoot t c n =
      if c.stat = true ∧ Accepted t n then (true, n) else nvmGenerateFileVer t c n := by
  simp [checkFileVerinFirstBoot, hinit, hlids, hflag]

theorem check_accepted {t : Tables} {n : Node} (h : Accepted t n) {c : BootCalls}
    (hinit : c.init = true) (hlids : t.iNvRamFileMaxLid ≠ 0) (hflag : c.restoreFlag = false)
    (hstat : c.stat = true) : checkFileVerinFirstBoot t c n = (true, n) := by
  rw [check_eq hinit hlids hflag, if_pos ⟨hstat, h⟩]

/-- The check leaves a file of the accepted size, or it gives up, exactly where it does not get to
generate a file or the file is repairable. -/
theorem repairs_iff (t : Tables) (c : BootCalls) (n : Node) :
    Repairs t c n ↔ c.restoreFlag = true ∨ c.init = false ∨ t.iNvRamFileMaxLid = 0 ∨
      c.opens = false ∨ Repairable t c n := by
  unfold Repairs
  cases hflag : c.restoreFlag with
  | true => simp
  | false =>
    by_cases hstop : c.init = false ∨ t.iNvRamFileMaxLid = 0
    · rcases hstop with hinit | hlids
      · simp [checkFileVerinFirstBoot, hinit]
      · simp [checkFileVerinFirstBoot, hlids]
    obtain ⟨hinit, hlids⟩ := not_or.mp hstop
    have hcheck := check_eq (Bool.eq_true_of_not_eq_false hinit) hlids hflag n
    -- a second call does nothing as soon as the size is right
    have hagain : ∀ n', (Accepted t n' ∧ ∀ again : BootCalls, again.init = true →
        again.restoreFlag = false → again.stat = true →
          checkFileVerinFirstBoot t again n' = (true, n')) ↔ Accepted t n' :=
      fun n' => ⟨And.left, fun h => ⟨h, fun _ hi hf hs => check_accepted h hi hlids hf hs⟩⟩
    simp only [hagain, hcheck, hinit, hlids, Bool.false_eq_true, Bool.true_eq_false, false_or,
      true_implies]
    split
    · rename_i hfits
      exact iff_of_true (fun _ => hfits.2) (Or.inr (hfits.2.repairable c))
    · cases hopens : c.opens with
      | false => simp [nvmGenerateFileVer, hopens]
      | true =>
        obtain ⟨htrue, haccepted⟩ := accepted_generated t c n hopens
        simp only [htrue, haccepted, true_implies, Bool.true_eq_false, false_or]

/-- A first boot in which everything succeeds. -/
def goodBoot : BootCalls := ⟨true, false, true, true, fun _ => 100⟩

/-- A file that is one byte too long stays so. -/
theorem longFile_stays :
    ¬ Repairs smallTables goodBoot (.regular (List.replicate 371 0)) := by
  have hlong : ¬ Repairable smallTables goodBoot (.regular (List.replicate 371 0)) := by
    have hsize : acceptedSize smallTables = 370 := by decide
    rw [Repairable, List.length_replicate, hsize]
    omega
  have hcheck : checkFileVerinFirstBoot smallTables goodBoot (.regular (List.replicate 371 0)) =
      nvmGenerateFileVer smallTables goodBoot (.regular (List.replicate 371 0)) := by
    rw [check_eq rfl (by decide) rfl, if_neg]
    exact fun hfits => hlong (hfits.2.repairable goodBoot)
  obtain ⟨htrue, haccepted⟩ := accepted_generated smallTables goodBoot
    (.regular (List.replicate 371 0)) rfl
  intro h
  rw [Repairs, hcheck] at h
  exact hlong (haccepted.mp (h rfl htrue).1)

/-! ## The comparison with a generated file -/

/-- Of each write the bytes that arrive. -/
def arrivals (arrives : ℕ → ℕ) (bufs : List (List UInt8)) : List UInt8 :=
  (bufs.mapIdx fun i databuf => databuf.take (arrives i)).flatten

/-- The bytes that arrive, and behind them what stood there before. -/
def remains (t : Tables) (c : BootCalls) (old : List UInt8) : List UInt8 :=
  arrivals c.arrives (versionWrites t) ++ old.drop (arrivals c.arrives (versionWrites t)).length

/-- A record has the version of the entry: that of the lid if its name is right, or the first with
the name. Without a header the version is looked for at its place in the old format. -/
def Shows (file : List UInt8) (f : TCfgFile) (lid : ℕ) : Prop :=
  nameAt file 0 = strVerInfo ∧
      (∃ i, nameAt file (i * recordSize) = f.targetName ∧
        cFbyte file (i * recordSize + fileNameLength) = f.cFileVer ∧
        (i = lid + 1 ∨ nameAt file ((lid + 1) * recordSize) ≠ f.targetName ∧
          i < file.length / recordSize ∧ ∀ j < i, nameAt file (j * recordSize) ≠ f.targetName)) ∨
    nameAt file 0 ≠ strVerInfo ∧ cFbyte file (lid * fileVerLength) = f.cFileVer

/-- A disk whose version file is what a generation leaves of one that was there. -/
def generatedDisk (t : Tables) (c : BootCalls) (old : List UInt8) : Disk :=
  fun _ => some (remains t c old)

end FirstBoot
