import VendorMediatek.LabelledRuns
import VendorMediatek.NvramSession

/-!
# NVM_GetLIDByName

The lid of a file by its name. The first call that gets so far copies the paths of both tables
into gFileNameArray, and every call searches the copies in their order with strstr. What
get_partition_path and malloc yield is arbitrary at every call.
-/

namespace Nvram

structure FileName where
  cFileName : List UInt8
  iLid : ℕ
  deriving DecidableEq, Repr

def fileNameSize : ℕ := 128

/-- The globals that a call leaves to the next one. -/
structure NameGlobals where
  nvramInitFlag : Bool
  gFileNameArray : Option (List FileName)
  deriving DecidableEq, Repr

def NameGlobals.initial : NameGlobals := ⟨false, none⟩

/-- The argument, and whether get_partition_path and malloc succeed if they are called. -/
structure NameCall where
  filename : Option (List UInt8)
  partitionPath : Bool
  memory : Bool

def Tables.nvmInit (t : Tables) (partitionPath : Bool) (g : NameGlobals) : ℤ × NameGlobals :=
  if g.nvramInitFlag then (t.iNvRamFileMaxLid, g)
  else if !partitionPath then (-1, g)
  else (t.iNvRamFileMaxLid, { g with nvramInitFlag := true })

/-- The string in a buffer of n bytes that snprintf was given this string for. -/
def printed (n : ℕ) (s : List UInt8) : List UInt8 := s.take (n - 1)

/-- The two loops that fill gFileNameArray. -/
def Tables.fileNames (t : Tables) : List FileName :=
  (t.gAkCfgFile.mapIdx fun i f => ⟨printed fileNameLength f.cFileName, i⟩) ++
    t.gAkCfgFileCustom.mapIdx fun i f => ⟨printed fileNameSize f.cFileName, t.iCustomBeginLid + i⟩

/-- The array as a call finds it, or as it fills it now. -/
def Tables.fileNameArray (t : Tables) (memory : Bool) (g : NameGlobals) : Option (List FileName) :=
  match g.gFileNameArray with
  | some names => some names
  | none => if memory then some t.fileNames else none

def invalidName (filename : List UInt8) : Bool :=
  reservedName <:+: filename ∨ filename.length > fileNameLength ∨ filename.length = 0

/-- The first entry whose path strstr finds the name in. -/
def lidIn (names : List FileName) (filename : List UInt8) : ℤ :=
  match names.find? fun n => filename <:+: n.cFileName with
  | some n => n.iLid
  | none => -1

def nvmGetLidByName (t : Tables) (c : NameCall) (g : NameGlobals) : ℤ × NameGlobals :=
  let init := t.nvmInit c.partitionPath g
  if init.1 < 0 then (-1, init.2)
  else
    match t.fileNameArray c.memory init.2 with
    | none => (-1, init.2)
    | some names =>
      let g := { init.2 with gFileNameArray := some names }
      match c.filename with
      | none => (-1, g)
      | some filename => if invalidName filename then (-1, g) else (lidIn names filename, g)

def nameCalls (t : Tables) : LabelledRuns.System NameGlobals NameCall where
  Enabled _ _ := True
  next g c := (nvmGetLidByName t c g).2

/-! ## What the array holds -/

theorem printed_of_lt {n : ℕ} {s : List UInt8} (h : s.length < n) : printed n s = s :=
  List.take_of_length_le (by omega)

theorem Tables.fileNames_getElem? (t : Tables) (lid : ℕ) :
    t.fileNames[lid]? = (t.cfgFile lid).map fun f => ⟨f.cFileName, lid⟩ := by
  have hprinted (f : TCfgFile) : printed fileNameLength f.cFileName = f.cFileName :=
    printed_of_lt f.name_length
  have hwide (f : TCfgFile) : printed fileNameSize f.cFileName = f.cFileName :=
    printed_of_lt (f.name_length.trans (by decide))
  rw [Tables.fileNames, Tables.cfgFile, Tables.iCustomBeginLid]
  split
  · rename_i h
    rw [List.getElem?_append_left (by rwa [List.length_mapIdx]), List.getElem?_mapIdx]
    simp only [hprinted]
  · rename_i h
    rw [List.getElem?_append_right (by rw [List.length_mapIdx]; omega), List.length_mapIdx,
      List.getElem?_mapIdx]
    simp only [hwide]
    rw [Nat.add_sub_cancel' (by omega)]

/-- The array is not there yet, or it holds the paths of the tables. -/
def NameGlobals.Built (t : Tables) (g : NameGlobals) : Prop :=
  ∀ names, g.gFileNameArray = some names → names = t.fileNames

/-- What a call needs of its surroundings: each part only where no earlier call has got so far. -/
def Ready (c : NameCall) (g : NameGlobals) : Prop :=
  (g.nvramInitFlag ∨ c.partitionPath) ∧ (g.gFileNameArray.isSome ∨ c.memory)

instance (c : NameCall) (g : NameGlobals) : Decidable (Ready c g) :=
  inferInstanceAs (Decidable (_ ∧ _))

theorem Tables.nvmInit_fails_iff (t : Tables) (partitionPath : Bool) (g : NameGlobals) :
    (t.nvmInit partitionPath g).1 < 0 ↔ ¬(g.nvramInitFlag ∨ partitionPath) := by
  rw [Tables.nvmInit]
  cases g.nvramInitFlag <;> cases partitionPath <;> simp

theorem Tables.nvmInit_array (t : Tables) (partitionPath : Bool) (g : NameGlobals) :
    (t.nvmInit partitionPath g).2.gFileNameArray = g.gFileNameArray := by
  rw [Tables.nvmInit]
  split
  · rfl
  · split <;> rfl

theorem Tables.fileNameArray_eq {t : Tables} {g : NameGlobals} (h : g.Built t) (memory : Bool) :
    t.fileNameArray memory g =
      if g.gFileNameArray.isSome ∨ memory then some t.fileNames else none := by
  rw [Tables.fileNameArray]
  cases ha : g.gFileNameArray with
  | none => simp only [Option.isSome_none, Bool.false_eq_true, false_or]
  | some names => rw [h names ha, Option.isSome_some, if_pos (Or.inl rfl)]

theorem NameGlobals.Built.of_array_eq {t : Tables} {g g' : NameGlobals} (h : g.Built t)
    (he : g'.gFileNameArray = g.gFileNameArray) : g'.Built t :=
  fun names hn => h names (he ▸ hn)

theorem nvmGetLidByName_built {t : Tables} {g : NameGlobals} (h : g.Built t) (c : NameCall) :
    (nvmGetLidByName t c g).2.Built t := by
  have hinit := h.of_array_eq (t.nvmInit_array c.partitionPath g)
  rw [nvmGetLidByName]
  dsimp only
  split
  · exact hinit
  · rw [Tables.fileNameArray_eq hinit]
    split_ifs
    · have hset : (⟨(t.nvmInit c.partitionPath g).2.nvramInitFlag, some t.fileNames⟩ :
          NameGlobals).Built t := fun names hn => (Option.some.inj hn).symm
      cases c.filename with
      | none => exact hset
      | some filename =>
        dsimp only
        split <;> exact hset
    · exact hinit

/-- A call that is ready searches the paths of the tables, any other one fails. -/
theorem nvmGetLidByName_result {t : Tables} {g : NameGlobals} (h : g.Built t) {c : NameCall}
    {filename : List UInt8} (hc : c.filename = some filename) :
    (nvmGetLidByName t c g).1 =
      if Ready c g ∧ invalidName filename = false then lidIn t.fileNames filename else -1 := by
  have hinit := h.of_array_eq (t.nvmInit_array c.partitionPath g)
  rw [nvmGetLidByName]
  dsimp only
  rw [Tables.fileNameArray_eq hinit, t.nvmInit_array]
  by_cases hi : g.nvramInitFlag ∨ c.partitionPath
  · rw [if_neg fun hf => (t.nvmInit_fails_iff _ _).mp hf hi]
    by_cases ha : g.gFileNameArray.isSome ∨ c.memory
    · rw [if_pos ha, hc]
      dsimp only
      cases hv : invalidName filename with
      | false => rw [if_neg nofun, if_pos ⟨⟨hi, ha⟩, rfl⟩]
      | true => rw [if_pos rfl, if_neg fun hr => Bool.noConfusion hr.2]
    · rw [if_neg ha, if_neg fun hr => ha hr.1.2]
  · rw [if_pos ((t.nvmInit_fails_iff _ _).mpr hi), if_neg fun hr => hi hr.1.1]

/-! ## The search -/

/-- The name behind the last slash of a path, or the whole path where there is no slash. -/
def TCfgFile.baseName (f : TCfgFile) : List UInt8 := (afterSlash f.cFileName).getD f.cFileName

theorem afterSlash_isSuffix {path name : List UInt8} (h : afterSlash path = some name) :
    name <:+ path := by
  induction path with
  | nil => simp [afterSlash] at h
  | cons b path ih =>
    rw [afterSlash] at h
    split at h
    · rename_i found hf
      exact (ih (hf.trans h)).trans (List.suffix_cons b path)
    · split at h
      · cases h
        exact List.suffix_cons b name
      · cases h

theorem TCfgFile.baseName_suffix (f : TCfgFile) : f.baseName <:+ f.cFileName := by
  rw [TCfgFile.baseName]
  cases h : afterSlash f.cFileName with
  | none => exact List.suffix_refl _
  | some name => exact afterSlash_isSuffix h

/-- What the search finds is the first path that contains the name, under its own lid. -/
theorem find_fileNames {t : Tables} {name : List UInt8} {n : FileName}
    (h : t.fileNames.find? (fun n => name <:+: n.cFileName) = some n) :
    (∃ e, t.cfgFile n.iLid = some e ∧ name <:+: e.cFileName) ∧
      ∀ earlier < n.iLid, ∀ e, t.cfgFile earlier = some e → ¬name <:+: e.cFileName := by
  obtain ⟨hin, i, hi, hget, hbefore⟩ := List.find?_eq_some_iff_getElem.mp h
  have hn : t.fileNames[i]? = some n := hget ▸ List.getElem?_eq_getElem hi
  rw [t.fileNames_getElem?] at hn
  obtain ⟨e, he, rfl⟩ := Option.map_eq_some_iff.mp hn
  refine ⟨⟨e, he, of_decide_eq_true hin⟩, fun earlier hlt e' he' => ?_⟩
  have hlen : earlier < t.fileNames.length := (show earlier < i from hlt).trans hi
  have hentry : t.fileNames[earlier] = ⟨e'.cFileName, earlier⟩ := by
    have := t.fileNames_getElem? earlier
    rw [he', List.getElem?_eq_getElem hlen] at this
    exact Option.some.inj this
  have := hbefore earlier hlt
  rw [hentry] at this
  simpa using this

/-- A name that some path contains gets the lid of the first such path. -/
theorem lidIn_fileNames_iff {t : Tables} {lid : ℕ} {f : TCfgFile} (hf : t.cfgFile lid = some f)
    {name : List UInt8} (hname : name <:+: f.cFileName) :
    lidIn t.fileNames name = lid ↔
      ∀ earlier < lid, ∀ e, t.cfgFile earlier = some e → ¬name <:+: e.cFileName := by
  have hmem : ⟨f.cFileName, lid⟩ ∈ t.fileNames := by
    apply List.mem_of_getElem? (i := lid)
    rw [t.fileNames_getElem?, hf, Option.map_some]
  rw [lidIn]
  cases hfind : t.fileNames.find? fun n => name <:+: n.cFileName with
  | none => exact absurd hname (of_decide_eq_false
      (Bool.eq_false_iff.mpr (List.find?_eq_none.mp hfind _ hmem)))
  | some n =>
    obtain ⟨⟨e, he, hin⟩, hbefore⟩ := find_fileNames hfind
    constructor
    · intro h
      rw [← Int.ofNat.inj h]
      exact hbefore
    · intro h
      rcases Nat.lt_trichotomy n.iLid lid with hlt | heq | hgt
      · exact absurd hin (h n.iLid hlt e he)
      · exact congrArg Int.ofNat heq
      · exact absurd hname (hbefore lid hgt f hf)

/-- Pairwise distinct names of the files, none of them with "Reserved" in it. -/
structure Tables.NamesApart (t : Tables) : Prop where
  distinct : (t.gAkCfgFile ++ t.gAkCfgFileCustom).Pairwise fun f g => f.baseName ≠ g.baseName
  unreserved : ∀ f ∈ t.gAkCfgFile ++ t.gAkCfgFileCustom, ¬reservedName <:+: f.baseName

theorem Tables.mem_of_cfgFile {t : Tables} {lid : ℕ} {f : TCfgFile} (h : t.cfgFile lid = some f) :
    f ∈ t.gAkCfgFile ++ t.gAkCfgFileCustom := by
  rw [Tables.cfgFile] at h
  split at h
  · exact List.mem_append_left _ (List.mem_of_getElem? h)
  · exact List.mem_append_right _ (List.mem_of_getElem? h)

theorem invalidName_baseName {t : Tables} (ht : t.NamesApart) {lid : ℕ} {f : TCfgFile}
    (hf : t.cfgFile lid = some f) : invalidName f.baseName = decide (f.baseName = []) := by
  have hlen : f.baseName.length ≤ fileNameLength :=
    f.baseName_suffix.length_le.trans f.name_length.le
  rw [invalidName, decide_eq_decide, List.length_eq_zero_iff]
  constructor
  · rintro (hr | hl | he)
    · exact absurd hr (ht.unreserved f (Tables.mem_of_cfgFile hf))
    · exact absurd hl (Nat.not_lt.mpr hlen)
    · exact he
  · exact fun he => Or.inr (Or.inr he)

theorem built_initial (t : Tables) : NameGlobals.initial.Built t := nofun

theorem built_run (t : Tables) (calls : List NameCall) :
    ((nameCalls t).run .initial calls).Built t :=
  LabelledRuns.invariant_legal (I := fun g => g.Built t) (nameCalls t)
    (fun _ c h _ => nvmGetLidByName_built h c) (built_initial t)
    ((LabelledRuns.along_events _ (fun _ => True) _ _).mpr fun _ _ => trivial)

/-- After any calls, the name of the file of a lid gets this lid exactly if the call is ready, the
name is not empty and no path of a lower lid contains it. -/
theorem nvmGetLidByName_eq_lid_iff {t : Tables} (ht : t.NamesApart) (calls : List NameCall)
    (c : NameCall) (lid : ℕ) {f : TCfgFile} (hf : t.cfgFile lid = some f)
    (hc : c.filename = some f.baseName) :
    (nvmGetLidByName t c ((nameCalls t).run .initial calls)).1 = lid ↔
      Ready c ((nameCalls t).run .initial calls) ∧ f.baseName ≠ [] ∧
        ∀ earlier < lid, ∀ e, t.cfgFile earlier = some e → ¬f.baseName <:+: e.cFileName := by
  rw [nvmGetLidByName_result (built_run t calls) hc, invalidName_baseName ht hf]
  simp only [decide_eq_false_iff_not]
  split
  · rename_i hr
    rw [lidIn_fileNames_iff hf f.baseName_suffix.isInfix]
    exact ⟨fun h => ⟨hr.1, hr.2, h⟩, fun h => h.2.2⟩
  · rename_i hr
    constructor
    · intro h
      omega
    · exact fun h => absurd ⟨h.1, h.2.1⟩ hr

/-- A table entry for the file at this path. -/
def fileAt (path : List UInt8) (hl : path.length < fileNameLength) (ht : 0 ∉ path) : TCfgFile :=
  { smallFile 65 byte65_ne_zero with cFileName := path, name_length := hl, name_terminated := ht }

/-- Two files "/AB" and "/A". -/
def nestedTables : Tables where
  gAkCfgFile := [fileAt [slash, 65, 66] (by decide) (by decide)]
  gAkCfgFileCustom := [fileAt [slash, 65] (by decide) (by decide)]

def goodCall (filename : List UInt8) : NameCall := ⟨some filename, true, true⟩

theorem nestedTables_namesApart : nestedTables.NamesApart where
  distinct := by simp [nestedTables, TCfgFile.baseName, fileAt, afterSlash, slash]
  unreserved := by decide

theorem nvmGetLidByName_eq_lid_small :
    (nvmGetLidByName nestedTables (goodCall [65, 66]) ((nameCalls nestedTables).run .initial
      [goodCall [65], ⟨none, false, false⟩])).1 = (0 : ℕ) := by
  refine (nvmGetLidByName_eq_lid_iff nestedTables_namesApart [goodCall [65], ⟨none, false, false⟩]
    (goodCall [65, 66]) 0 rfl rfl).mpr ⟨?_, ?_, ?_⟩
  · decide
  · decide
  · exact fun earlier h => absurd h (Nat.not_lt_zero earlier)

/-- The name of the second file gets the lid of the first. -/
theorem nvmGetLidByName_nested_fails :
    nestedTables.NamesApart ∧ (nestedTables.cfgFile 1).map TCfgFile.baseName = some [65] ∧
      (nvmGetLidByName nestedTables (goodCall [65]) .initial).1 = 0 := by
  refine ⟨nestedTables_namesApart, ?_, ?_⟩
  all_goals decide

end Nvram
