import VendorMediatek.LabelledRuns
import VendorMediatek.SessionUpdates
import VendorMediatek.VersionFormats

/-!
# NVM_DataVerConvertAll

After a software update the version file is adapted to the tables and then the file of every lid
is converted, or reset where it cannot be converted, if its version differs.
-/

namespace Nvram

open ByteFile LabelledRuns SlotDirectory

/-- The sizes that are taken without complaint for a file whose version is right. -/
def loadFileSizeMatches (f : TCfgFile) (size : ℕ) : Bool :=
  f.i4RecSize * f.i4RecNum = size ∨ f.i4RecSize * f.i4RecNum + 2 = size

/-- The file of a lid whose version differs. -/
def convertOrReset (p : Platform) (env : Surroundings) (lid : ℕ) (d : Disk) : Bool × Disk :=
  let converted := nvmDataVerConvert p env lid d
  if converted.1 then converted
  else nvmResetFileToDefault p lid (Function.update converted.2 lid (some []))

/-- The loop over the lids, where env lid is what the turn of the lid finds outside. -/
def convertLoop (p : Platform) (env : ℕ → Surroundings) : List ℕ → Bool → Disk → Bool × Disk
  | [], bWrongFileVer, d => (!bWrongFileVer, d)
  | lid :: lids, bWrongFileVer, d =>
    match p.tables.cfgFile lid with
    | none => (false, d)
    | some f =>
      match d lid with
      | none => convertLoop p env lids bWrongFileVer d
      | some file =>
        let compared := cmpFileVer p.tables lid d
        if compared.1 then
          convertLoop p env lids (bWrongFileVer || !loadFileSizeMatches f file.length) compared.2
        else
          let turned := convertOrReset p (env lid) lid compared.2
          if turned.1 then convertLoop p env lids bWrongFileVer turned.2 else (false, turned.2)

/-- none where the behaviour of NVM_CheckFileNum is undefined. -/
def nvmDataVerConvertAll (p : Platform) (env : ℕ → Surroundings)
    (iOldCommonFileNum iOldCustomFileNum : ℕ) (d : Disk) : Option (Bool × Disk) :=
  if iOldCommonFileNum = 0 ∨ iOldCustomFileNum = 0 then some (true, d)
  else
    match d iFileVerInfoLid with
    | none => some (false, d)
    | some file =>
      match nvmCheckFileNum p.tables iOldCommonFileNum iOldCustomFileNum file with
      | none => none
      | some (false, file) => some (false, Function.update d iFileVerInfoLid (some file))
      | some (true, file) =>
        some (convertLoop p env (List.range' 1 (p.tables.iNvRamFileMaxLid - 1)) false
          (Function.update d iFileVerInfoLid (some file)))

/-! ## Turns of the loop -/

/-- The turn of a lid whose file exists. -/
def turn (p : Platform) (env : ℕ → Surroundings) (lid : ℕ) (d : Disk) : Bool × Disk :=
  if d lid = none then (true, d)
  else if (cmpFileVer p.tables lid d).1 then cmpFileVer p.tables lid d
  else convertOrReset p (env lid) lid (cmpFileVer p.tables lid d).2

/-- The loop as a run: a turn that fails ends it. -/
def turns (p : Platform) (env : ℕ → Surroundings) : System Disk ℕ where
  Enabled d lid := (p.tables.cfgFile lid).isSome ∧ (turn p env lid d).1 = true
  next d lid := (turn p env lid d).2

variable {p : Platform} {env : ℕ → Surroundings}

theorem convertLoop_run {lids : List ℕ} {bWrongFileVer : Bool} {d : Disk}
    (h : (convertLoop p env lids bWrongFileVer d).1 = true) :
    (turns p env).Legal d lids ∧
      (convertLoop p env lids bWrongFileVer d).2 = (turns p env).run d lids := by
  induction lids generalizing bWrongFileVer d with
  | nil => exact ⟨trivial, rfl⟩
  | cons lid lids ih =>
    rw [convertLoop] at h ⊢
    cases hf : p.tables.cfgFile lid with
    | none => simp [hf] at h
    | some f =>
      have hsome : (p.tables.cfgFile lid).isSome = true := by rw [hf]; rfl
      simp only [hf] at h ⊢
      cases hd : d lid with
      | none =>
        simp only [hd] at h ⊢
        have hturn : turn p env lid d = (true, d) := by rw [turn, if_pos hd]
        obtain ⟨hlegal, hrun⟩ := ih h
        refine ⟨⟨⟨hsome, by rw [hturn]⟩, ?_⟩, ?_⟩
        · rwa [show (turns p env).next d lid = d from congrArg Prod.snd hturn]
        · rw [hrun, run_cons, show (turns p env).next d lid = d from congrArg Prod.snd hturn]
      | some file =>
        have hne : ¬ d lid = none := by simp [hd]
        simp only [hd] at h ⊢
        by_cases hcmp : (cmpFileVer p.tables lid d).1 = true
        · simp only [hcmp, if_true] at h ⊢
          have hturn : turn p env lid d = cmpFileVer p.tables lid d := by
            rw [turn, if_neg hne, if_pos hcmp]
          obtain ⟨hlegal, hrun⟩ := ih h
          have hnext : (turns p env).next d lid = (cmpFileVer p.tables lid d).2 :=
            congrArg Prod.snd hturn
          refine ⟨⟨⟨hsome, by rw [hturn, hcmp]⟩, by rwa [hnext]⟩, by rw [hrun, run_cons, hnext]⟩
        · have hturn : turn p env lid d =
              convertOrReset p (env lid) lid (cmpFileVer p.tables lid d).2 := by
            rw [turn, if_neg hne, if_neg hcmp]
          have hnext : (turns p env).next d lid =
              (convertOrReset p (env lid) lid (cmpFileVer p.tables lid d).2).2 :=
            congrArg Prod.snd hturn
          simp only [hcmp, Bool.false_eq_true, if_false] at h ⊢
          by_cases hok : (convertOrReset p (env lid) lid (cmpFileVer p.tables lid d).2).1 = true
          · simp only [hok, if_true] at h ⊢
            obtain ⟨hlegal, hrun⟩ := ih h
            refine ⟨⟨⟨hsome, by rw [hturn, hok]⟩, by rwa [hnext]⟩, by rw [hrun, run_cons, hnext]⟩
          · simp [hok] at h

/-! ## What the version file must offer -/

/-- The name and version that the lid of a file looks for. -/
def wanted (t : Tables) (d : Disk) (lid : ℕ) : Option (List UInt8 × List UInt8) :=
  if 1 ≤ lid ∧ (d lid).isSome then (t.cfgFile lid).map fun f => (f.targetName, f.cFileVer) else none

/-- In the old format: the lids read on in what is left of the version file. A lid whose version is not
next needs something left to put it in front of, twice where its conversion is reset. -/
def findsRoom (p : Platform) (env : ℕ → Surroundings) (d : Disk) : List ℕ → List UInt8 → Bool
  | [], _ => true
  | lid :: lids, rest =>
    match p.tables.cfgFile lid, d lid with
    | some f, some file =>
      if cFbyte rest 0 = f.cFileVer then findsRoom p env d lids (rest.drop fileVerLength)
      else
        rest ≠ [] ∧ findsRoom p env d lids
          (if fileVerLength ≤ rest.length ∧ resetsConverted p (env lid) lid f
            (atoi (cString (rest.take (fileVerLength - 1)))) file then f.cFileVer ++ rest else rest)
    | _, _ => findsRoom p env d lids (rest.drop fileVerLength)

/-- Of the disk at the call and the version file that NVM_CheckFileNum leaves. -/
structure InPlace (p : Platform) (env : ℕ → Surroundings) (d : Disk) (verFile : List UInt8) :
    Prop where
  paths : ∀ lid f, 1 ≤ lid → (d lid).isSome → p.tables.cfgFile lid = some f → slash ∈ f.cFileName
  records : bIsNewVerInfo verFile = true →
    (slots verFile).Compatible (wanted p.tables d) p.tables.iNvRamFileMaxLid
  versions : bIsNewVerInfo verFile = false →
    findsRoom p env d (List.range' 1 (p.tables.iNvRamFileMaxLid - 1))
      (verFile.drop fileVerLength) = true

/-! ## One turn -/

theorem cmpFileVer_present (t : Tables) (lid : ℕ) {d : Disk} {file : List UInt8}
    (hd : d iFileVerInfoLid = some file) :
    cmpFileVer t lid d = (nvmCmpFileVerNo t lid file, d) := by
  have hsome : (d iFileVerInfoLid).isSome := by rw [hd]; rfl
  unfold cmpFileVer nvmCmpFileVerNo
  cases t.cfgFile lid with
  | none => rfl
  | some f =>
    simp only [ensureVerFile_present hsome, hd]
    split
    · rename_i hs
      simp [hs]
    · rename_i hs
      simp [hs]

theorem turn_carries {lid : ℕ} (hlid : lid ≠ iFileVerInfoLid) {f : TCfgFile}
    (hf : p.tables.cfgFile lid = some f) {d : Disk} {verFile file : List UInt8}
    (hv : d iFileVerInfoLid = some verFile) (hfile : d lid = some file)
    (hcmp : nvmCmpFileVerNo p.tables lid verFile = false) (hok : (turn p env lid d).1 = true) :
    Carries lid f (updates p (env lid) lid f verFile file) d (turn p env lid d).2 := by
  have hd : (d iFileVerInfoLid).isSome := by rw [hv]; rfl
  have hne : ¬ d lid = none := by simp [hfile]
  rw [turn, if_neg hne, cmpFileVer_present _ _ hv, if_neg (by simp [hcmp])] at hok ⊢
  unfold convertOrReset at hok ⊢
  obtain ⟨n, hn, htrue, hfalse⟩ := carries_dataVerConvert hlid hf hd (env lid) hv hfile
  cases hconverted : (nvmDataVerConvert p (env lid) lid d).1 with
  | true =>
    simp only [hconverted, if_true]
    exact htrue hconverted ▸ hn
  | false =>
    simp only [hconverted, Bool.false_eq_true, if_false] at hok ⊢
    have hcleared := hn.trans (carries_write (f := f) hlid [] _)
    obtain ⟨hreset, hresult⟩ := carries_reset hlid hf (hcleared.present hd)
    rw [hresult] at hok
    rcases hfalse hconverted with ⟨rfl, hone⟩ | hnone
    · rw [if_pos hok] at hreset
      rw [hone]
      exact hcleared.trans hreset
    · rw [hnone] at hok
      cases hok

/-- What a turn of the loop does to the version file and to the files of the other lids. -/
theorem turn_cases {lid : ℕ} (hlid : lid ≠ iFileVerInfoLid) {d : Disk} {verFile : List UInt8}
    (hv : d iFileVerInfoLid = some verFile) (enabled : (turns p env).Enabled d lid) :
    ∃ f verFile', p.tables.cfgFile lid = some f ∧
      (turns p env).next d lid iFileVerInfoLid = some verFile' ∧
      (∀ lid', lid' ≠ iFileVerInfoLid → lid' ≠ lid → (turns p env).next d lid lid' = d lid') ∧
      ((d lid = none ∨ nvmCmpFileVerNo p.tables lid verFile = true) ∧ verFile' = verFile ∨
        ∃ file, d lid = some file ∧ nvmCmpFileVerNo p.tables lid verFile = false ∧
          verFile' = (updated f lid)^[updates p (env lid) lid f verFile file] verFile) := by
  obtain ⟨f, hf⟩ := Option.isSome_iff_exists.mp enabled.1
  change ∃ f verFile', _ ∧ (turn p env lid d).2 _ = _ ∧
    (∀ lid', _ → _ → (turn p env lid d).2 lid' = _) ∧ _
  cases hfile : d lid with
  | none =>
    have hsame : turn p env lid d = (true, d) := by rw [turn, if_pos hfile]
    rw [hsame]
    exact ⟨f, verFile, hf, hv, fun _ _ _ => rfl, Or.inl ⟨Or.inl rfl, rfl⟩⟩
  | some file =>
    cases hcmp : nvmCmpFileVerNo p.tables lid verFile with
    | true =>
      have hsame : turn p env lid d = (true, d) := by
        rw [turn, if_neg (by simp [hfile]), cmpFileVer_present _ _ hv, if_pos hcmp, hcmp]
      rw [hsame]
      exact ⟨f, verFile, hf, hv, fun _ _ _ => rfl, Or.inl ⟨Or.inr rfl, rfl⟩⟩
    | false =>
      have hcarries := turn_carries hlid hf hv hfile hcmp enabled.2
      refine ⟨f, _, hf, ?_, hcarries.others, Or.inr ⟨file, rfl, rfl, rfl⟩⟩
      rw [hcarries.version, hv, Option.map_some]

/-! ## The loop in the new format -/

/-- The files of the lids from here on are those of the call. -/
def Untouched (d₀ d : Disk) (lid : ℕ) : Prop := ∀ lid', 1 ≤ lid' → lid ≤ lid' → d lid' = d₀ lid'

theorem Untouched.step {d₀ d d' : Disk} {lid : ℕ} (h : Untouched d₀ d lid)
    (hothers : ∀ lid', lid' ≠ iFileVerInfoLid → lid' ≠ lid → d' lid' = d lid') :
    Untouched d₀ d' (lid + 1) := by
  intro lid' hone hle
  rw [hothers lid' (Nat.pos_iff_ne_zero.mp hone) (by omega)]
  exact h lid' hone (by omega)

theorem wanted_of_file {t : Tables} {d : Disk} {lid : ℕ} (hone : 1 ≤ lid) {file : List UInt8}
    (hfile : d lid = some file) {f : TCfgFile} (hf : t.cfgFile lid = some f) :
    wanted t d lid = some (f.targetName, f.cFileVer) := by
  rw [wanted, if_pos ⟨hone, by rw [hfile]; rfl⟩, hf]
  rfl

theorem wanted_of_none {t : Tables} {d : Disk} {lid : ℕ} (h : d lid = none) :
    wanted t d lid = none := by
  rw [wanted, if_neg (by simp [h])]

theorem mem_wanted {t : Tables} {d : Disk} {lid : ℕ} {r : List UInt8 × List UInt8}
    (h : r ∈ wanted t d lid) : 1 ≤ lid ∧ (d lid).isSome ∧
      ∃ f, t.cfgFile lid = some f ∧ r = (f.targetName, f.cFileVer) := by
  unfold wanted at h
  split at h
  · next hlid =>
    obtain ⟨f, hf, hr⟩ := Option.mem_map.mp h
    exact ⟨hlid.1, hlid.2, f, hf, hr.symm⟩
  · cases h

/-- Once or twice updated, the slots have served the lid. -/
theorem slots_updates {f : TCfgFile} {lid : ℕ} {verFile : List UInt8} (h : NewFormat verFile)
    (hname : f.targetName ≠ []) (env : Surroundings) (file : List UInt8) :
    NewFormat ((updated f lid)^[updates p env lid f verFile file] verFile) ∧
      slots ((updated f lid)^[updates p env lid f verFile file] verFile) =
        (slots verFile).serve (lid + 1) f.targetName f.cFileVer := by
  have hserved : slots (Nvram.updated f lid verFile) =
      (slots verFile).serve (lid + 1) f.targetName f.cFileVer := h.slots_updated
  unfold updates
  split
  · refine ⟨h.updated.updated, ?_⟩
    change slots (updated f lid (updated f lid verFile)) = _
    rw [h.updated.slots_updated, hserved]
    exact Directory.serve_serve h.trimmed hname
  · exact ⟨h.updated, hserved⟩

/-! ## An update in the old format -/

theorem cFbyte_drop (file : List UInt8) (off : ℕ) : cFbyte (file.drop off) 0 = cFbyte file off := by
  rw [cFbyte_eq_window, cFbyte_eq_window, window_drop, Nat.zero_add]

section OldUpdate

variable {f : TCfgFile} {lid : ℕ} {verFile : List UInt8} (h : Numeric verFile)

include h

theorem compares_old {t : Tables} (hf : t.cfgFile lid = some f) (hs : slash ∈ f.cFileName) :
    nvmCmpFileVerNo t lid verFile = true ↔
      cFbyte (verFile.drop (lid * fileVerLength)) 0 = f.cFileVer := by
  rw [nvmCmpFileVerNo_iff hf hs, recordedVer_old (old_of_numeric h), Option.some_inj, cFbyte_drop]

theorem updates_old (env : Surroundings) (file : List UInt8) :
    updates p env lid f verFile file =
      if fileVerLength ≤ (verFile.drop (lid * fileVerLength)).length ∧
        resetsConverted p env lid f (atoi (cString
          ((verFile.drop (lid * fileVerLength)).take (fileVerLength - 1)))) file then 2 else 1 := by
  have hoff : slotVerOffset verFile lid = lid * fileVerLength := by
    rw [slotVerOffset, old_of_numeric h, if_neg Bool.false_ne_true]
  rw [updates, convertedVer, hoff, List.length_drop]
  by_cases hfits : lid * fileVerLength + fileVerLength > verFile.length
  · have hshort : ¬ fileVerLength ≤ verFile.length - lid * fileVerLength := by
      simp only [fileVerLength] at hfits ⊢
      omega
    rw [if_pos hfits, Option.any_none, if_neg Bool.false_ne_true, if_neg (fun hc => hshort hc.1)]
  · have hlong : fileVerLength ≤ verFile.length - lid * fileVerLength := by omega
    have hterminated : ∀ s : List UInt8, cString (s ++ [0]) = cString s := fun s =>
      cString_append_zeros s 1
    rw [if_neg hfits, Option.any_some, hterminated, readAt]
    simp only [hlong, true_and]

variable (hname : ¬ Numeric f.targetName)

include hname

theorem writesBehind_old : WritesBehind f lid verFile ↔ verFile.length ≤ lid * fileVerLength := by
  rw [WritesBehind, findTarget_numeric h hname, eq_self, true_implies]

theorem updated_earlier {lid' : ℕ} (hlt : lid' < lid) :
    cFbyte (updated f lid verFile) (lid' * fileVerLength) =
      cFbyte verFile (lid' * fileVerLength) := by
  by_cases hfull : verFile.length ≤ lid * fileVerLength
  · rw [updated_old_written (old_of_numeric h) ((writesBehind_old h hname).mpr hfull), cFbyte_written,
      if_neg (by omega), if_neg (by omega)]
  · rw [updated_old_inserted (old_of_numeric h) (mt (writesBehind_old h hname).mp hfull),
      cFbyte_inserted (Nat.le_of_not_le hfull), if_pos hlt]

theorem updated_room (hroom : lid * fileVerLength < verFile.length) :
    cFbyte (updated f lid verFile) (lid * fileVerLength) = f.cFileVer ∧
      (updated f lid verFile).drop (lid * fileVerLength) =
        f.cFileVer ++ verFile.drop (lid * fileVerLength) := by
  have hnot : ¬ WritesBehind f lid verFile :=
    mt (writesBehind_old h hname).mp (Nat.not_le_of_lt hroom)
  rw [updated_old_inserted (old_of_numeric h) hnot]
  constructor
  · rw [cFbyte_inserted hroom.le, if_neg (Nat.lt_irrefl lid), if_pos rfl]
  · rw [List.append_assoc]
    exact List.drop_left' (by rw [List.length_take]; omega)

theorem updated_full (hfull : verFile.length ≤ lid * fileVerLength) :
    cFbyte (updated f lid verFile) (lid * fileVerLength) =
      cFbyte verFile (lid * fileVerLength) := by
  rw [updated_old_written (old_of_numeric h) ((writesBehind_old h hname).mpr hfull), cFbyte_written,
    if_neg (by omega), if_neg (by omega)]

/-- Where there is room the version stands in its place, once or twice. -/
theorem updates_room (hver : Numeric f.cFileVer) (hroom : lid * fileVerLength < verFile.length)
    (again : Prop) [Decidable again] :
    cFbyte ((updated f lid)^[if again then 2 else 1] verFile) (lid * fileVerLength) = f.cFileVer ∧
      ((updated f lid)^[if again then 2 else 1] verFile).drop ((lid + 1) * fileVerLength) =
        if again then f.cFileVer ++ verFile.drop (lid * fileVerLength)
        else verFile.drop (lid * fileVerLength) := by
  have hbehind : ∀ bytes : List UInt8, (f.cFileVer ++ bytes).drop fileVerLength = bytes :=
    fun bytes => List.drop_left' f.ver_length
  obtain ⟨honce, hrest⟩ := updated_room h hname hroom
  split
  · have hroom' : lid * fileVerLength < (updated f lid verFile).length := by
      by_contra hfull
      rw [List.drop_eq_nil_of_le (Nat.le_of_not_lt hfull)] at hrest
      exact List.append_ne_nil_of_left_ne_nil
        (List.ne_nil_of_length_pos (by rw [f.ver_length]; decide)) _ hrest.symm
    obtain ⟨htwice, hrest'⟩ := updated_room (numeric_updated h hver hname) hname hroom'
    refine ⟨htwice, ?_⟩
    change (updated f lid (updated f lid verFile)).drop _ = _
    rw [Nat.succ_mul, ← List.drop_drop, hrest', hrest, hbehind]
  · refine ⟨honce, ?_⟩
    change (updated f lid verFile).drop _ = _
    rw [Nat.succ_mul, ← List.drop_drop, hrest, hbehind]

theorem updates_keep (hver : Numeric f.cFileVer) (n : ℕ) :
    Numeric ((updated f lid)^[n] verFile) ∧ ∀ lid' < lid,
      cFbyte ((updated f lid)^[n] verFile) (lid' * fileVerLength) =
        cFbyte verFile (lid' * fileVerLength) := by
  induction n with
  | zero => exact ⟨h, fun _ _ => rfl⟩
  | succ n ih =>
    rw [Function.iterate_succ_apply']
    refine ⟨numeric_updated ih.1 hver hname, fun lid' hlt => ?_⟩
    rw [updated_earlier ih.1 hname hlt, ih.2 lid' hlt]

/-- The version comes into its place where something is left to put it in front of. -/
theorem updates_findsRoom (hver : Numeric f.cFileVer)
    (hne : ¬ cFbyte (verFile.drop (lid * fileVerLength)) 0 = f.cFileVer) (env : ℕ → Surroundings)
    (d : Disk) (lids : List ℕ) (file : List UInt8) :
    cFbyte ((updated f lid)^[updates p (env lid) lid f verFile file] verFile)
          (lid * fileVerLength) = f.cFileVer ∧
        findsRoom p env d lids (((updated f lid)^[updates p (env lid) lid f verFile file]
          verFile).drop ((lid + 1) * fileVerLength)) = true ↔
      verFile.drop (lid * fileVerLength) ≠ [] ∧ findsRoom p env d lids
        (if fileVerLength ≤ (verFile.drop (lid * fileVerLength)).length ∧
          resetsConverted p (env lid) lid f (atoi (cString
            ((verFile.drop (lid * fileVerLength)).take (fileVerLength - 1)))) file
        then f.cFileVer ++ verFile.drop (lid * fileVerLength)
        else verFile.drop (lid * fileVerLength)) = true := by
  rw [updates_old h]
  by_cases hfull : verFile.length ≤ lid * fileVerLength
  · have hrest : verFile.drop (lid * fileVerLength) = [] := List.drop_eq_nil_of_le hfull
    have hshort : ¬ fileVerLength ≤ ([] : List UInt8).length := by decide
    rw [hrest] at hne ⊢
    rw [if_neg (fun hc => hshort hc.1)]
    refine iff_of_false (fun hc => hne ?_) fun hc => hc.1 rfl
    rw [← hrest, cFbyte_drop, ← updated_full h hname hfull]
    exact hc.1
  · have hroom : lid * fileVerLength < verFile.length := Nat.lt_of_not_le hfull
    have hrest : verFile.drop (lid * fileVerLength) ≠ [] := by
      intro hnil
      exact hfull (List.drop_eq_nil_iff.mp hnil)
    obtain ⟨hreads, hleft⟩ := updates_room h hname hver hroom
      (fileVerLength ≤ (verFile.drop (lid * fileVerLength)).length ∧
        resetsConverted p (env lid) lid f (atoi (cString
          ((verFile.drop (lid * fileVerLength)).take (fileVerLength - 1)))) file)
    rw [hreads, hleft]
    exact and_congr_left fun _ => iff_of_true rfl hrest

end OldUpdate

section Loop

variable {d₀ : Disk} (hpaths : ∀ lid f, 1 ≤ lid → (d₀ lid).isSome → p.tables.cfgFile lid = some f →
  slash ∈ f.cFileName) (ht : Numbered p.tables)

include hpaths ht

/-- The slots attend to the lids in order. -/
theorem turns_new (start : Directory (List UInt8) (List UInt8)) (m : ℕ) {lid : ℕ} (hone : 1 ≤ lid)
    {d : Disk} (hd : Untouched d₀ d lid) {verFile : List UInt8} (hv : d iFileVerInfoLid = some verFile)
    (h : NewFormat verFile)
    (hslots : slots verFile = start.attended (wanted p.tables d₀) lid)
    (legal : (turns p env).Legal d (List.range' lid m)) :
    ∃ verFile', (turns p env).run d (List.range' lid m) iFileVerInfoLid = some verFile' ∧
      NewFormat verFile' ∧ slots verFile' = start.attended (wanted p.tables d₀) (lid + m) := by
  induction m generalizing lid d verFile with
  | zero => exact ⟨verFile, hv, h, hslots⟩
  | succ m ih =>
    rw [List.range'_succ] at legal ⊢
    obtain ⟨f, verFile', hf, hv', hothers, hturn⟩ :=
      turn_cases (Nat.pos_iff_ne_zero.mp hone) hv legal.1
    have hown : d lid = d₀ lid := hd lid hone le_rfl
    have hnext : NewFormat verFile' ∧
        slots verFile' = start.attended (wanted p.tables d₀) (lid + 1) := by
      rw [Directory.attended, ← hslots]
      cases hfile : d₀ lid with
      | none =>
        rw [wanted_of_none hfile]
        rcases hturn with ⟨-, rfl⟩ | ⟨file, hfile', -⟩
        · exact ⟨h, rfl⟩
        · rw [hown, hfile] at hfile'
          cases hfile'
      | some file =>
        have hs : slash ∈ f.cFileName := hpaths lid f hone (by rw [hfile]; rfl) hf
        have hname := ht.name_ne_nil hf hs
        have hcmp := nvmCmpFileVerNo_iff hf hs verFile
        rw [h.recordedVer] at hcmp
        rw [wanted_of_file hone hfile hf]
        change _ ∧ _ = (slots verFile).attend (lid + 1) f.targetName f.cFileVer
        rcases hturn with ⟨hsame, rfl⟩ | ⟨file', -, hunequal, rfl⟩
        · rcases hsame with hnone | hequal
          · rw [hown, hfile] at hnone
            cases hnone
          · rw [Directory.attend, if_pos (hcmp.mp hequal)]
            exact ⟨h, rfl⟩
        · rw [Directory.attend, if_neg (fun hlookup => by simp [hcmp.mpr hlookup] at hunequal)]
          exact slots_updates h hname (env lid) file'
    rw [show lid + (m + 1) = lid + 1 + m by omega]
    exact ih (Nat.le_succ_of_le hone) (hd.step hothers) hv' hnext.1 hnext.2 legal.2

/-- A turn, as the condition has it: what is read in the lid's place, and what is left behind it. -/
theorem turn_old {lid : ℕ} (hone : 1 ≤ lid) {f : TCfgFile} (hf : p.tables.cfgFile lid = some f)
    {verFile next : List UInt8} (h : Numeric verFile) (lids : List ℕ)
    (hturn : (d₀ lid = none ∨ nvmCmpFileVerNo p.tables lid verFile = true) ∧ next = verFile ∨
      ∃ file, d₀ lid = some file ∧ nvmCmpFileVerNo p.tables lid verFile = false ∧
        next = (updated f lid)^[updates p (env lid) lid f verFile file] verFile) :
    Numeric next ∧
      (∀ lid' < lid, cFbyte next (lid' * fileVerLength) = cFbyte verFile (lid' * fileVerLength)) ∧
      (((d₀ lid).isSome → cFbyte next (lid * fileVerLength) = f.cFileVer) ∧
          findsRoom p env d₀ lids (next.drop ((lid + 1) * fileVerLength)) = true ↔
        findsRoom p env d₀ (lid :: lids) (verFile.drop (lid * fileVerLength)) = true) := by
  have hplace : verFile.drop ((lid + 1) * fileVerLength) =
      (verFile.drop (lid * fileVerLength)).drop fileVerLength := by
    rw [Nat.succ_mul, List.drop_drop]
  rw [findsRoom, hf]
  cases hfile : d₀ lid with
  | none =>
    rcases hturn with ⟨-, rfl⟩ | ⟨file, hfile', -⟩
    · refine ⟨h, fun _ _ => rfl, ?_⟩
      simp only [Option.isSome_none, Bool.false_eq_true, false_implies, true_and, hplace]
    · rw [hfile] at hfile'
      cases hfile'
  | some file =>
    have hs : slash ∈ f.cFileName := hpaths lid f hone (by rw [hfile]; rfl) hf
    have hcmp := compares_old h hf hs
    rw [hfile] at hturn
    simp only [Option.isSome_some, true_implies]
    rcases hturn with ⟨hsame | hequal, rfl⟩ | ⟨file', hfile', hunequal, rfl⟩
    · cases hsame
    · have hver := hcmp.mp hequal
      refine ⟨h, fun _ _ => rfl, ?_⟩
      rw [if_pos hver, ← cFbyte_drop, hplace]
      exact and_iff_right hver
    · cases hfile'
      have hname := ht.names lid f hf hs
      have hver := ht.versions lid f hf
      have hne : ¬ cFbyte (verFile.drop (lid * fileVerLength)) 0 = f.cFileVer := fun hver => by
        simp [hcmp.mpr hver] at hunequal
      obtain ⟨hnumeric, hearlier⟩ :=
        @updates_keep f lid verFile h hname hver (updates p (env lid) lid f verFile file)
      refine ⟨hnumeric, hearlier, ?_⟩
      rw [if_neg hne, decide_eq_true_iff]
      exact updates_findsRoom h hname hver hne env d₀ lids file

/-- The lids read on in the version file: what a turn finds in its place is what is left. -/
theorem turns_old (m : ℕ) {lid : ℕ} (hone : 1 ≤ lid) {d : Disk} (hd : Untouched d₀ d lid)
    {verFile : List UInt8} (hv : d iFileVerInfoLid = some verFile) (h : Numeric verFile)
    (legal : (turns p env).Legal d (List.range' lid m)) :
    ∃ verFile', (turns p env).run d (List.range' lid m) iFileVerInfoLid = some verFile' ∧
      Numeric verFile' ∧
      (∀ lid' < lid, cFbyte verFile' (lid' * fileVerLength) =
        cFbyte verFile (lid' * fileVerLength)) ∧
      ((∀ lid' f, lid ≤ lid' → lid' < lid + m → (d₀ lid').isSome → p.tables.cfgFile lid' = some f →
          cFbyte verFile' (lid' * fileVerLength) = f.cFileVer) ↔
        findsRoom p env d₀ (List.range' lid m) (verFile.drop (lid * fileVerLength)) = true) := by
  induction m generalizing lid d verFile with
  | zero =>
    refine ⟨verFile, hv, h, fun _ _ => rfl, iff_of_true (fun lid' f hle hlt => ?_) rfl⟩
    omega
  | succ m ih =>
    rw [List.range'_succ] at legal ⊢
    obtain ⟨f, next, hf, hnext, hothers, hturn⟩ :=
      turn_cases (Nat.pos_iff_ne_zero.mp hone) hv legal.1
    rw [hd lid hone le_rfl] at hturn
    obtain ⟨hnumeric, hearlier, hreads⟩ :=
      turn_old hpaths ht hone hf h (List.range' (lid + 1) m) hturn
    obtain ⟨verFile', hrun, hnumeric', hkept, htail⟩ :=
      ih (Nat.le_succ_of_le hone) (hd.step hothers) hnext hnumeric legal.2
    refine ⟨verFile', hrun, hnumeric', fun lid' hlt => ?_, ?_⟩
    · rw [hkept lid' (Nat.lt_succ_of_lt hlt), hearlier lid' hlt]
    · rw [← hreads, ← htail, ← hkept lid (Nat.lt_succ_self lid)]
      constructor
      · intro hall
        refine ⟨fun hsome => hall lid f le_rfl (by omega) hsome hf, ?_⟩
        exact fun lid' g hle hlt => hall lid' g (by omega) (by omega)
      · rintro ⟨hhead, htail⟩ lid' g hle hlt hsome hg
        rcases Nat.eq_or_lt_of_le hle with rfl | hlt'
        · rw [hf] at hg
          cases hg
          exact hhead hsome
        · exact htail lid' g hlt' (by omega) hsome hg

end Loop

theorem cmpFileVer_iff {t : Tables} {lid : ℕ} {f : TCfgFile} (hf : t.cfgFile lid = some f)
    (hs : slash ∈ f.cFileName) {d : Disk} {verFile : List UInt8}
    (hd : d iFileVerInfoLid = some verFile) :
    (cmpFileVer t lid d).1 = true ↔ recordedVer f lid verFile = some f.cFileVer := by
  rw [cmpFileVer_present t lid hd]
  exact nvmCmpFileVerNo_iff hf hs verFile

theorem slash_of_cmpFileVer {t : Tables} {lid : ℕ} {f : TCfgFile} (hf : t.cfgFile lid = some f)
    {d : Disk} (h : (cmpFileVer t lid d).1 = true) : slash ∈ f.cFileName := by
  by_contra hs
  simp [cmpFileVer, hf, hs] at h

section Compare

variable {d₀ d : Disk} (hpaths : ∀ lid f, 1 ≤ lid → (d₀ lid).isSome →
  p.tables.cfgFile lid = some f → slash ∈ f.cFileName)

include hpaths

theorem compares_iff {verFile : List UInt8} (hv : d iFileVerInfoLid = some verFile) :
    (∀ lid, 1 ≤ lid → lid < p.tables.iNvRamFileMaxLid → (d₀ lid).isSome →
        (cmpFileVer p.tables lid d).1 = true) ↔
      ∀ lid f, 1 ≤ lid → (d₀ lid).isSome → p.tables.cfgFile lid = some f →
        recordedVer f lid verFile = some f.cFileVer := by
  constructor
  · intro h lid f hone hsome hf
    rw [← cmpFileVer_iff hf (hpaths lid f hone hsome hf) hv]
    exact h lid hone (Tables.lt_of_cfgFile hf) hsome
  · intro h lid hone hlid hsome
    obtain ⟨f, hf⟩ := Tables.exists_cfgFile hlid
    rw [cmpFileVer_iff hf (hpaths lid f hone hsome hf) hv]
    exact h lid f hone hsome hf

variable (ht : Numbered p.tables) (hd : Untouched d₀ d 1) {verFile : List UInt8}
  (hv : d iFileVerInfoLid = some verFile)
  (legal : (turns p env).Legal d (List.range' 1 (p.tables.iNvRamFileMaxLid - 1)))

include ht hd hv legal

theorem turns_recorded_new (h : NewFormat verFile) : ∃ verFile',
    (turns p env).run d (List.range' 1 (p.tables.iNvRamFileMaxLid - 1)) iFileVerInfoLid =
        some verFile' ∧
      ((∀ lid f, 1 ≤ lid → (d₀ lid).isSome → p.tables.cfgFile lid = some f →
          recordedVer f lid verFile' = some f.cFileVer) ↔
        (slots verFile).Compatible (wanted p.tables d₀) p.tables.iNvRamFileMaxLid) := by
  have hstart : slots verFile = (slots verFile).attended (wanted p.tables d₀) 1 := by
    rw [Directory.attended]
    rfl
  obtain ⟨verFile', hend, h', hslots⟩ :=
    turns_new hpaths ht (slots verFile) _ le_rfl hd hv h hstart legal
  refine ⟨verFile', hend, ?_⟩
  rcases Nat.eq_zero_or_pos p.tables.iNvRamFileMaxLid with hzero | hpos
  · have hnone : ∀ lid, ¬ lid < p.tables.iNvRamFileMaxLid := fun lid hlid => by omega
    refine iff_of_true (fun lid f _ _ hf => absurd (Tables.lt_of_cfgFile hf) (hnone lid)) ?_
    exact ⟨fun q hq => absurd hq (hnone q), fun q hq => absurd hq (hnone q)⟩
  · rw [Nat.add_sub_cancel' hpos] at hslots
    have hnames : ∀ lid, ∀ r ∈ wanted p.tables d₀ lid, r.1 ≠ [] := by
      intro lid r hr
      obtain ⟨hone, hsome, f, hf, rfl⟩ := mem_wanted hr
      exact ht.name_ne_nil hf (hpaths lid f hone hsome hf)
    rw [← Directory.attended_iff h.trimmed hnames, ← hslots]
    constructor
    · intro hall lid hlid r hr
      obtain ⟨hone, hsome, f, hf, rfl⟩ := mem_wanted hr
      rw [← h'.recordedVer]
      exact hall lid f hone hsome hf
    · intro hall lid f hone hsome hf
      obtain ⟨file, hfile⟩ := Option.isSome_iff_exists.mp hsome
      rw [h'.recordedVer]
      exact hall lid (Tables.lt_of_cfgFile hf) _ (wanted_of_file hone hfile hf)

theorem turns_recorded_old (h : Numeric verFile) : ∃ verFile',
    (turns p env).run d (List.range' 1 (p.tables.iNvRamFileMaxLid - 1)) iFileVerInfoLid =
        some verFile' ∧
      ((∀ lid f, 1 ≤ lid → (d₀ lid).isSome → p.tables.cfgFile lid = some f →
          recordedVer f lid verFile' = some f.cFileVer) ↔
        findsRoom p env d₀ (List.range' 1 (p.tables.iNvRamFileMaxLid - 1))
          (verFile.drop fileVerLength) = true) := by
  obtain ⟨verFile', hend, h', -, hiff⟩ := turns_old hpaths ht _ le_rfl hd hv h legal
  rw [Nat.one_mul] at hiff
  refine ⟨verFile', hend, ?_⟩
  rw [← hiff]
  simp only [recordedVer_old (old_of_numeric h'), Option.some_inj]
  constructor
  · exact fun hall lid f hone _ => hall lid f hone
  · intro hall lid f hone hsome hf
    have hlt := Tables.lt_of_cfgFile hf
    exact hall lid f hone (by omega) hsome hf

end Compare

/-- The lids compare equal behind the loop just where their versions were in place. -/
theorem turns_compare_iff (ht : Numbered p.tables) {d₀ d d' : Disk} {verFile : List UInt8}
    (hformat : InFormat verFile) (hd : Untouched d₀ d 1) (hv : d iFileVerInfoLid = some verFile)
    (legal : (turns p env).Legal d (List.range' 1 (p.tables.iNvRamFileMaxLid - 1)))
    (hrun : (turns p env).run d (List.range' 1 (p.tables.iNvRamFileMaxLid - 1)) = d') :
    (∀ lid, 1 ≤ lid → lid < p.tables.iNvRamFileMaxLid → (d₀ lid).isSome →
        (cmpFileVer p.tables lid d').1 = true) ↔ InPlace p env d₀ verFile := by
  by_cases hpaths : ∀ lid f, 1 ≤ lid → (d₀ lid).isSome → p.tables.cfgFile lid = some f →
      slash ∈ f.cFileName
  · rcases hformat with hnew | hnumeric
    · obtain ⟨verFile', hend, hiff⟩ := turns_recorded_new hpaths ht hd hv legal hnew
      rw [compares_iff hpaths (hrun ▸ hend), hiff]
      refine ⟨fun h => ⟨hpaths, fun _ => h, fun hold => ?_⟩, fun h => h.records hnew.header⟩
      simp [hnew.header] at hold
    · obtain ⟨verFile', hend, hiff⟩ := turns_recorded_old hpaths ht hd hv legal hnumeric
      have hold : bIsNewVerInfo verFile = false := old_of_numeric hnumeric
      rw [compares_iff hpaths (hrun ▸ hend), hiff]
      refine ⟨fun h => ⟨hpaths, fun hnew => ?_, fun _ => h⟩, fun h => h.versions hold⟩
      simp [hold] at hnew
  · refine iff_of_false (fun hall => hpaths ?_) fun h => hpaths h.paths
    intro lid f hone hsome hf
    exact slash_of_cmpFileVer hf (hall lid hone (Tables.lt_of_cfgFile hf) hsome)

/-- Where the call does not return false, every lid whose file existed compares equal just when the
version file had the versions in place. -/
theorem converted_versions_compare_iff (p : Platform) (env : ℕ → Surroundings)
    {iOldCommonFileNum iOldCustomFileNum : ℕ} (hcommon : iOldCommonFileNum ≠ 0)
    (hcustom : iOldCustomFileNum ≠ 0) {d : Disk} {file : List UInt8}
    (hfile : d iFileVerInfoLid = some file) (hformat : InFormat file) (ht : Numbered p.tables)
    (returns : ∀ result, nvmDataVerConvertAll p env iOldCommonFileNum iOldCustomFileNum d =
      some result → result.1 = true) :
    (∃ d', nvmDataVerConvertAll p env iOldCommonFileNum iOldCustomFileNum d = some (true, d') ∧
        ∀ lid, 1 ≤ lid → lid < p.tables.iNvRamFileMaxLid → (d lid).isSome →
          (cmpFileVer p.tables lid d').1 = true) ↔
      ∃ verFile, nvmCheckFileNum p.tables iOldCommonFileNum iOldCustomFileNum file =
        some (true, verFile) ∧ InPlace p env d verFile := by
  have hcounts : ¬ (iOldCommonFileNum = 0 ∨ iOldCustomFileNum = 0) := by
    rintro (h | h)
    · exact hcommon h
    · exact hcustom h
  simp only [nvmDataVerConvertAll, hcounts, if_false, hfile] at returns ⊢
  cases hcheck : nvmCheckFileNum p.tables iOldCommonFileNum iOldCustomFileNum file with
  | none => simp
  | some result =>
    obtain ⟨ok, verFile⟩ := result
    cases ok with
    | false =>
      simp only [hcheck] at returns
      have hfalse := returns _ rfl
      cases hfalse
    | true =>
      simp only [hcheck] at returns ⊢
      generalize hd₁ : Function.update d iFileVerInfoLid (some verFile) = d₁ at returns ⊢
      have hreturned := returns _ rfl
      obtain ⟨hlegal, hrun⟩ := convertLoop_run hreturned
      have hv : d₁ iFileVerInfoLid = some verFile := by rw [← hd₁, Function.update_self]
      have hd : Untouched d d₁ 1 := by
        intro lid hone _
        have hlid : lid ≠ iFileVerInfoLid := Nat.pos_iff_ne_zero.mp hone
        rw [← hd₁, Function.update_of_ne hlid]
      have hformat' := nvmCheckFileNum_format ht _ _ hcheck hformat
      have hiff := turns_compare_iff ht hformat' hd hv hlegal hrun.symm
      constructor
      · rintro ⟨d', hd', hcompare⟩
        refine ⟨verFile, rfl, hiff.mp ?_⟩
        rw [congrArg Prod.snd (Option.some.inj hd')]
        exact hcompare
      · rintro ⟨_, ⟨⟩, hplace⟩
        exact ⟨_, congrArg some (Prod.ext hreturned rfl), hiff.mpr hplace⟩

/-- A version file in the old format and the file of lid 1. -/
def oldFormatDisk (verFile : List UInt8) : Disk := fun lid =>
  if lid = 0 then some verFile else if lid = 1 then some [5] else none

/-- "001", "000", "000" and "001" -/
def fourVersions : List UInt8 := [48, 48, 49, 0, 48, 48, 48, 0, 48, 48, 48, 0, 48, 48, 49, 0]

theorem smallTables_entries : ∀ lid < 4, ∀ f ∈ smallTables.cfgFile lid,
    slash ∈ f.cFileName ∧ Numeric f.cFileVer ∧ ¬ Numeric f.targetName := by
  decide

theorem smallTables_entry {lid : ℕ} {f : TCfgFile} (hf : smallTables.cfgFile lid = some f) :
    slash ∈ f.cFileName ∧ Numeric f.cFileVer ∧ ¬ Numeric f.targetName := by
  exact smallTables_entries lid (Tables.lt_of_cfgFile hf) f hf

/-- Two of four versions are behind; room is made for the one whose file exists. -/
theorem old_format_converted :
    ∃ d', nvmDataVerConvertAll smallPlatform (fun _ => quiet) 2 2 (oldFormatDisk fourVersions) =
        some (true, d') ∧ (cmpFileVer smallTables 1 d').1 = true := by
  have hnumbered : Numbered smallTables :=
    ⟨fun _ _ hf => (smallTables_entry hf).2.1, fun _ _ hf _ => (smallTables_entry hf).2.2⟩
  have hplace : InPlace smallPlatform (fun _ => quiet) (oldFormatDisk fourVersions) fourVersions :=
    ⟨fun _ _ _ _ hf => (smallTables_entry hf).1, fun hnew => absurd hnew (by decide),
      fun _ => by decide⟩
  obtain ⟨d₁, hd₁⟩ : ∃ d', nvmDataVerConvertAll smallPlatform (fun _ => quiet) 2 2
      (oldFormatDisk fourVersions) = some (true, d') := ⟨_, by rfl⟩
  have returns : ∀ result, nvmDataVerConvertAll smallPlatform (fun _ => quiet) 2 2
      (oldFormatDisk fourVersions) = some result → result.1 = true := by
    intro result h
    rw [hd₁] at h
    cases h
    rfl
  obtain ⟨d', hd', hcompare⟩ := (converted_versions_compare_iff smallPlatform (fun _ => quiet)
    (by decide) (by decide) (by rfl) (Or.inr (by decide)) hnumbered returns).mpr
      ⟨fourVersions, by rfl, hplace⟩
  exact ⟨d', hd', hcompare 1 (by decide) (by decide) (by decide)⟩

/-- In the old format a version added at the end is not where the compare looks for it. -/
theorem old_format_stays_behind : ¬ ∀ (p : Platform) (env : ℕ → Surroundings) (common custom : ℕ)
    (d d' : Disk), common ≠ 0 → custom ≠ 0 →
      nvmDataVerConvertAll p env common custom d = some (true, d') →
        ∀ lid, 1 ≤ lid → lid < p.tables.iNvRamFileMaxLid → (d lid).isSome →
          (cmpFileVer p.tables lid d').1 = true := by
  intro h
  have hcmp := h smallPlatform (fun _ => quiet) 2 2 (oldFormatDisk [48, 48, 49, 0]) _ (by decide)
    (by decide) rfl 1 (by decide) (by decide) (by decide)
  revert hcmp
  decide

end Nvram
