import VendorMediatek.Faults
import VendorMediatek.TextInput

/-!
# The CPU usages of the thermal HAL

`Thermal::getCpuUsages` takes the number of cores from kernel_max and goes through the lines of
/proc/stat.
-/

namespace ThermalCpuUsages

open CStrings DecimalStrings Faults TextInput

structure CpuUsage where
  name : CString
  active : BitVec 64
  total : BitVec 64
  isOnline : Bool
  deriving DecidableEq, Repr

inductive ThermalStatusCode where
  | SUCCESS | FAILURE
  deriving DecidableEq, Repr

structure ThermalStatus where
  code : ThermalStatusCode
  debugMessage : CString
  deriving DecidableEq, Repr

def coreNum : CString := literal "/sys/devices/system/cpu/kernel_max"
def cpuUsage : CString := literal "/proc/stat"

/-- What the two files hold, or the errno of a failed open, and the texts of the errnos. -/
structure System where
  kernelMax : Except ℤ CString
  stat : Except ℤ CString
  strerror : ℤ → CString

def openFailure (system : System) (path : CString) (errno : ℤ) : ThermalStatus where
  code := .FAILURE
  debugMessage := literal "Failed to open " ++ path ++ literal ", error=" ++ printInt errno
    ++ literal " (" ++ system.strerror errno ++ literal ")"

/-- The variables that are declared in front of the loop over the lines, none of them
initialised. -/
structure Locals where
  user : BitVec 64
  nice : BitVec 64
  system : BitVec 64
  idle : BitVec 64
  cpu_id : BitVec 32
  deriving DecidableEq, Repr

/-- Lines that the loop goes past. -/
def skipped (line : CString) : Bool :=
  line.length < 4 || line ≠ literal "cpu" || !(line : CString)[3]?.any isDigit

/-- ss >> cpu_id >> user >> nice >> system >> idle -/
def extractFields (ss : IStream) (l : Locals) : Locals :=
  let (ss, cpu_id) := ss.extract l.cpu_id
  let (ss, user) := ss.extract l.user
  let (ss, nice) := ss.extract l.nice
  let (ss, system) := ss.extract l.system
  let (_, idle) := ss.extract l.idle
  ⟨user, nice, system, idle, cpu_id⟩

def setUsage (l : Locals) (usage : CpuUsage) : CpuUsage :=
  { usage with
    isOnline := true
    active := l.user + l.nice + l.system
    total := l.user + l.nice + l.system + l.idle }

/-- One turn of the loop over the lines. -/
def readLine (core_num : BitVec 32) (line : CString) (cpuUsages : List CpuUsage) (l : Locals) :
    Checked (List CpuUsage × Locals) :=
  if skipped line then .ok (cpuUsages, l)
  else
    let l := extractFields (.ofText line) l
    if l.cpu_id ≤ core_num then do
      let usage ← Faults.read cpuUsages l.cpu_id.toNat
      return (← put cpuUsages l.cpu_id.toNat (setUsage l usage), l)
    else .ok (cpuUsages, l)

def readLines (core_num : BitVec 32) : List CString → List CpuUsage → Locals →
    Checked (List CpuUsage × Locals)
  | [], cpuUsages, l => .ok (cpuUsages, l)
  | line :: rest, cpuUsages, l => do
    let (cpuUsages, l) ← readLine core_num line cpuUsages l
    readLines core_num rest cpuUsages l

def initialUsage (i : ℕ) : CpuUsage := ⟨literal "CPU" ++ decimal i, 0, 0, false⟩

/-- core_num is not initialised either. -/
def getCpuUsages (system : System) (core_num : BitVec 32) (l : Locals) :
    Checked (ThermalStatus × List CpuUsage) :=
  match system.kernelMax with
  | .error errno => .ok (openFailure system coreNum errno, [])
  | .ok text =>
    let core_num := ((IStream.ofText text).extract core_num).2
    let cpuUsages := (List.range core_num.toNat).map initialUsage
    match system.stat with
    | .error errno => .ok (openFailure system cpuUsage errno, cpuUsages)
    | .ok text => do
      let (cpuUsages, _) ← readLines core_num (lines text) cpuUsages l
      return (⟨.SUCCESS, []⟩, cpuUsages)

/-! ## What the usages should be -/

/-- A line of core i: cpu, the number of the core, white space, and then the counters. -/
def IsCoreLine (i : ℕ) (line counters : CString) : Prop :=
  line = literal "cpu" ++ decimal i ++ counters ∧ ∃ c ∈ counters.head?, isSpace c

/-- The sum of the first three counters, and of these and the fourth. -/
def times (counters : CString) : BitVec 64 × BitVec 64 :=
  let (ss, user) := (IStream.ofText counters).extract 0
  let (ss, nice) := ss.extract 0
  let (ss, system) := ss.extract 0
  let (_, idle) := ss.extract 0
  (user + nice + system, user + nice + system + idle)

structure ReportsCore (stat : CString) (i : ℕ) (usage : CpuUsage) : Prop where
  name : usage.name = literal "CPU" ++ decimal i
  online : usage.isOnline ↔ ∃ line ∈ lines stat, ∃ counters, IsCoreLine i line counters
  busy : usage.isOnline → ∃ line ∈ lines stat, ∃ counters, IsCoreLine i line counters ∧
    (usage.active, usage.total) = times counters
  idle : ¬usage.isOnline → usage.active = 0 ∧ usage.total = 0

/-- One entry for each of the cores 0 to m, as the lines of /proc/stat have it. -/
structure Reports (m : ℕ) (stat : CString) (cpuUsages : List CpuUsage) : Prop where
  cores : cpuUsages.length = m + 1
  core : ∀ i usage, cpuUsages[i]? = some usage → ReportsCore stat i usage

/-- The kernel writes kernel_max as a line of its own. -/
def kernelMaxText (m : ℕ) : CString := decimal m ++ [10]

/-! ## What they are -/

theorem skipped_eq_true (line : CString) : skipped line = true := by
  by_cases h : line = literal "cpu"
  · subst h
    decide
  · simp [skipped, h]

theorem readLines_eq (core_num : BitVec 32) (text : List CString) (cpuUsages : List CpuUsage)
    (l : Locals) : readLines core_num text cpuUsages l = .ok (cpuUsages, l) := by
  induction text with
  | nil => rfl
  | cons line rest ih =>
    have hline : readLine core_num line cpuUsages l = .ok (cpuUsages, l) :=
      if_pos (skipped_eq_true line)
    rw [readLines, bind_of_ok hline]
    exact ih

/-- Whatever /proc/stat holds, there are as many entries as kernel_max says, all of them offline. -/
theorem getCpuUsages_eq (m : ℕ) (stat : CString) (strerror : ℤ → CString) (core_num : BitVec 32)
    (l : Locals) :
    getCpuUsages ⟨.ok (kernelMaxText m), .ok stat, strerror⟩ core_num l =
      .ok (⟨.SUCCESS, []⟩, (List.range (min m (2 ^ 32 - 1))).map initialUsage) := by
  have hends : EndsNumber [10] := by
    rintro c ⟨⟩
    decide
  have hcores := extract_decimal m hends core_num
  simp only [getCpuUsages, kernelMaxText, hcores, readLines_eq]
  rfl

theorem length_ne_cores (m : ℕ) :
    ((List.range (min m (2 ^ 32 - 1))).map initialUsage).length ≠ m + 1 := by
  have hmin : min m (2 ^ 32 - 1) ≤ m := min_le_left _ _
  rw [List.length_map, List.length_range]
  omega

/-- For no kernel_max and no /proc/stat are the usages what they should be: one entry is missing. -/
theorem getCpuUsages_never_reports (m : ℕ) (stat : CString) (strerror : ℤ → CString)
    (core_num : BitVec 32) (l : Locals) :
    ¬∃ status cpuUsages, getCpuUsages ⟨.ok (kernelMaxText m), .ok stat, strerror⟩ core_num l =
        .ok (status, cpuUsages) ∧ Reports m stat cpuUsages := by
  rintro ⟨status, cpuUsages, h, reports⟩
  rw [getCpuUsages_eq] at h
  cases h
  exact length_ne_cores m reports.cores

/-- A core that /proc/stat has a line of is offline in the usages. -/
theorem online_core_is_offline :
    ¬∀ (m : ℕ) (stat : CString) (strerror : ℤ → CString) (core_num : BitVec 32) (l : Locals),
      ∃ status cpuUsages, getCpuUsages ⟨.ok (kernelMaxText m), .ok stat, strerror⟩ core_num l =
        .ok (status, cpuUsages) ∧ Reports m stat cpuUsages := by
  intro reports
  obtain ⟨status, cpuUsages, h, reports⟩ :=
    reports 3 (literal "cpu0 10 0 5 100") (fun _ => []) 0 ⟨0, 0, 0, 0, 0⟩
  rw [getCpuUsages_eq] at h
  cases h
  have core := reports.core 0 (initialUsage 0) (by decide)
  have line : ∃ line ∈ lines (literal "cpu0 10 0 5 100"), ∃ counters, IsCoreLine 0 line counters :=
    ⟨_, List.mem_singleton.mpr rfl, literal " 10 0 5 100", by decide, 32, by decide⟩
  exact absurd (core.online.mpr line) (by decide)

end ThermalCpuUsages
