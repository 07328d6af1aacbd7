import Mathlib
import SysAgent.Client.ProcessPaging

set_option autoImplicit false

/-! # From a profile to a report (`sysagent.py`, `debug trace-run` and `debug trace-report`)

`resolve_trace_profile` turns a profile into a plan with one absolute address for each target. The
export of the run records the targets' addresses with an identity of their processes, and
`_annotate_trace_with_plan` adds the fields of the plan. `report_trace_with_profile` and
`decode_trace_ipc` compute the addresses again, from the recorded identities and the profile.

The console gives the same answers during the run. A target of the file is known by its position;
`pairs` and snapshots are left out: no address depends on them. -/

namespace SysAgent

namespace TraceReport

/-! ## The console's answers -/

/-- An entry of `debug modules`. -/
structure ModuleInfo where
  base : UInt64
  size : UInt64
  buildId : String

/-- An entry of `debug maps`. -/
structure MapEntry where
  base : UInt64
  size : UInt64
  permission : UInt32

structure GameStatus where
  running : Bool
  pid : UInt64
  titleId : UInt64
  mainBase : UInt64

/-- `modules` are all modules of a process; `maps` and `read` are the answers to `debug maps`, with
    its `truncated`, and to `debug read`. -/
structure Console where
  game : GameStatus
  table : ProcessTable
  modules : UInt64 → List ModuleInfo
  maps : UInt64 → Option (List MapEntry × Bool)
  read : UInt64 → Nat → Nat → Option (List UInt8)

/-- `_parse_debug_modules` of `debug modules`; no module is an error. -/
def Console.debugModules (console : Console) (pid : UInt64) (limit : Nat) :
    Option (List ModuleInfo) :=
  match (console.modules pid).take limit with
  | [] => none
  | modules => some modules

/-- `_parse_executable_maps` of `debug maps`. -/
def Console.executableMaps (console : Console) (pid : UInt64) : Option (List MapEntry × Bool) :=
  (console.maps pid).map fun answer =>
    (answer.1.filter fun entry => entry.permission &&& 5 = 5, answer.2)

/-! ## Profiles -/

inductive Selector
  | foreground
  | titleId (titleId : Nat)
  | pid (pid : Nat)

/-- A process without `expect` has neither. -/
structure Expect where
  titleId : Option Nat
  buildId : Option String

structure Process where
  id : String
  selector : Selector
  mainModuleIndex : Option Nat
  expect : Expect

inductive TargetBase
  | main
  | code
  deriving DecidableEq

inductive TargetOffset
  | offset (offset : Nat)
  | symbol (name : String)

structure Target where
  id : String
  process : String
  base : TargetBase
  offset : TargetOffset
  expectBytes : Option (List UInt8)

/-- A profile that `load_trace_profile` accepts. -/
structure Profile where
  processes : List Process
  targets : List Target
  symbols : List (String × Nat)
  processes_length : processes.length = 1 ∨ processes.length = 2
  processes_nodup : (processes.map Process.id).Nodup
  targets_length : 1 ≤ targets.length ∧ targets.length ≤ 4
  targets_nodup : (targets.map Target.id).Nodup
  targets_process : ∀ target ∈ targets, target.process ∈ processes.map Process.id
  targets_two : processes.length = 2 → ∀ process ∈ processes,
    (targets.filter fun target => target.process = process.id).length = 2

/-- `_profile_offset`. -/
def profileOffset (value : Nat) : Option Nat :=
  if value % 4 = 0 then some value else none

/-- `_profile_target_offset`. -/
def Profile.targetOffset (profile : Profile) (target : Target) : Option Nat :=
  match target.offset with
  | .offset value => profileOffset value
  | .symbol name => (profile.symbols.lookup name).bind profileOffset

/-- `by_process`. -/
def Profile.targetsOf (profile : Profile) (process : Process) : List Target :=
  profile.targets.filter fun target => target.process = process.id

/-- `_profile_target_order`; an accepted profile has two targets for each of two processes. -/
def Profile.targetOrder (profile : Profile) : List Target :=
  match profile.processes with
  | [process0, process1] =>
    match profile.targetsOf process0, profile.targetsOf process1 with
    | first0 :: second0 :: _, first1 :: second1 :: _ => [first0, first1, second0, second1]
    | _, _ => []
  | _ => profile.targets

/-- `actual.upper().startswith(expected.upper())`; an empty expectation is none. -/
def buildMatches (actual : Option String) (expected : Option String) : Bool :=
  match expected with
  | none => true
  | some expected => expected == "" ||
    actual.any fun actual => expected.toUpper.toList.isPrefixOf actual.toUpper.toList

/-! ## The plan -/

structure PlannedProcess where
  id : String
  pid : UInt64
  titleId : Nat
  moduleIndex : Nat
  moduleBase : Nat
  moduleSize : Nat
  codeBase : Nat
  buildId : String

/-- `base_address` of `resolve_trace_profile`. -/
def PlannedProcess.baseAddress (process : PlannedProcess) : TargetBase → Nat
  | .code => process.codeBase
  | .main => process.moduleBase

structure PlannedTarget where
  id : String
  process : PlannedProcess
  address : Nat
  base : TargetBase
  offset : Nat

structure TracePlan where
  processes : List PlannedProcess
  targets : List PlannedTarget

/-- The process and its title; the first part of the loop over the processes. An id of more than 64
    bits is no process's. -/
def selectProcess (console : Console) (rounds : Nat) : Selector → Option (UInt64 × Nat)
  | .foreground =>
    if console.game.running then some (console.game.pid, console.game.titleId.toNat) else none
  | .titleId titleId =>
    if titleId < 2 ^ 64 then
      match findProfilePid console.table (UInt64.ofNat titleId) rounds with
      | some (.found pid, _) => some (pid, titleId)
      | _ => none
    else none
  | .pid pid =>
    if pid < 2 ^ 64 then
      match profileTitleForPid console.table (UInt64.ofNat pid) rounds with
      | some (some titleId) => some (UInt64.ofNat pid, titleId.toNat)
      | _ => none
    else none

/-- `module_index`: the foreground application's main module is found by its base. -/
def moduleIndex (console : Console) (process : Process) (modules : List ModuleInfo) : Option Nat :=
  match process.selector with
  | .foreground => modules.findIdx? fun entry => entry.base = console.game.mainBase
  | _ => some (process.mainModuleIndex.getD 0)

/-- One process of `resolve_trace_profile`. -/
def resolveProcess (console : Console) (rounds : Nat) (process : Process) :
    Option PlannedProcess := do
  let (pid, titleId) ← selectProcess console rounds process.selector
  let modules ← console.debugModules pid 2
  let index ← moduleIndex console process modules
  let selected ← modules[index]?
  let (maps, _) ← console.executableMaps pid
  let codeBase ← (maps.map fun entry => entry.base.toNat).min?
  if process.expect.titleId.all (· == titleId)
      && buildMatches (some selected.buildId) process.expect.buildId then
    some {
      id := process.id, pid, titleId, moduleIndex := index, moduleBase := selected.base.toNat
      moduleSize := selected.size.toNat, codeBase, buildId := selected.buildId }
  else none

/-- One target of `resolve_trace_profile`. -/
def resolveTarget (console : Console) (profile : Profile) (processes : List PlannedProcess)
    (target : Target) : Option PlannedTarget := do
  let process ← processes.find? fun process => process.id = target.process
  let offset ← profile.targetOffset target
  let address := process.baseAddress target.base + offset
  let (maps, truncated) ← console.executableMaps process.pid
  if (truncated || maps.any fun entry =>
        entry.base.toNat ≤ address && address < entry.base.toNat + entry.size.toNat)
      && target.expectBytes.all fun expected =>
        console.read process.pid address expected.length == some expected then
    some { id := target.id, process, address, base := target.base, offset }
  else none

/-- The targets in order; `addresses` are those of the targets before. -/
def resolveTargets (console : Console) (profile : Profile) (processes : List PlannedProcess) :
    List Target → List Nat → Option (List PlannedTarget)
  | [], _ => some []
  | target :: targets, addresses => do
    let planned ← resolveTarget console profile processes target
    if planned.address ∈ addresses then none
    else
      let rest ← resolveTargets console profile processes targets (planned.address :: addresses)
      some (planned :: rest)

def resolveTraceProfile (console : Console) (rounds : Nat) (profile : Profile) :
    Option TracePlan := do
  let processes ← profile.processes.mapM (resolveProcess console rounds)
  if (processes.map PlannedProcess.pid).Nodup then
    let targets ← resolveTargets console profile processes profile.targetOrder []
    some { processes, targets }
  else none

/-! ## The run and its file -/

/-- What the status of the tracer reports: the processes and the target addresses of the command. -/
inductive TracerTargets
  | single (pid : UInt64) (addresses : List Nat)
  | multi (pid0 pid1 : UInt64) (addresses : List Nat)

/-- `_start_plan_trace`. An address is a non-zero multiple of 4 of at most 64 bits. -/
def startPlanTrace (plan : TracePlan) : Option TracerTargets :=
  let addresses := plan.targets.map PlannedTarget.address
  if addresses.all fun address => address ≠ 0 ∧ address % 4 = 0 ∧ address < 2 ^ 64 then
    match plan.processes with
    | [process] => some (.single process.pid addresses)
    | [process0, process1] =>
      if addresses.length = 4 then some (.multi process0.pid process1.pid addresses) else none
    | _ => none
  else none

/-- `titleId` is "NA" where the process is not on the first page or has no title there. -/
structure ProcessMetadata where
  pid : UInt64
  titleId : Option UInt64
  moduleInfo : Option ModuleInfo
  codeBase : Option Nat

/-- The title of the first listed process with the pid. -/
def listedTitle (console : Console) (pid : UInt64) : Option UInt64 :=
  ((processList console.table 0 64).processes.find? fun entry => entry.pid = pid).bind
    ProcessEntry.title

/-- `module_entries.get("1", module_entries.get("0", ""))`. -/
def exportedModule (modules : List ModuleInfo) : Option ModuleInfo :=
  modules[1]?.or modules[0]?

/-- `_trace_process_metadata`. -/
def traceProcessMetadata (console : Console) (pid : UInt64) : ProcessMetadata :=
  match console.debugModules pid 2 with
  | none => { pid, titleId := listedTitle console pid, moduleInfo := none, codeBase := none }
  | some modules => {
      pid, titleId := listedTitle console pid, moduleInfo := exportedModule modules
      codeBase := (console.executableMaps pid).bind fun answer =>
        (answer.1.map fun entry => entry.base.toNat).min? }

/-- A target of the file; `plan` are the fields that `_annotate_trace_with_plan` adds. -/
structure TraceTarget where
  address : Nat
  process : ProcessMetadata
  plan : Option PlannedTarget

/-- The targets of `_export_single_trace` and `_export_multitrace`. -/
def exportTargets (console : Console) : TracerTargets → List TraceTarget
  | .single pid addresses =>
    let process := traceProcessMetadata console pid
    addresses.map fun address => { address, process, plan := none }
  | .multi pid0 pid1 addresses =>
    let process0 := traceProcessMetadata console pid0
    let process1 := traceProcessMetadata console pid1
    List.zipWith (fun address process => { address, process, plan := none }) addresses
      [process0, process1, process0, process1]

/-- `_annotate_trace_with_plan`. -/
def annotateTraceWithPlan (plan : TracePlan) (targets : List TraceTarget) : List TraceTarget :=
  targets.mapIdx fun index target =>
    match plan.targets[index]? with
    | some planned => { target with plan := some planned }
    | none => target

/-- The targets of the file of `debug trace-run`. -/
def traceRunOutput (console : Console) (plan : TracePlan) : Option (List TraceTarget) :=
  (startPlanTrace plan).map fun targets =>
    annotateTraceWithPlan plan (exportTargets console targets)

/-! ## The readers of the file -/

/-- `base_address` of both readers. -/
def TraceTarget.baseAddress (target : TraceTarget) : TargetBase → Option Nat
  | .code => target.plan.map fun planned => planned.process.codeBase
  | .main => target.process.moduleInfo.map fun entry => entry.base.toNat

/-- The targets of the profile with those of the file at the same positions. -/
def alignTargets {β : Type} (read : Target → TraceTarget → Option β) :
    List Target → List TraceTarget → Option (List β)
  | [], _ => some []
  | _ :: _, [] => none
  | target :: targets, recorded :: rest => do
    let first ← read target recorded
    let others ← alignTargets read targets rest
    some (first :: others)

structure ReportedTarget where
  id : String
  processId : String
  pid : UInt64
  titleId : Option UInt64
  buildId : Option String
  address : Nat
  offset : Nat

/-- `expected_title` of `report_trace_with_profile`. -/
def Process.expectedTitle (process : Process) : Option Nat :=
  match process.selector with
  | .titleId titleId => some titleId
  | _ => process.expect.titleId

def ProcessMetadata.buildId (process : ProcessMetadata) : Option String :=
  process.moduleInfo.map ModuleInfo.buildId

/-- One target of `report_trace_with_profile`. -/
def reportTarget (profile : Profile) (target : Target) (recorded : TraceTarget) :
    Option ReportedTarget := do
  let base ← recorded.baseAddress target.base
  let offset ← profile.targetOffset target
  let process ← profile.processes.find? fun process => process.id = target.process
  if recorded.address = base + offset
      ∧ process.expectedTitle.all (fun title =>
        recorded.process.titleId.map UInt64.toNat == some title)
      ∧ buildMatches recorded.process.buildId process.expect.buildId then
    some {
      id := target.id, processId := target.process, pid := recorded.process.pid
      titleId := recorded.process.titleId, buildId := recorded.process.buildId
      address := recorded.address, offset }
  else none

def reportTraceWithProfile (profile : Profile) (recorded : List TraceTarget) :
    Option (List ReportedTarget) :=
  if recorded.length < profile.targetOrder.length then none
  else alignTargets (reportTarget profile) profile.targetOrder recorded

/-- An entry of `target_metadata`. -/
structure DecodedTarget where
  id : String
  processId : String
  recorded : TraceTarget

/-- The check of one target in `decode_trace_ipc`. -/
def decodeTarget (profile : Profile) (target : Target) (recorded : TraceTarget) :
    Option DecodedTarget := do
  let offset ← profile.targetOffset target
  let base ← recorded.baseAddress target.base
  if base + offset = recorded.address then
    some { id := target.id, processId := target.process, recorded }
  else none

def decodeTraceTargets (profile : Profile) (recorded : List TraceTarget) :
    Option (List DecodedTarget) :=
  alignTargets (decodeTarget profile) profile.targetOrder recorded

/-! ## The law -/

/-- Both readers accept the file, and every target has the address and the build id of the plan. -/
structure AcceptsRun (profile : Profile) (plan : TracePlan) (recorded : List TraceTarget) :
    Prop where
  report : (reportTraceWithProfile profile recorded).map
      (List.map fun target => (target.id, target.address, target.buildId)) =
    some (plan.targets.map fun target => (target.id, target.address, some target.process.buildId))
  decode : (decodeTraceTargets profile recorded).map
      (List.map fun target =>
        (target.id, target.recorded.address, target.recorded.process.buildId)) =
    some (plan.targets.map fun target => (target.id, target.address, some target.process.buildId))

/-- The module the profile means. -/
def selectedModule (console : Console) (process : Process) (modules : List ModuleInfo) :
    Option ModuleInfo :=
  (moduleIndex console process modules).bind fun index => modules[index]?

/-- Of the two listed modules, the export takes one with the build id of the module that the profile
    means, and with its base where a target needs it; a title that the profile gives is listed on
    the first page. -/
structure ExportAgrees (console : Console) (profile : Profile) (process : Process) (pid : UInt64) :
    Prop where
  buildId : (exportedModule ((console.modules pid).take 2)).map ModuleInfo.buildId =
    (selectedModule console process ((console.modules pid).take 2)).map ModuleInfo.buildId
  base : (∃ target ∈ profile.targets, target.process = process.id ∧ target.base = .main) →
    (exportedModule ((console.modules pid).take 2)).map ModuleInfo.base =
      (selectedModule console process ((console.modules pid).take 2)).map ModuleInfo.base
  title : ∀ title, process.expectedTitle = some title →
    (listedTitle console pid).map UInt64.toNat = some title

/-! ## What the plan holds -/

theorem debugModules_eq {console : Console} {pid : UInt64} {limit : Nat}
    {modules : List ModuleInfo} (h : console.debugModules pid limit = some modules) :
    modules = (console.modules pid).take limit := by
  unfold Console.debugModules at h
  split at h
  · cases h
  · exact (Option.some.inj h).symm

/-- A planned process and the process of the profile. -/
structure PlannedFrom (console : Console) (rounds : Nat) (process : Process)
    (planned : PlannedProcess) : Prop where
  id : planned.id = process.id
  select : selectProcess console rounds process.selector = some (planned.pid, planned.titleId)
  modules : console.debugModules planned.pid 2 = some ((console.modules planned.pid).take 2)
  selected : ∃ selected,
    selectedModule console process ((console.modules planned.pid).take 2) = some selected ∧
      planned.moduleBase = selected.base.toNat ∧ planned.buildId = selected.buildId
  build : buildMatches (some planned.buildId) process.expect.buildId = true

theorem resolveProcess_spec {console : Console} {rounds : Nat} {process : Process}
    {planned : PlannedProcess} (h : resolveProcess console rounds process = some planned) :
    PlannedFrom console rounds process planned := by
  unfold resolveProcess at h
  simp only [Option.bind_eq_bind, Option.bind_eq_some_iff, Prod.exists] at h
  obtain ⟨pid, titleId, hselect, modules, hmodules, index, hindex, selected, hselected, maps, _,
    hmaps, codeBase, hcode, h⟩ := h
  obtain ⟨hexpect, h⟩ := (Option.ite_none_right_eq_some).1 h
  rw [Bool.and_eq_true] at hexpect
  obtain rfl := debugModules_eq hmodules
  cases h
  exact {
    id := rfl
    select := hselect
    modules := hmodules
    selected := ⟨selected, by rw [selectedModule, hindex, Option.bind_some, hselected], rfl, rfl⟩
    build := hexpect.2 }

/-- A planned target and the target of the profile. -/
structure TargetFrom (profile : Profile) (processes : List PlannedProcess) (target : Target)
    (planned : PlannedTarget) : Prop where
  id : planned.id = target.id
  mem : planned.process ∈ processes
  process : planned.process.id = target.process
  offset : profile.targetOffset target = some planned.offset
  address : planned.address = planned.process.baseAddress target.base + planned.offset

theorem resolveTarget_spec {console : Console} {profile : Profile}
    {processes : List PlannedProcess} {target : Target} {planned : PlannedTarget}
    (h : resolveTarget console profile processes target = some planned) :
    TargetFrom profile processes target planned := by
  unfold resolveTarget at h
  simp only [Option.bind_eq_bind, Option.bind_eq_some_iff, Prod.exists] at h
  obtain ⟨process, hprocess, offset, hoffset, maps, truncated, hmaps, h⟩ := h
  obtain ⟨_, h⟩ := (Option.ite_none_right_eq_some).1 h
  cases h
  exact {
    id := rfl
    mem := List.mem_of_find?_eq_some hprocess
    process := by simpa using List.find?_some hprocess
    offset := hoffset
    address := rfl }

theorem resolveTargets_spec {console : Console} {profile : Profile}
    {processes : List PlannedProcess} {targets : List Target} {addresses : List Nat}
    {planned : List PlannedTarget}
    (h : resolveTargets console profile processes targets addresses = some planned) :
    List.Forall₂ (TargetFrom profile processes) targets planned := by
  induction targets generalizing addresses planned with
  | nil =>
    cases h
    exact .nil
  | cons target targets ih =>
    rw [resolveTargets] at h
    obtain ⟨first, hfirst, h⟩ := Option.bind_eq_some_iff.1 h
    split at h
    · cases h
    · obtain ⟨rest, hrest, h⟩ := Option.bind_eq_some_iff.1 h
      cases h
      exact .cons (resolveTarget_spec hfirst) (ih hrest)

theorem resolveProcesses_spec {console : Console} {rounds : Nat} {processes : List Process}
    {planned : List PlannedProcess}
    (h : processes.mapM (resolveProcess console rounds) = some planned) :
    List.Forall₂ (PlannedFrom console rounds) processes planned := by
  induction processes generalizing planned with
  | nil =>
    cases h
    exact .nil
  | cons process processes ih =>
    rw [List.mapM_cons] at h
    obtain ⟨first, hfirst, h⟩ := Option.bind_eq_some_iff.1 h
    obtain ⟨rest, hrest, h⟩ := Option.bind_eq_some_iff.1 h
    cases h
    exact .cons (resolveProcess_spec hfirst) (ih hrest)

theorem resolveTraceProfile_spec {console : Console} {rounds : Nat} {profile : Profile}
    {plan : TracePlan} (h : resolveTraceProfile console rounds profile = some plan) :
    List.Forall₂ (PlannedFrom console rounds) profile.processes plan.processes ∧
      List.Forall₂ (TargetFrom profile plan.processes) profile.targetOrder plan.targets := by
  unfold resolveTraceProfile at h
  obtain ⟨processes, hprocesses, h⟩ := Option.bind_eq_some_iff.1 h
  split at h
  · obtain ⟨targets, htargets, h⟩ := Option.bind_eq_some_iff.1 h
    cases h
    exact ⟨resolveProcesses_spec hprocesses, resolveTargets_spec htargets⟩
  · cases h

/-! ## The order of the targets -/

/-- One process and all targets, or two processes with two targets each. -/
theorem targetOrder_cases (profile : Profile) :
    (∃ process, profile.processes = [process] ∧ profile.targetOrder = profile.targets) ∨
    ∃ process0 process1 first0 first1 second0 second1,
      profile.processes = [process0, process1] ∧
      profile.targetsOf process0 = [first0, second0] ∧
      profile.targetsOf process1 = [first1, second1] ∧
      profile.targetOrder = [first0, first1, second0, second1] := by
  rcases profile.processes_length with hone | htwo
  · obtain ⟨process, hprocess⟩ := List.length_eq_one_iff.1 hone
    refine .inl ⟨process, hprocess, ?_⟩
    unfold Profile.targetOrder
    rw [hprocess]
  · obtain ⟨process0, process1, hprocesses⟩ := List.length_eq_two.1 htwo
    have hcount := profile.targets_two htwo
    obtain ⟨first0, second0, h0⟩ := List.length_eq_two.1 (hcount process0 (by simp [hprocesses]))
    obtain ⟨first1, second1, h1⟩ := List.length_eq_two.1 (hcount process1 (by simp [hprocesses]))
    refine .inr ⟨process0, process1, first0, first1, second0, second1, hprocesses, h0, h1, ?_⟩
    unfold Profile.targetOrder Profile.targetsOf
    rw [hprocesses]
    simp only [h0, h1]

theorem mem_targetsOf {profile : Profile} {process : Process} {target : Target} :
    target ∈ profile.targetsOf process ↔
      target ∈ profile.targets ∧ target.process = process.id := by
  simp [Profile.targetsOf]

theorem mem_targetOrder {profile : Profile} {target : Target} :
    target ∈ profile.targetOrder ↔ target ∈ profile.targets := by
  rcases targetOrder_cases profile with ⟨_, _, horder⟩ |
    ⟨process0, process1, first0, first1, second0, second1, hprocesses, h0, h1, horder⟩
  · rw [horder]
  · have hmem0 := @mem_targetsOf profile process0 target
    have hmem1 := @mem_targetsOf profile process1 target
    rw [h0] at hmem0
    rw [h1] at hmem1
    have hprocess : target ∈ profile.targets →
        target.process = process0.id ∨ target.process = process1.id := by
      intro hmem
      simpa [hprocesses] using profile.targets_process target hmem
    rw [horder]
    simp only [List.mem_cons, List.not_mem_nil, or_false] at hmem0 hmem1 ⊢
    tauto

/-- Every process has a target. -/
theorem exists_target {profile : Profile} {process : Process} (hmem : process ∈ profile.processes) :
    ∃ target ∈ profile.targets, target.process = process.id := by
  rcases targetOrder_cases profile with ⟨only, hprocesses, _⟩ |
    ⟨process0, process1, first0, first1, second0, second1, hprocesses, h0, h1, _⟩
  · obtain ⟨target, htarget⟩ := List.exists_mem_of_length_pos profile.targets_length.1
    have hprocess := profile.targets_process target htarget
    rw [hprocesses] at hprocess hmem
    obtain rfl := List.mem_singleton.1 hmem
    exact ⟨target, htarget, by simpa using hprocess⟩
  · rw [hprocesses] at hmem
    rcases List.mem_cons.1 hmem with rfl | hmem
    · exact ⟨first0, mem_targetsOf.1 (by simp [h0])⟩
    · obtain rfl := List.mem_singleton.1 hmem
      exact ⟨first1, mem_targetsOf.1 (by simp [h1])⟩

/-! ## The file -/

theorem exists_of_forall₂_left {α β : Type} {R : α → β → Prop} {left : List α} {right : List β}
    (h : List.Forall₂ R left right) {a : α} (hmem : a ∈ left) : ∃ b ∈ right, R a b := by
  induction h with
  | nil => cases hmem
  | cons hhead _ ih =>
    rcases List.mem_cons.1 hmem with rfl | hmem
    · exact ⟨_, List.mem_cons_self, hhead⟩
    · obtain ⟨b, hb, hrelated⟩ := ih hmem
      exact ⟨b, List.mem_cons_of_mem _ hb, hrelated⟩

theorem exists_of_forall₂_right {α β : Type} {R : α → β → Prop} {left : List α} {right : List β}
    (h : List.Forall₂ R left right) {b : β} (hmem : b ∈ right) : ∃ a ∈ left, R a b :=
  exists_of_forall₂_left h.flip hmem

theorem planned_ids {console : Console} {rounds : Nat} {processes : List Process}
    {planned : List PlannedProcess}
    (h : List.Forall₂ (PlannedFrom console rounds) processes planned) :
    planned.map PlannedProcess.id = processes.map Process.id := by
  induction h with
  | nil => rfl
  | cons hhead _ ih => rw [List.map_cons, List.map_cons, hhead.id, ih]

/-- Planned processes are known by their ids. -/
theorem planned_unique {console : Console} {rounds : Nat} {profile : Profile} {plan : TracePlan}
    (h : List.Forall₂ (PlannedFrom console rounds) profile.processes plan.processes)
    {left right : PlannedProcess} (hleft : left ∈ plan.processes) (hright : right ∈ plan.processes)
    (hid : left.id = right.id) : left = right := by
  have hnodup := profile.processes_nodup
  rw [← planned_ids h] at hnodup
  exact List.inj_on_of_nodup_map hnodup hleft hright hid

/-- The file's entry of a planned target. -/
def recordedTarget (console : Console) (planned : PlannedTarget) : TraceTarget where
  address := planned.address
  process := traceProcessMetadata console planned.process.pid
  plan := some planned

theorem annotate_map {plan : TracePlan} {entry : PlannedTarget → TraceTarget} :
    annotateTraceWithPlan plan (plan.targets.map entry) =
      plan.targets.map fun planned => { entry planned with plan := some planned } := by
  refine List.ext_getElem (by simp [annotateTraceWithPlan]) ?_
  intro index hleft hright
  have hindex : index < plan.targets.length := by simpa using hright
  simp [annotateTraceWithPlan, List.getElem?_eq_getElem hindex]

/-- In the file, every planned target has its address and the identity of its own process. -/
theorem traceRunOutput_eq {console : Console} {rounds : Nat} {profile : Profile} {plan : TracePlan}
    {recorded : List TraceTarget}
    (hprocesses : List.Forall₂ (PlannedFrom console rounds) profile.processes plan.processes)
    (htargets : List.Forall₂ (TargetFrom profile plan.processes) profile.targetOrder plan.targets)
    (hrun : traceRunOutput console plan = some recorded) :
    recorded = plan.targets.map (recordedTarget console) := by
  obtain ⟨started, hstart, rfl⟩ := Option.map_eq_some_iff.1 hrun
  suffices hexport : exportTargets console started = plan.targets.map fun planned =>
      { recordedTarget console planned with plan := none } by
    rw [hexport, annotate_map]
    rfl
  unfold startPlanTrace at hstart
  obtain ⟨_, hstart⟩ := (Option.ite_none_right_eq_some).1 hstart
  rcases targetOrder_cases profile with ⟨process, hone, _⟩ |
    ⟨process0, process1, first0, first1, second0, second1, htwo, h0, h1, horder⟩
  · rw [hone] at hprocesses
    obtain ⟨planned, _, _, hnil, hplan⟩ := List.forall₂_cons_left_iff.1 hprocesses
    obtain rfl := List.forall₂_nil_left_iff.1 hnil
    rw [hplan] at hstart htargets
    cases hstart
    rw [exportTargets, List.map_map]
    refine List.map_congr_left ?_
    intro target hmem
    have hprocess : target.process = planned := by
      obtain ⟨_, _, hfrom⟩ := exists_of_forall₂_right htargets hmem
      exact List.mem_singleton.1 hfrom.mem
    simp [recordedTarget, hprocess]
  · have hunique := @planned_unique console rounds profile plan hprocesses
    rw [htwo] at hprocesses
    obtain ⟨planned0, _, hfrom0, hrest, hplan⟩ := List.forall₂_cons_left_iff.1 hprocesses
    obtain ⟨planned1, _, hfrom1, hnil, rfl⟩ := List.forall₂_cons_left_iff.1 hrest
    obtain rfl := List.forall₂_nil_left_iff.1 hnil
    have hmem0 : planned0 ∈ plan.processes := by simp [hplan]
    have hmem1 : planned1 ∈ plan.processes := by simp [hplan]
    -- a target of the first (second) process is planned at the first (second) process
    have hof0 : ∀ {target planned}, target ∈ profile.targetsOf process0 →
        TargetFrom profile plan.processes target planned → planned.process = planned0 := by
      intro target planned htarget hfrom
      exact hunique hfrom.mem hmem0
        (by rw [hfrom.process, hfrom0.id, (mem_targetsOf.1 htarget).2])
    have hof1 : ∀ {target planned}, target ∈ profile.targetsOf process1 →
        TargetFrom profile plan.processes target planned → planned.process = planned1 := by
      intro target planned htarget hfrom
      exact hunique hfrom.mem hmem1
        (by rw [hfrom.process, hfrom1.id, (mem_targetsOf.1 htarget).2])
    rw [horder] at htargets
    obtain ⟨target0, _, ha, hrest1, htargets⟩ := List.forall₂_cons_left_iff.1 htargets
    obtain ⟨target1, _, hb, hrest2, rfl⟩ := List.forall₂_cons_left_iff.1 hrest1
    obtain ⟨target2, _, hc, hrest3, rfl⟩ := List.forall₂_cons_left_iff.1 hrest2
    obtain ⟨target3, _, hd, hnil, rfl⟩ := List.forall₂_cons_left_iff.1 hrest3
    obtain rfl := List.forall₂_nil_left_iff.1 hnil
    have hprocess0 := hof0 (by simp [h0]) ha
    have hprocess1 := hof1 (by simp [h1]) hb
    have hprocess2 := hof0 (by simp [h0]) hc
    have hprocess3 := hof1 (by simp [h1]) hd
    rw [hplan, htargets] at hstart
    cases hstart
    simp [exportTargets, recordedTarget, htargets, hprocess0, hprocess1, hprocess2, hprocess3]

/-! ## The readers -/

theorem alignTargets_eq_iff {β γ : Type} {read : Target → TraceTarget → Option β} {out : β → γ}
    {entry : PlannedTarget → TraceTarget} {want : PlannedTarget → γ} {targets : List Target}
    {planned : List PlannedTarget} :
    (alignTargets read targets (planned.map entry)).map (List.map out) = some (planned.map want) ↔
      List.Forall₂ (fun target planned => (read target (entry planned)).map out =
        some (want planned)) targets planned := by
  induction targets generalizing planned with
  | nil =>
    rw [alignTargets, List.forall₂_nil_left_iff]
    cases planned <;> simp
  | cons target targets ih =>
    cases planned with
    | nil => simp [alignTargets]
    | cons first planned =>
      rw [List.forall₂_cons, ← ih, List.map_cons, List.map_cons, alignTargets]
      cases read target (entry first) with
      | none => simp
      | some value =>
        cases alignTargets read targets (planned.map entry) with
        | none => simp
        | some others => simp

@[simp]
theorem traceProcessMetadata_titleId (console : Console) (pid : UInt64) :
    (traceProcessMetadata console pid).titleId = listedTitle console pid := by
  unfold traceProcessMetadata
  split <;> rfl

theorem traceProcessMetadata_moduleInfo {console : Console} {pid : UInt64}
    {modules : List ModuleInfo} (h : console.debugModules pid 2 = some modules) :
    (traceProcessMetadata console pid).moduleInfo = exportedModule modules := by
  unfold traceProcessMetadata
  rw [h]

theorem find_process {profile : Profile} {process : Process} (hmem : process ∈ profile.processes) :
    profile.processes.find? (fun other => other.id = process.id) = some process := by
  obtain ⟨other, hother⟩ := Option.isSome_iff_exists.1
    (List.find?_isSome.2 ⟨process, hmem, by simp⟩ :
      (profile.processes.find? fun other => other.id = process.id).isSome)
  have hid : other.id = process.id := by simpa using List.find?_some hother
  rw [hother, List.inj_on_of_nodup_map profile.processes_nodup
    (List.mem_of_find?_eq_some hother) hmem hid]

/-- What a target needs of the export of its process. -/
structure TargetAgrees (console : Console) (process : Process) (base : TargetBase) (pid : UInt64) :
    Prop where
  buildId : (exportedModule ((console.modules pid).take 2)).map ModuleInfo.buildId =
    (selectedModule console process ((console.modules pid).take 2)).map ModuleInfo.buildId
  base : base = .main → (exportedModule ((console.modules pid).take 2)).map ModuleInfo.base =
    (selectedModule console process ((console.modules pid).take 2)).map ModuleInfo.base
  title : ∀ title, process.expectedTitle = some title →
    (listedTitle console pid).map UInt64.toNat = some title

section Readers

variable {console : Console} {rounds : Nat} {profile : Profile} {process : Process}
  {processes : List PlannedProcess} {target : Target} {planned : PlannedTarget}

/-- The recorded base is the planned one iff the export took a module with the same base, or the
    target is relative to the code. -/
theorem baseAddress_iff (hplanned : PlannedFrom console rounds process planned.process) :
    (recordedTarget console planned).baseAddress target.base =
        some (planned.process.baseAddress target.base) ↔
      (target.base = .main →
        (exportedModule ((console.modules planned.process.pid).take 2)).map ModuleInfo.base =
          (selectedModule console process
            ((console.modules planned.process.pid).take 2)).map ModuleInfo.base) := by
  obtain ⟨selected, hselected, hbase, _⟩ := hplanned.selected
  cases target.base with
  | code => simp [TraceTarget.baseAddress, PlannedProcess.baseAddress, recordedTarget]
  | main =>
    rw [TraceTarget.baseAddress, PlannedProcess.baseAddress, recordedTarget,
      traceProcessMetadata_moduleInfo hplanned.modules, hselected, hbase]
    simp [Option.map_eq_some_iff, UInt64.toNat_inj]

theorem reportTarget_iff (hmem : process ∈ profile.processes)
    (hprocess : target.process = process.id)
    (hplanned : PlannedFrom console rounds process planned.process)
    (htarget : TargetFrom profile processes target planned) :
    (reportTarget profile target (recordedTarget console planned)).map
        (fun target => (target.id, target.address, target.buildId)) =
      some (planned.id, planned.address, some planned.process.buildId) ↔
    TargetAgrees console process target.base planned.process.pid := by
  have hbase := @baseAddress_iff console rounds process target planned hplanned
  have hmodule : (recordedTarget console planned).process.buildId =
      (exportedModule ((console.modules planned.process.pid).take 2)).map ModuleInfo.buildId := by
    rw [recordedTarget, ProcessMetadata.buildId, traceProcessMetadata_moduleInfo hplanned.modules]
  have hselected : (selectedModule console process
      ((console.modules planned.process.pid).take 2)).map ModuleInfo.buildId =
        some planned.process.buildId := by
    obtain ⟨selected, hselected, _, hbuild⟩ := hplanned.selected
    rw [hselected, hbuild, Option.map_some]
  have htitle : (recordedTarget console planned).process.titleId =
      listedTitle console planned.process.pid := traceProcessMetadata_titleId _ _
  have haddress : (recordedTarget console planned).address =
      planned.process.baseAddress target.base + planned.offset := htarget.address
  unfold reportTarget
  rw [hprocess, find_process hmem, htarget.offset]
  constructor
  · intro h
    obtain ⟨reported, hreported, hsame⟩ := Option.map_eq_some_iff.1 h
    obtain ⟨base, hrecorded, hreported⟩ := Option.bind_eq_some_iff.1 hreported
    obtain ⟨⟨hsum, htitles, _⟩, hreported⟩ := (Option.ite_none_right_eq_some).1 hreported
    cases hreported
    have hsameBuild := congrArg (fun entry => entry.2.2) hsame
    rw [haddress] at hsum
    refine {
      buildId := by rw [hselected, ← hmodule]; exact hsameBuild
      base := hbase.1 (by rw [hrecorded]; congr 1; omega)
      title := ?_ }
    intro title hexpected
    rw [hexpected, htitle] at htitles
    simpa using htitles
  · intro hagrees
    rw [hbase.2 hagrees.base, htitle, hmodule, hagrees.buildId, hselected]
    simp only [Option.bind_eq_bind, Option.bind_some]
    rw [if_pos]
    · rw [Option.map_some, htarget.id, recordedTarget]
    · refine ⟨haddress, ?_, hplanned.build⟩
      cases hexpected : process.expectedTitle with
      | none => rfl
      | some title => simpa using hagrees.title title hexpected

theorem decodeTarget_of_agrees
    (hplanned : PlannedFrom console rounds process planned.process)
    (htarget : TargetFrom profile processes target planned)
    (hagrees : TargetAgrees console process target.base planned.process.pid) :
    (decodeTarget profile target (recordedTarget console planned)).map
        (fun target => (target.id, target.recorded.address, target.recorded.process.buildId)) =
      some (planned.id, planned.address, some planned.process.buildId) := by
  obtain ⟨selected, hselected, _, hbuild⟩ := hplanned.selected
  have haddress : planned.process.baseAddress target.base + planned.offset =
      (recordedTarget console planned).address := htarget.address.symm
  unfold decodeTarget
  rw [htarget.offset, (baseAddress_iff hplanned).2 hagrees.base]
  simp only [Option.bind_eq_bind, Option.bind_some]
  rw [if_pos haddress, Option.map_some, htarget.id, recordedTarget,
    ProcessMetadata.buildId, traceProcessMetadata_moduleInfo hplanned.modules, hagrees.buildId,
    hselected, hbuild, Option.map_some]

end Readers

/-! ## The law holds exactly when the export took the module of the plan -/

/-- A target of the order next to its plan. -/
theorem paired_spec {console : Console} {rounds : Nat} {profile : Profile} {plan : TracePlan}
    (hprocesses : List.Forall₂ (PlannedFrom console rounds) profile.processes plan.processes)
    (htargets : List.Forall₂ (TargetFrom profile plan.processes) profile.targetOrder plan.targets)
    {target : Target} {planned : PlannedTarget}
    (hmem : (target, planned) ∈ profile.targetOrder.zip plan.targets) :
    TargetFrom profile plan.processes target planned ∧
      ∃ process ∈ profile.processes, target.process = process.id ∧
        PlannedFrom console rounds process planned.process := by
  have hfrom := List.forall₂_zip htargets hmem
  obtain ⟨process, hprocess, hplanned⟩ := exists_of_forall₂_right hprocesses hfrom.mem
  exact ⟨hfrom, process, hprocess, hfrom.process.symm.trans hplanned.id, hplanned⟩

/-- The files of successful runs are accepted, with the addresses and build ids of the plan, iff the
    export agrees with the profile on every process. -/
theorem trace_run_accepted_iff (console : Console) (rounds : Nat) (profile : Profile)
    (plan : TracePlan) (recorded : List TraceTarget)
    (hplan : resolveTraceProfile console rounds profile = some plan)
    (hrun : traceRunOutput console plan = some recorded) :
    AcceptsRun profile plan recorded ↔
      ∀ process ∈ profile.processes, ∀ pid titleId,
        selectProcess console rounds process.selector = some (pid, titleId) →
          ExportAgrees console profile process pid := by
  obtain ⟨hprocesses, htargets⟩ := resolveTraceProfile_spec hplan
  have hrecorded := traceRunOutput_eq hprocesses htargets hrun
  have hlength : ¬recorded.length < profile.targetOrder.length := by
    rw [hrecorded, List.length_map, htargets.length_eq]
    omega
  constructor
  · intro haccepts process hmem pid titleId hselect
    have hreport := haccepts.report
    rw [reportTraceWithProfile, if_neg hlength, hrecorded, alignTargets_eq_iff] at hreport
    have hpaired : List.Forall₂
        (fun target planned => (target, planned) ∈ profile.targetOrder.zip plan.targets)
        profile.targetOrder plan.targets :=
      List.forall₂_iff_zip.2 ⟨htargets.length_eq, fun h => h⟩
    -- what the report says of a target of this process
    have hof : ∀ target ∈ profile.targets, target.process = process.id →
        TargetAgrees console process target.base pid := by
      intro target htarget hprocess
      obtain ⟨planned, _, hpair⟩ := exists_of_forall₂_left hpaired (mem_targetOrder.2 htarget)
      obtain ⟨hfrom, other, hother, hotherProcess, hplanned⟩ :=
        paired_spec hprocesses htargets hpair
      obtain rfl := List.inj_on_of_nodup_map profile.processes_nodup hmem hother
        (hprocess.symm.trans hotherProcess)
      have hpid : planned.process.pid = pid := by
        have hsame := hplanned.select.symm.trans hselect
        exact congrArg Prod.fst (Option.some.inj hsame)
      rw [← hpid]
      exact (reportTarget_iff hmem hprocess hplanned hfrom).1 (List.forall₂_zip hreport hpair)
    obtain ⟨target, htarget, hprocess⟩ := exists_target hmem
    exact {
      buildId := (hof target htarget hprocess).buildId
      base := fun ⟨other, hother, hsame, hmain⟩ => (hof other hother hsame).base hmain
      title := (hof target htarget hprocess).title }
  · intro hagrees
    have htarget : ∀ {target planned}, (target, planned) ∈ profile.targetOrder.zip plan.targets →
        ∀ {process}, process ∈ profile.processes → target.process = process.id →
        PlannedFrom console rounds process planned.process →
        TargetAgrees console process target.base planned.process.pid := by
      intro target planned hpair process hmem hprocess hplanned
      have hexport := hagrees process hmem _ _ hplanned.select
      have htarget := mem_targetOrder.1 (List.of_mem_zip hpair).1
      exact {
        buildId := hexport.buildId
        base := fun hmain => hexport.base ⟨target, htarget, hprocess, hmain⟩
        title := hexport.title }
    refine ⟨?_, ?_⟩
    · rw [reportTraceWithProfile, if_neg hlength, hrecorded, alignTargets_eq_iff]
      refine List.forall₂_iff_zip.2 ⟨htargets.length_eq, fun hpair => ?_⟩
      obtain ⟨hfrom, process, hmem, hprocess, hplanned⟩ := paired_spec hprocesses htargets hpair
      exact (reportTarget_iff hmem hprocess hplanned hfrom).2
        (htarget hpair hmem hprocess hplanned)
    · rw [decodeTraceTargets, hrecorded, alignTargets_eq_iff]
      refine List.forall₂_iff_zip.2 ⟨htargets.length_eq, fun hpair => ?_⟩
      obtain ⟨hfrom, process, hmem, hprocess, hplanned⟩ := paired_spec hprocesses htargets hpair
      exact decodeTarget_of_agrees hplanned hfrom (htarget hpair hmem hprocess hplanned)

/-! ## A process with two modules -/

/-- One process, selected by its pid, with `rtld` at index 0 and `main` at index 1. -/
def twoModules : Console where
  game := { running := false, pid := 0, titleId := 0, mainBase := 0 }
  table := { processes := [{ pid := 0x80, title := some 0x10 }], nodup := by decide }
  modules := fun _ => [
    { base := 0x1000, size := 0x1000, buildId := "AA" },
    { base := 0x8000, size := 0x1000, buildId := "BB" }]
  maps := fun _ => some ([{ base := 0x1000, size := 0x8000, permission := 5 }], false)
  read := fun _ _ _ => none

/-- A target at an offset into the module with the index. -/
def oneTarget (mainModuleIndex : Option Nat) : Profile where
  processes := [{
    id := "p", selector := .pid 0x80, mainModuleIndex
    expect := { titleId := none, buildId := none } }]
  targets := [{
    id := "t", process := "p", base := .main, offset := .offset 0x10, expectBytes := none }]
  symbols := []
  processes_length := .inl rfl
  processes_nodup := by simp
  targets_length := by simp
  targets_nodup := by simp
  targets_process := by simp
  targets_two := by simp

/-- The plan for `oneTarget`. -/
def oneTargetPlan (index base : Nat) (buildId : String) : TracePlan :=
  let process : PlannedProcess := {
    id := "p", pid := 0x80, titleId := 0x10, moduleIndex := index, moduleBase := base
    moduleSize := 0x1000, codeBase := 0x1000, buildId }
  { processes := [process]
    targets := [{ id := "t", process, address := base + 0x10, base := .main, offset := 0x10 }] }

/-- The file of a run of `oneTargetPlan`. -/
def oneTargetFile (index base : Nat) (buildId : String) : List TraceTarget :=
  (oneTargetPlan index base buildId).targets.map (recordedTarget twoModules)

theorem trace_run_accepted_main : AcceptsRun (oneTarget (some 1)) (oneTargetPlan 1 0x8000 "BB")
    (oneTargetFile 1 0x8000 "BB") := by
  refine (trace_run_accepted_iff twoModules 1 (oneTarget (some 1)) (oneTargetPlan 1 0x8000 "BB")
    (oneTargetFile 1 0x8000 "BB") rfl rfl).2 ?_
  intro process hmem pid titleId hselect
  obtain rfl := List.mem_singleton.1 hmem
  have hpid : pid = 0x80 := by
    have hsame : some ((0x80 : UInt64), 0x10) = some (pid, titleId) := hselect
    exact (congrArg Prod.fst (Option.some.inj hsame)).symm
  subst hpid
  exact { buildId := rfl, base := fun _ => rfl, title := fun _ h => nomatch h }

/-- Without `mainModuleIndex` the plan takes module 0 and the export module 1: the run and the
    export succeed, and no reader accepts the file. -/
theorem trace_run_refused :
    resolveTraceProfile twoModules 1 (oneTarget none) = some (oneTargetPlan 0 0x1000 "AA") ∧
      traceRunOutput twoModules (oneTargetPlan 0 0x1000 "AA") =
        some (oneTargetFile 0 0x1000 "AA") ∧
      (reportTraceWithProfile (oneTarget none) (oneTargetFile 0 0x1000 "AA")).isNone ∧
      (decodeTraceTargets (oneTarget none) (oneTargetFile 0 0x1000 "AA")).isNone :=
  ⟨rfl, rfl, rfl, rfl⟩

end TraceReport

end SysAgent
