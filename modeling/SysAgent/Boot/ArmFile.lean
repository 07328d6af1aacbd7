import SysAgent.Boot.Config
import SysAgent.Lib.Runs

set_option autoImplicit false

/-! # The arm file (`boot_unlock.c`)

Planting the arm file asks for one unlock at the next boot. `bootUnlockInit` finds it and starts a
worker, the worker removes it at its end, and `bootUnlock run` starts a worker by hand. Every file
operation succeeds; the commands are served one after the other, and the worker runs between any two
steps of one.

A worker is over when it sets its phase to done. The ghosts: `planted` is an arm file planted during
this boot and not disarmed, the file itself says whether its request has started a boot's worker,
`lost`, `repeated` and `left` are what must not happen. -/

namespace SysAgent

inductive BootUnlockPhase
  | idle
  | running
  | done
  deriving DecidableEq

/-- Where a worker is: `clearing` has read `armedAtStart`, `finishing` has removed the file. -/
inductive UnlockWorkerPc
  | starting
  | running
  | clearing (armed : Bool)
  | finishing
  deriving DecidableEq

/-- Where `bootUnlockRunCommand` is: it has found no running phase once, or twice. -/
inductive RunCommandPc
  | idle
  | checked
  | closing
  deriving DecidableEq

structure BootUnlockState where
  /-- The arm file, and whether its request has started a boot's worker. -/
  file : Option Bool
  planted : Bool
  armedAtStart : Bool
  phase : BootUnlockPhase
  threadCreated : Bool
  workers : List UnlockWorkerPc
  command : RunCommandPc
  /-- A boot did not find what the boot before it had planted. -/
  lost : Bool
  /-- A request has started the worker of a second boot. -/
  repeated : Bool
  /-- An armed worker has ended and left the request it served. -/
  left : Bool
  deriving DecidableEq

/-- `boot` and the start of a worker carry the console's answers: whether the services are up, the mode
    that the file of the schedule gives, and whether a thread can be started. -/
inductive BootUnlockStep
  | boot (servicesReady : Bool) (mode : BootUnlockMode) (thread : Bool)
  | arm
  | disarm
  | run
  | runConfig (accepted : Bool)
  | runStart (thread : Bool)
  | worker (index : Nat) (memory : Bool)

namespace BootUnlockState

/-- A console that has never been armed. -/
def initial : BootUnlockState where
  file := none
  planted := false
  armedAtStart := false
  phase := .idle
  threadCreated := false
  workers := []
  command := .idle
  lost := false
  repeated := false
  left := false

/-- `bootUnlockStartWorker` behind its check of the phase. -/
def startWorker (s : BootUnlockState) (thread : Bool) : BootUnlockState :=
  { s with
    phase := .idle
    threadCreated := thread
    workers := if thread then s.workers ++ [.starting] else s.workers }

/-- The sysmodule's memory after a reboot. -/
def reboot (s : BootUnlockState) : BootUnlockState :=
  { s with
    lost := s.lost || (s.planted && s.file.isNone)
    planted := false
    armedAtStart := false
    phase := .idle
    threadCreated := false
    workers := []
    command := .idle }

/-- The start of an armed boot's worker. -/
def serve (s : BootUnlockState) : BootUnlockState :=
  { s with
    repeated := s.repeated || s.file == some true
    file := s.file.map fun _ => true }

/-- `bootUnlockInit`. -/
def bootUnlockInit (s : BootUnlockState) (servicesReady : Bool) (mode : BootUnlockMode)
    (thread : Bool) : BootUnlockState :=
  if !servicesReady then s
  else
    let s := { s with armedAtStart := s.file.isSome }
    match mode with
    | .off => if s.armedAtStart then { s with file := none } else s
    | .everyBoot => s.startWorker thread
    | .armed =>
      if s.armedAtStart then
        if thread then s.serve.startWorker thread else s.startWorker thread
      else s

/-- `bootUnlockRequest`, of the arm command and of a reboot command. -/
def bootUnlockRequest (s : BootUnlockState) : BootUnlockState :=
  { s with file := some false, planted := true }

def disarm (s : BootUnlockState) : BootUnlockState :=
  { s with file := none, planted := false }

/-- The end of a worker. -/
def finish (s : BootUnlockState) (index : Nat) : BootUnlockState :=
  { s with
    phase := .done
    workers := s.workers.eraseIdx index
    left := s.left || (s.armedAtStart && s.file == some true) }

def withPc (s : BootUnlockState) (index : Nat) (pc : UnlockWorkerPc) : BootUnlockState :=
  { s with workers := s.workers.set index pc }

/-- A step of the worker with the index. -/
def workerStep (s : BootUnlockState) (index : Nat) (memory : Bool) : BootUnlockState :=
  match s.workers[index]? with
  | none => s
  | some .starting => { s.withPc index .running with phase := .running }
  | some .running =>
    if memory then s.withPc index (.clearing s.armedAtStart) else s.finish index
  | some (.clearing armed) =>
    { s.withPc index .finishing with file := if armed then none else s.file }
  | some .finishing => s.finish index

def step (s : BootUnlockState) : BootUnlockStep → BootUnlockState
  | .boot servicesReady mode thread => s.reboot.bootUnlockInit servicesReady mode thread
  | .arm => if s.command = .idle then s.bootUnlockRequest else s
  | .disarm => if s.command = .idle then s.disarm else s
  | .run =>
    if s.command = .idle ∧ s.phase ≠ .running then { s with command := .checked } else s
  | .runConfig accepted =>
    if s.command = .checked then
      -- the second check of the phase is made only for a thread that was created
      if accepted ∧ ¬(s.threadCreated ∧ s.phase = .running) then
        { s with command := .closing, threadCreated := false }
      else { s with command := .idle }
    else s
  | .runStart thread =>
    if s.command = .closing then { s.startWorker thread with command := .idle } else s
  | .worker index memory => s.workerStep index memory

/-! ## The law -/

/-- A planted file is there at the next boot, a request starts the worker of one boot only and is gone
    when that worker has ended, and there are never two workers. -/
structure ArmsOnce (s : BootUnlockState) : Prop where
  kept : s.lost = false
  once : s.repeated = false
  consumed : s.left = false
  oneWorker : s.workers.length ≤ 1

instance (s : BootUnlockState) : Decidable s.ArmsOnce :=
  decidable_of_iff
    (s.lost = false ∧ s.repeated = false ∧ s.left = false ∧ s.workers.length ≤ 1)
    ⟨fun ⟨hkept, honce, hconsumed, hone⟩ => ⟨hkept, honce, hconsumed, hone⟩,
      fun ⟨hkept, honce, hconsumed, hone⟩ => ⟨hkept, honce, hconsumed, hone⟩⟩

/-- No worker removes a file planted during its boot, a worker with a request to remove gets its
    memory, an armed boot does not find a request that has been served, and a run by hand starts
    no worker beside another. -/
def Careful (s : BootUnlockState) : BootUnlockStep → Prop
  | .boot servicesReady mode thread =>
    s.file = some true → ¬(servicesReady = true ∧ mode = .armed ∧ thread = true)
  | .runStart thread => s.command = .closing → thread = true → s.workers = []
  | .worker index memory =>
    (s.workers[index]? = some (.clearing true) → s.planted = false) ∧
      (s.workers[index]? = some .running → s.armedAtStart = true → s.file = some true →
        memory = true)
  | _ => True

/-- The law, and where a worker is in the removal of the file. -/
structure ArmInv (s : BootUnlockState) : Prop where
  law : s.ArmsOnce
  planted : s.planted = true → s.file = some false
  clearing : ∀ armed, .clearing armed ∈ s.workers → armed = s.armedAtStart
  finishing : .finishing ∈ s.workers → s.armedAtStart = true → s.file ≠ some true

theorem armInv_initial : initial.ArmInv := by
  refine ⟨by decide, ?_, ?_, ?_⟩ <;> simp [initial]

/-! ## What one step preserves -/

variable {s : BootUnlockState}

/-- A boot finds what was planted, and no worker outlives the boot it belongs to. -/
theorem ArmInv.reboot (h : s.ArmInv) : s.reboot.ArmInv := by
  have hlost : (s.lost || (s.planted && s.file.isNone)) = false := by
    rw [h.law.kept]
    cases hplanted : s.planted with
    | false => rfl
    | true => rw [h.planted hplanted]; rfl
  refine ⟨⟨hlost, h.law.once, h.law.consumed, ?_⟩, ?_, ?_, ?_⟩ <;> simp [BootUnlockState.reboot]

theorem workers_startWorker (thread : Bool) :
    (s.startWorker thread).workers = if thread then s.workers ++ [.starting] else s.workers :=
  rfl

theorem mem_workers_startWorker {thread : Bool} {pc : UnlockWorkerPc}
    (hpc : pc ∈ (s.startWorker thread).workers) : pc ∈ s.workers ∨ pc = .starting := by
  rw [workers_startWorker] at hpc
  cases thread with
  | false => exact .inl hpc
  | true => simpa using hpc

/-- A worker may start where none is running. -/
theorem ArmInv.startWorker {thread : Bool} (h : s.ArmInv) (hnone : thread = true → s.workers = []) :
    (s.startWorker thread).ArmInv := by
  refine ⟨⟨h.law.kept, h.law.once, h.law.consumed, ?_⟩, h.planted, ?_, ?_⟩
  · rw [workers_startWorker]
    cases thread with
    | false => exact h.law.oneWorker
    | true => simp [hnone rfl]
  · intro armed hmem
    rcases mem_workers_startWorker hmem with hmem | hmem
    · exact h.clearing armed hmem
    · cases hmem
  · intro hmem
    rcases mem_workers_startWorker hmem with hmem | hmem
    · exact h.finishing hmem
    · cases hmem

/-- The state after a boot has looked for the arm file, with what it may do to the file. -/
theorem ArmInv.found {file : Option Bool} {repeated : Bool} (h : s.ArmInv)
    (hworkers : s.workers = []) (hplanted : s.planted = false) (hrepeated : repeated = false) :
    ArmInv { s with armedAtStart := s.file.isSome, file := file, repeated := repeated } := by
  refine ⟨⟨h.law.kept, hrepeated, h.law.consumed, h.law.oneWorker⟩, ?_, ?_, ?_⟩
  · simp [hplanted]
  · simp [hworkers]
  · simp [hworkers]

theorem armInv_boot {servicesReady : Bool} {mode : BootUnlockMode} {thread : Bool} (h : s.ArmInv)
    (hok : s.Careful (.boot servicesReady mode thread)) :
    (s.step (.boot servicesReady mode thread)).ArmInv := by
  have hboot := h.reboot
  have honce := hboot.law.once
  rw [step, bootUnlockInit]
  cases servicesReady with
  | false => exact hboot
  | true =>
    cases mode with
    | off =>
      simp only [Bool.not_true, Bool.false_eq_true, if_false]
      split
      · exact hboot.found rfl rfl honce
      · exact hboot.found rfl rfl honce
    | everyBoot => exact (hboot.found rfl rfl honce).startWorker fun _ => rfl
    | armed =>
      simp only [Bool.not_true, Bool.false_eq_true, if_false]
      split
      · cases thread with
        | false => exact (hboot.found rfl rfl honce).startWorker fun _ => rfl
        | true =>
          -- the request is a new one, or the step would not be careful
          have hnew : (s.reboot.repeated || s.reboot.file == some true) = false := by
            rw [honce, Bool.false_or, beq_eq_false_iff_ne]
            exact fun hserved => hok hserved ⟨rfl, rfl, rfl⟩
          exact (hboot.found rfl rfl hnew).startWorker fun _ => rfl
      · exact hboot.found rfl rfl honce

theorem armInv_arm (h : s.ArmInv) : (s.step .arm).ArmInv := by
  rw [step]
  split
  · refine ⟨⟨h.law.kept, h.law.once, h.law.consumed, h.law.oneWorker⟩, fun _ => rfl, h.clearing, ?_⟩
    simp [bootUnlockRequest]
  · exact h

theorem armInv_disarm (h : s.ArmInv) : (s.step .disarm).ArmInv := by
  rw [step]
  split
  · refine ⟨⟨h.law.kept, h.law.once, h.law.consumed, h.law.oneWorker⟩, ?_, h.clearing, ?_⟩ <;>
      simp [disarm]
  · exact h

/-- The command's own progress, and the closing of the old thread, touch nothing of the law. -/
theorem ArmInv.withCommand {command : RunCommandPc} {threadCreated : Bool} (h : s.ArmInv) :
    ArmInv { s with command := command, threadCreated := threadCreated } :=
  ⟨⟨h.law.kept, h.law.once, h.law.consumed, h.law.oneWorker⟩, h.planted, h.clearing, h.finishing⟩

theorem armInv_run (h : s.ArmInv) : (s.step .run).ArmInv := by
  rw [step]
  split
  · exact h.withCommand
  · exact h

theorem armInv_runConfig {accepted : Bool} (h : s.ArmInv) :
    (s.step (.runConfig accepted)).ArmInv := by
  rw [step]
  split
  · split
    · exact h.withCommand
    · exact h.withCommand
  · exact h

theorem armInv_runStart {thread : Bool} (h : s.ArmInv) (hok : s.Careful (.runStart thread)) :
    (s.step (.runStart thread)).ArmInv := by
  rw [step]
  split
  case isTrue hclosing => exact (h.startWorker (hok hclosing)).withCommand
  case isFalse => exact h

/-- The end of a worker that leaves no request it served. -/
theorem ArmInv.finish {index : Nat} (h : s.ArmInv)
    (hleft : s.armedAtStart = true → s.file ≠ some true) : (s.finish index).ArmInv := by
  have hmem : ∀ pc, pc ∈ (s.finish index).workers → pc ∈ s.workers :=
    fun pc hpc => List.mem_of_mem_eraseIdx hpc
  refine ⟨⟨h.law.kept, h.law.once, ?_, ?_⟩, h.planted, ?_, ?_⟩
  · show (s.left || (s.armedAtStart && s.file == some true)) = false
    rw [h.law.consumed, Bool.false_or, Bool.and_eq_false_imp]
    intro harmed
    exact beq_eq_false_iff_ne.mpr (hleft harmed)
  · exact le_trans (List.length_eraseIdx_le s.workers index) h.law.oneWorker
  · intro armed hpc
    exact h.clearing armed (hmem _ hpc)
  · intro hpc
    exact h.finishing (hmem _ hpc)

/-- A worker's next program point, with what it does to the phase and the file. -/
theorem ArmInv.withPc {index : Nat} {pc : UnlockWorkerPc} {phase : BootUnlockPhase}
    {file : Option Bool} (h : s.ArmInv)
    (hfile : file = s.file ∨ file = none ∧ s.planted = false)
    (hclearing : ∀ armed, pc = .clearing armed → armed = s.armedAtStart)
    (hfinishing : pc = .finishing → s.armedAtStart = true → file ≠ some true) :
    ArmInv { s.withPc index pc with phase := phase, file := file } := by
  have hmem : ∀ pc', pc' ∈ s.workers.set index pc → pc' ∈ s.workers ∨ pc' = pc :=
    fun _ hpc => List.mem_or_eq_of_mem_set hpc
  refine ⟨⟨h.law.kept, h.law.once, h.law.consumed, ?_⟩, ?_, ?_, ?_⟩
  · simpa [BootUnlockState.withPc] using h.law.oneWorker
  · intro hplanted
    rcases hfile with rfl | ⟨-, hnot⟩
    · exact h.planted hplanted
    · rw [show s.planted = true from hplanted] at hnot
      cases hnot
  · intro armed hpc
    rcases hmem _ hpc with hpc | hpc
    · exact h.clearing armed hpc
    · exact hclearing armed hpc.symm
  · intro hpc harmed
    rcases hmem _ hpc with hold | hnew
    · rcases hfile with hfile | ⟨hfile, -⟩
      · rw [hfile]
        exact h.finishing hold harmed
      · simp [hfile]
    · exact hfinishing hnew.symm harmed

theorem armInv_worker {index : Nat} {memory : Bool} (h : s.ArmInv)
    (hok : s.Careful (.worker index memory)) : (s.step (.worker index memory)).ArmInv := by
  obtain ⟨hplanted, hmemory⟩ := hok
  rw [step, workerStep]
  cases hpc : s.workers[index]? with
  | none => exact h
  | some pc =>
    have hmem : pc ∈ s.workers := List.mem_of_getElem? hpc
    cases pc with
    | starting => exact h.withPc (.inl rfl) (by simp) (by simp)
    | running =>
      cases memory with
      | true => exact h.withPc (.inl rfl) (by simp) (by simp)
      | false => exact h.finish fun harmed hserved => by cases hmemory hpc harmed hserved
    | clearing armed =>
      -- the flag read before is still the boot's own
      have hflag := h.clearing armed hmem
      cases armed with
      | true => exact h.withPc (.inr ⟨rfl, hplanted hpc⟩) (by simp) (by simp)
      | false => exact h.withPc (.inl rfl) (by simp) (by simp [← hflag])
    | finishing => exact h.finish (h.finishing hmem)

theorem armInv_step (a : BootUnlockStep) (h : s.ArmInv) (hok : s.Careful a) : (s.step a).ArmInv := by
  cases a with
  | boot servicesReady mode thread => exact armInv_boot h hok
  | arm => exact armInv_arm h
  | disarm => exact armInv_disarm h
  | run => exact armInv_run h
  | runConfig accepted => exact armInv_runConfig h
  | runStart thread => exact armInv_runStart h hok
  | worker index memory => exact armInv_worker h hok

/-! ## Runs -/

/-- In a run whose steps are all careful, no request is lost, none serves two boots, and no two
    workers are ever alive. -/
theorem arm_request_serves_one_boot (steps : List BootUnlockStep)
    (hok : Runs.EachStep step Careful initial steps) :
    Runs.Always step ArmsOnce initial steps := by
  intro before hbefore
  have hbeforeOk : Runs.EachStep step Careful initial before :=
    fun p a hp => hok p a (hp.trans hbefore)
  have hinv : (Runs.run step initial before).ArmInv :=
    Runs.invariant_of_eachStep (fun s a h hcareful => armInv_step a h hcareful) armInv_initial
      hbeforeOk
  exact hinv.law

/-- A boot, an arm request, the boot that serves it to its end, and one more boot. -/
theorem arm_request_serves_one_boot_once :
    let steps : List BootUnlockStep :=
      [.boot true .armed true, .arm, .boot true .armed true, .worker 0 true, .worker 0 true,
        .worker 0 true, .worker 0 true, .boot true .armed true]
    Runs.EachStep step Careful initial steps ∧ Runs.Always step ArmsOnce initial steps := by
  intro steps
  have hok : Runs.EachStep step Careful initial steps := by
    simp only [steps, Runs.eachStep_cons]
    refine ⟨?_, ?_, ?_, ?_, ?_, ?_, ?_, ?_, Runs.eachStep_nil⟩ <;>
      first | trivial | simp [Careful, initial, step, BootUnlockState.reboot, bootUnlockInit,
        bootUnlockRequest, serve, BootUnlockState.startWorker, workerStep,
        BootUnlockState.withPc, BootUnlockState.finish]
  exact ⟨hok, arm_request_serves_one_boot steps hok⟩

/-- The flag of the boot is never cleared: a request planted after the boot's worker has ended is
    removed by a worker started by hand, and the next boot does not find it. -/
theorem arm_request_lost_after_manual_run :
    ¬ ∀ steps : List BootUnlockStep, Runs.Always step ArmsOnce initial steps := by
  intro h
  have hrun := (h
    [.arm, .boot true .armed true, .worker 0 true, .worker 0 true, .worker 0 true, .worker 0 true,
      .arm, .run, .runConfig true, .runStart true, .worker 0 true, .worker 0 true, .worker 0 true,
      .worker 0 true, .boot true .armed true]).last
  exact absurd hrun (by decide)

end BootUnlockState

end SysAgent
