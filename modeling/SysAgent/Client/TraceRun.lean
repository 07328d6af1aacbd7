import Mathlib
import SysAgent.Lib.Runs

set_option autoImplicit false

/-! # `debug trace-run --wait-process` (`_cmd_debug_trace_run` in `sysagent.py`)

The run is a program counter over the client's console calls. Every call is answered or raises. The
console is its wait for a process: while a wait of this run is active, it moves on before the console
serves a call, whether or not the client reads the answer.

The ghosts `parked` and `issued` are the processes that wait-status has reported as parked and those
that a start-process request has been issued for. -/

namespace SysAgent

/-- What a call raises: `SysAgentProtocolError`, `OSError` or `KeyboardInterrupt`, the last of which
    is no `Exception`. -/
inductive CallFailure
  | protocol
  | os
  | interrupt
  deriving DecidableEq

/-- `isinstance(failure, Exception)`. -/
def CallFailure.isException : CallFailure → Bool
  | .interrupt => false
  | _ => true

/-- `foreground` has the title ID of `expect`, if there is one. -/
inductive ProcessSelector
  | foreground (expectTitleId : Option UInt64)
  | titleId (titleId : UInt64)
  | pid (pid : UInt64)

structure ProfileProcess where
  id : String
  selector : ProcessSelector

/-- The processes of a profile that `load_trace_profile` accepts. -/
structure TraceProfile where
  processes : List ProfileProcess
  distinct : (processes.map ProfileProcess.id).Nodup

/-- The console parks no process without a process ID. -/
abbrev ParkedPid : Type := { pid : UInt64 // pid ≠ 0 }

/-- The console's wait as `debug wait-status` reports it. -/
inductive ConsoleWait
  | idle
  | active
  | parked (pid : ParkedPid)
  | exists
  | timeout
  | error
  deriving DecidableEq

def ConsoleWait.parkedPid : ConsoleWait → Option ParkedPid
  | .parked pid => some pid
  | _ => none

/-- The console calls of the run, and in the wait loop the processes after the one that is waited
    for. -/
inductive RunPc
  | gameStatus (process : ProfileProcess) (expectTitleId : Option UInt64)
      (rest : List ProfileProcess)
  | processList (process : ProfileProcess) (titleId : UInt64) (rest : List ProfileProcess)
  | waitApplication (process : ProfileProcess) (expectTitleId : Option UInt64)
      (rest : List ProfileProcess)
  | waitTitle (process : ProfileProcess) (titleId : UInt64) (rest : List ProfileProcess)
  | waitStatus (process : ProfileProcess) (rest : List ProfileProcess)
  /-- `_release_waited_processes_best_effort` in `_wait_for_profile_processes`. -/
  | releaseWaited (pid : ParkedPid) (rest : List ParkedPid) (failure : CallFailure)
  | resolve
  | startTrace
  | traceArmed
  | startProcesses (pid : ParkedPid) (rest : List ParkedPid) (errors : Bool)
  | finish
  | stopTrace (failure : CallFailure)
  /-- `_release_waited_processes_best_effort` in the `finally` of `_cmd_debug_trace_run`. -/
  | release (pid : ParkedPid) (rest : List ParkedPid) (failure : CallFailure)
  | done (failure : Option CallFailure)

structure TraceRun where
  pc : RunPc
  console : ConsoleWait
  waited : List (String × ParkedPid)
  traceStarted : Bool
  armed : Bool
  parked : List ParkedPid
  issued : List ParkedPid

/-- The answer to a call. `no` is what the call itself denies: a game that does not run, a title
    that is not found, a hook that is not registered, a time-out of a loop, or a call that more calls
    follow. -/
inductive CallAnswer
  | yes
  | no
  | raised (failure : CallFailure)
  deriving DecidableEq

/-- A console call: how far the wait has got when the console serves it, and whether a wait request
    whose answer is lost has reached the console. -/
structure RunEvent where
  console : ConsoleWait
  accepted : Bool
  answer : CallAnswer

namespace TraceRun

variable (s : TraceRun)

def pids : List ParkedPid := s.waited.map Prod.snd

/-- The loop over the processes goes on to the next one that needs a call. -/
def nextProcess : List ProfileProcess → RunPc
  | [] => .resolve
  | process :: rest =>
    match process.selector with
    | .foreground expectTitleId => .gameStatus process expectTitleId rest
    | .titleId titleId => .processList process titleId rest
    | .pid _ => nextProcess rest

def goto (pc : RunPc) : TraceRun := { s with pc := pc }

/-- `waited[process_id] = pid`: the ids of a profile are distinct, so that the entry is new. -/
def record (process : ProfileProcess) (pid : ParkedPid) : TraceRun :=
  { s with waited := s.waited ++ [(process.id, pid)] }

/-- The `finally` of `_cmd_debug_trace_run` after a failure. -/
def releaseAll (failure : CallFailure) : TraceRun :=
  match s.pids with
  | [] => s.goto (.done (some failure))
  | pid :: rest => s.goto (.release pid rest failure)

/-- A failure in `_cmd_debug_trace_run`. -/
def failRun (failure : CallFailure) : TraceRun :=
  if failure.isException ∧ s.traceStarted then s.goto (.stopTrace failure)
  else s.releaseAll failure

/-- A failure in `_wait_for_profile_processes`, whose processes the caller does not have. -/
def failWait (failure : CallFailure) : TraceRun :=
  if failure.isException then
    match s.pids with
    | [] => s.goto (.done (some failure))
    | pid :: rest => s.goto (.releaseWaited pid rest failure)
  else s.goto (.done (some failure))

/-- A report of the wait: the loop of `_wait_for_debug_wait_result` and what the caller records. -/
def report (process : ProfileProcess) (rest : List ProfileProcess) : TraceRun :=
  match s.console with
  | .active => s.goto (.waitStatus process rest)
  | .parked pid =>
    (s.record process pid).goto (nextProcess rest)
  | .exists => s.goto (nextProcess rest)
  | .idle => s.failWait .protocol
  | .timeout => s.failWait .protocol
  | .error => s.failWait .protocol

/-- The call is a request for a wait that reaches the console. -/
def starts (event : RunEvent) : Bool :=
  match s.pc, event.answer with
  | .waitApplication _ _ _, .yes => true
  | .waitTitle _ _ _, .yes => true
  | .waitApplication _ _ _, .raised _ => event.accepted
  | .waitTitle _ _ _, .raised _ => event.accepted
  | _, _ => false

/-- A wait of this run is active when the console serves the call. -/
def waits (event : RunEvent) : Bool :=
  match s.pc with
  | .done _ => false
  | _ => s.console == .active || s.starts event

/-- The console's part of a call. -/
def serve (event : RunEvent) : TraceRun :=
  if s.waits event then
    { s with console := event.console, parked := s.parked ++ event.console.parkedPid.toList }
  else s

/-- `debug_start_process`. -/
def issue (pid : ParkedPid) : TraceRun := { s with issued := s.issued ++ [pid] }

/-- A call of one of the two release loops. -/
def releaseStep (pid : ParkedPid) (rest : List ParkedPid) (failure : CallFailure)
    (loop : ParkedPid → List ParkedPid → CallFailure → RunPc) (answer : CallAnswer) : TraceRun :=
  let s := s.issue pid
  if answer = .raised .interrupt then s.goto (.done (some .interrupt))
  else
    match rest with
    | [] => s.goto (.done (some failure))
    | next :: rest => s.goto (loop next rest failure)

/-- A call of `_start_waited_processes`, and what follows the last one. -/
def startStep (pid : ParkedPid) (rest : List ParkedPid) (errors : Bool) (answer : CallAnswer) :
    TraceRun :=
  let s := s.issue pid
  if answer = .raised .interrupt then s.failRun .interrupt
  else
    let errors := errors || answer != .yes
    match rest with
    | next :: rest => s.goto (.startProcesses next rest errors)
    | [] => if errors then s.failRun .protocol else { s with waited := [] }.goto .finish

/-- The trace has been started. -/
def afterStart : TraceRun :=
  { s with traceStarted := true }.goto (if s.waited = [] then .finish else .traceArmed)

/-- The trace has reported that it is armed. -/
def afterArmed : TraceRun :=
  match s.pids with
  | [] => { s with armed := true }.goto .finish
  | pid :: rest => { s with armed := true }.goto (.startProcesses pid rest false)

/-- The client's part of a call. -/
def call (answer : CallAnswer) : TraceRun :=
  match s.pc with
  | .gameStatus process expectTitleId rest =>
    match answer with
    | .yes => s.goto (nextProcess rest)
    | .no => s.goto (.waitApplication process expectTitleId rest)
    | .raised failure => s.failWait failure
  | .processList process titleId rest =>
    match answer with
    | .yes => s.goto (nextProcess rest)
    | .no => s.goto (.waitTitle process titleId rest)
    | .raised .protocol => s.goto (.waitTitle process titleId rest)
    | .raised failure => s.failWait failure
  | .waitApplication process expectTitleId rest =>
    match answer with
    | .yes => s.report process rest
    | .no =>
      match expectTitleId with
      | some titleId => s.goto (.waitTitle process titleId rest)
      | none => s.failWait .protocol
    | .raised failure => s.failWait failure
  | .waitTitle process _ rest =>
    match answer with
    | .yes => s.report process rest
    | .no => s.failWait .protocol
    | .raised failure => s.failWait failure
  | .waitStatus process rest =>
    match answer with
    | .yes => s.report process rest
    | .no => s.failWait .protocol
    | .raised failure => s.failWait failure
  | .releaseWaited pid rest failure => s.releaseStep pid rest failure .releaseWaited answer
  | .resolve =>
    match answer with
    | .yes => s.goto .startTrace
    | .no => s
    | .raised failure => s.failRun failure
  | .startTrace =>
    match answer with
    | .yes => s.afterStart
    | .no => s
    | .raised failure => s.failRun failure
  | .traceArmed =>
    match answer with
    | .yes => s.afterArmed
    | .no => s
    | .raised failure => s.failRun failure
  | .startProcesses pid rest errors => s.startStep pid rest errors answer
  | .finish =>
    match answer with
    | .yes => s.goto (.done none)
    | .no => s
    | .raised failure => s.failRun failure
  | .stopTrace failure =>
    match answer with
    | .raised .interrupt => s.releaseAll .interrupt
    | _ => s.releaseAll failure
  | .release pid rest failure => s.releaseStep pid rest failure .release answer
  | .done _ => s

def step (s : TraceRun) (event : RunEvent) : TraceRun :=
  (s.serve event).call event.answer

/-- `_cmd_debug_trace_run` with a profile that is loaded. -/
def begin (profile : TraceProfile) (waitProcess : Bool) : TraceRun where
  pc := if waitProcess then nextProcess profile.processes else .resolve
  console := .idle
  waited := []
  traceStarted := false
  armed := false
  parked := []
  issued := []

/-! ## What is proved of a run -/

/-- The run has ended in an error or is on its way there. -/
def failing : RunPc → Bool
  | .releaseWaited _ _ _ => true
  | .stopTrace _ => true
  | .release _ _ _ => true
  | .done (some _) => true
  | _ => false

/-- Nothing stays suspended, and no process is started before the trace is armed. -/
structure NothingSuspended (s : TraceRun) : Prop where
  released : ∀ failure, s.pc = .done failure → ∀ pid ∈ s.parked, pid ∈ s.issued
  startedLate : s.issued ≠ [] → s.armed = true ∨ failing s.pc = true

/-- The calls whose answer reports the wait. -/
def reads : RunPc → Bool
  | .waitApplication _ _ _ => true
  | .waitTitle _ _ _ => true
  | .waitStatus _ _ => true
  | _ => false

/-- The client reads the report of a parked process at once, and no interrupt strikes where a
    process it has recorded would be forgotten. -/
structure Kept (s : TraceRun) (event : RunEvent) : Prop where
  parking : s.waits event = true → event.console.parkedPid.isSome →
    reads s.pc = true ∧ event.answer = .yes
  interrupt : event.answer = .raised .interrupt →
    match s.pc with
    | .gameStatus _ _ _ => s.waited = []
    | .processList _ _ _ => s.waited = []
    | .waitApplication _ _ _ => s.waited = []
    | .waitTitle _ _ _ => s.waited = []
    | .waitStatus _ _ => s.waited = []
    | .releaseWaited _ rest _ => ∀ pid ∈ rest, pid ∈ s.issued
    | .release _ rest _ => ∀ pid ∈ rest, pid ∈ s.issued
    | _ => True

/-! ## The invariant -/

variable {s : TraceRun}

/-- The processes that the client still releases if every call from here on fails. -/
def remaining (s : TraceRun) : List ParkedPid :=
  match s.pc with
  | .releaseWaited pid rest _ => pid :: rest
  | .release pid rest _ => pid :: rest
  | .done _ => []
  | _ => s.pids

/-- Every parked process has had a request or is recorded. -/
def Covered (s : TraceRun) : Prop :=
  ∀ pid ∈ s.parked, pid ∈ s.issued ∨ pid ∈ s.pids

structure RunInv (s : TraceRun) : Prop where
  covered : ∀ pid ∈ s.parked, pid ∈ s.issued ∨ pid ∈ s.remaining
  late : s.issued ≠ [] → s.armed = true ∨ failing s.pc = true
  loop : ∀ pid rest errors, s.pc = .startProcesses pid rest errors →
    s.armed = true ∧ ∀ waited ∈ s.pids, waited ∈ s.issued ∨ waited ∈ pid :: rest
  finished : s.pc = .finish → s.waited = []

/-- The calls before any process is started. -/
def holding : RunPc → Bool
  | .gameStatus _ _ _ => true
  | .processList _ _ _ => true
  | .waitApplication _ _ _ => true
  | .waitTitle _ _ _ => true
  | .waitStatus _ _ => true
  | .resolve => true
  | .startTrace => true
  | .traceArmed => true
  | _ => false

@[simp] theorem holding_nextProcess (processes : List ProfileProcess) :
    holding (nextProcess processes) = true := by
  induction processes with
  | nil => rfl
  | cons process rest ih =>
    unfold nextProcess
    cases process.selector with
    | foreground expectTitleId => rfl
    | titleId titleId => rfl
    | pid pid => exact ih

theorem runInv_begin (profile : TraceProfile) (waitProcess : Bool) :
    RunInv (begin profile waitProcess) where
  covered := by simp [begin]
  late := by simp [begin]
  loop := by
    intro pid rest errors hpc
    have hholding : holding (begin profile waitProcess).pc = true := by
      unfold begin
      simp only
      split_ifs
      · exact holding_nextProcess _
      · rfl
    rw [hpc] at hholding
    exact absurd hholding (by simp [holding])
  finished := fun _ => rfl

theorem covered_of_holding (inv : RunInv s) (h : holding s.pc = true) : Covered s := by
  intro pid hpid
  have hcovered := inv.covered pid hpid
  unfold remaining at hcovered
  cases hpc : s.pc <;> rw [hpc] at h hcovered <;> first | exact hcovered | simp [holding] at h

theorem late_of_holding (inv : RunInv s) (h : holding s.pc = true) (hissued : s.issued ≠ []) :
    s.armed = true := by
  rcases inv.late hissued with harmed | hfailing
  · exact harmed
  · cases hpc : s.pc <;> rw [hpc] at h hfailing <;> simp [holding, failing] at h hfailing

/-- The client goes on to another call before any process is started. -/
theorem runInv_holding (hcovered : Covered s) (hlate : s.issued ≠ [] → s.armed = true) {pc : RunPc}
    (h : holding pc = true) : RunInv (s.goto pc) where
  covered := by
    intro pid hpid
    have hpids := hcovered pid hpid
    unfold remaining
    cases pc <;> first | exact hpids | simp [holding] at h
  late := fun hissued => Or.inl (hlate hissued)
  loop := by
    rintro pid rest errors rfl
    simp [holding] at h
  finished := by
    rintro rfl
    simp [holding] at h

/-- The run turns to an error: what is parked has to be covered by what is still released. -/
theorem runInv_failing {pc : RunPc} (h : failing pc = true)
    (hcovered : ∀ pid ∈ s.parked, pid ∈ s.issued ∨ pid ∈ (s.goto pc).remaining) :
    RunInv (s.goto pc) where
  covered := hcovered
  late := fun _ => Or.inr h
  loop := by
    rintro pid rest errors rfl
    simp [failing] at h
  finished := by
    rintro rfl
    simp [failing] at h

theorem runInv_done {failure : CallFailure} (h : ∀ pid ∈ s.parked, pid ∈ s.issued) :
    RunInv (s.goto (.done (some failure))) :=
  runInv_failing rfl fun pid hpid => Or.inl (h pid hpid)

theorem issued_of_pids_nil (hcovered : Covered s) (hpids : s.pids = []) :
    ∀ pid ∈ s.parked, pid ∈ s.issued := by
  intro pid hpid
  rcases hcovered pid hpid with hissued | hmem
  · exact hissued
  · rw [hpids] at hmem
    exact absurd hmem List.not_mem_nil

/-- The `finally` releases what is recorded. -/
theorem runInv_releaseAll (hcovered : Covered s) (failure : CallFailure) :
    RunInv (s.releaseAll failure) := by
  unfold releaseAll
  cases hpids : s.pids with
  | nil => exact runInv_done (issued_of_pids_nil hcovered hpids)
  | cons first rest =>
    refine runInv_failing rfl fun pid hpid => ?_
    have hmem := hcovered pid hpid
    rw [hpids] at hmem
    exact hmem

theorem runInv_failRun (hcovered : Covered s) (failure : CallFailure) :
    RunInv (s.failRun failure) := by
  unfold failRun
  split_ifs
  · exact runInv_failing rfl hcovered
  · exact runInv_releaseAll hcovered failure

/-- The waiting part releases what is recorded, unless it is interrupted. -/
theorem runInv_failWait (hcovered : Covered s) {failure : CallFailure}
    (hinterrupt : failure = .interrupt → s.waited = []) : RunInv (s.failWait failure) := by
  unfold failWait
  split_ifs with hexception
  · cases hpids : s.pids with
    | nil => exact runInv_done (issued_of_pids_nil hcovered hpids)
    | cons first rest =>
      refine runInv_failing rfl fun pid hpid => ?_
      have hmem := hcovered pid hpid
      rw [hpids] at hmem
      exact hmem
  · cases failure with
    | interrupt =>
      refine runInv_done (issued_of_pids_nil hcovered ?_)
      unfold pids
      rw [hinterrupt rfl]
      rfl
    | protocol => simp [CallFailure.isException] at hexception
    | os => simp [CallFailure.isException] at hexception

/-- A report that reaches the client: a parked process is recorded. -/
theorem runInv_report (process : ProfileProcess) (rest : List ProfileProcess)
    (hcovered : ∀ pid ∈ s.parked, pid ∈ s.issued ∨ pid ∈ s.pids ∨ s.console = .parked pid)
    (hlate : s.issued ≠ [] → s.armed = true) : RunInv (s.report process rest) := by
  have hnone : (∀ pid, s.console ≠ .parked pid) → Covered s := by
    intro hconsole pid hpid
    rcases hcovered pid hpid with hissued | hpids | hparked
    · exact Or.inl hissued
    · exact Or.inr hpids
    · exact absurd hparked (hconsole pid)
  unfold report
  cases hconsole : s.console with
  | active => exact runInv_holding (hnone (by simp [hconsole])) hlate rfl
  | «exists» => exact runInv_holding (hnone (by simp [hconsole])) hlate (holding_nextProcess _)
  | idle => exact runInv_failWait (hnone (by simp [hconsole])) (by simp)
  | timeout => exact runInv_failWait (hnone (by simp [hconsole])) (by simp)
  | error => exact runInv_failWait (hnone (by simp [hconsole])) (by simp)
  | parked parked =>
    have hrecorded : Covered (s.record process parked) := by
      intro pid hpid
      unfold pids record
      rw [List.map_append, List.mem_append]
      rcases hcovered pid hpid with hissued | hpids | hparked
      · exact Or.inl hissued
      · exact Or.inr (Or.inl hpids)
      · rw [hconsole] at hparked
        obtain rfl := ConsoleWait.parked.inj hparked
        exact Or.inr (Or.inr (List.mem_singleton_self _))
    exact runInv_holding hrecorded hlate (holding_nextProcess _)

/-- A call of a release loop. -/
theorem runInv_releaseStep {pid : ParkedPid} {rest : List ParkedPid} (failure : CallFailure)
    {loop : ParkedPid → List ParkedPid → CallFailure → RunPc} (answer : CallAnswer)
    (hcovered : ∀ parked ∈ s.parked, parked ∈ s.issued ∨ parked ∈ pid :: rest)
    (hloop : loop = .releaseWaited ∨ loop = .release)
    (hinterrupt : answer = .raised .interrupt → ∀ other ∈ rest, other ∈ s.issued) :
    RunInv (s.releaseStep pid rest failure loop answer) := by
  have hissue : ∀ parked ∈ s.parked, parked ∈ s.issued ++ [pid] ∨ parked ∈ rest := by
    intro parked hparked
    rw [List.mem_append, List.mem_singleton]
    rcases hcovered parked hparked with hissued | hmem
    · exact Or.inl (Or.inl hissued)
    · rcases List.mem_cons.1 hmem with hself | hrest
      · exact Or.inl (Or.inr hself)
      · exact Or.inr hrest
  unfold releaseStep
  simp only
  split_ifs with hraised
  · refine runInv_done fun parked hparked => ?_
    rcases hissue parked hparked with hissued | hrest
    · exact hissued
    · exact List.mem_append_left _ (hinterrupt hraised parked hrest)
  · cases rest with
    | nil =>
      refine runInv_done fun parked hparked => ?_
      rcases hissue parked hparked with hissued | hrest
      · exact hissued
      · exact absurd hrest List.not_mem_nil
    | cons next rest =>
      rcases hloop with rfl | rfl
      · exact runInv_failing rfl hissue
      · exact runInv_failing rfl hissue

/-- A call of `_start_waited_processes`. -/
theorem runInv_startStep {pid : ParkedPid} {rest : List ParkedPid} (errors : Bool)
    (answer : CallAnswer) (hcovered : Covered s) (harmed : s.armed = true)
    (hpids : ∀ waited ∈ s.pids, waited ∈ s.issued ∨ waited ∈ pid :: rest) :
    RunInv (s.startStep pid rest errors answer) := by
  have hissued : Covered (s.issue pid) := by
    intro parked hparked
    rcases hcovered parked hparked with hissued | hmem
    · exact Or.inl (List.mem_append_left _ hissued)
    · exact Or.inr hmem
  have hloop : ∀ waited ∈ s.pids, waited ∈ s.issued ++ [pid] ∨ waited ∈ rest := by
    intro waited hwaited
    rw [List.mem_append, List.mem_singleton]
    rcases hpids waited hwaited with hissued | hmem
    · exact Or.inl (Or.inl hissued)
    · rcases List.mem_cons.1 hmem with hself | hrest
      · exact Or.inl (Or.inr hself)
      · exact Or.inr hrest
  unfold startStep
  simp only
  by_cases hraised : answer = .raised .interrupt
  · rw [if_pos hraised]
    exact runInv_failRun hissued _
  · rw [if_neg hraised]
    cases rest with
    | cons next rest =>
      exact
        { covered := hissued
          late := fun _ => Or.inl harmed
          loop := by
            intro pid' rest' errors' hpc
            obtain ⟨rfl, rfl, -⟩ := RunPc.startProcesses.inj hpc
            exact ⟨harmed, hloop⟩
          finished := fun hpc => absurd hpc (by simp [goto]) }
    | nil =>
      simp only
      split_ifs
      · exact runInv_failRun hissued _
      · refine ⟨fun parked hparked => ?_, fun _ => Or.inl harmed, fun _ _ _ hpc => ?_, fun _ => rfl⟩
        · rcases hissued parked hparked with hdone | hmem
          · exact Or.inl hdone
          · rcases hloop parked hmem with hdone | hrest
            · exact Or.inl hdone
            · exact absurd hrest List.not_mem_nil
        · exact absurd hpc (by simp [goto])

/-- The calls of `_wait_for_profile_processes` before a release. -/
def waitsForProfile : RunPc → Bool
  | .gameStatus _ _ _ => true
  | .processList _ _ _ => true
  | .waitApplication _ _ _ => true
  | .waitTitle _ _ _ => true
  | .waitStatus _ _ => true
  | _ => false

/-- A call of the wait loop that reads no report: it goes on, or what is recorded is released. -/
theorem runInv_waitCall {answer : CallAnswer} (hpc : waitsForProfile s.pc = true)
    (hcovered : Covered s) (hlate : s.issued ≠ [] → s.armed = true)
    (hreads : ¬ (reads s.pc = true ∧ answer = .yes))
    (hinterrupt : answer = .raised .interrupt → s.waited = []) : RunInv (s.call answer) := by
  have hfailed : ∀ failure, answer = .raised failure → RunInv (s.failWait failure) := by
    intro failure hraised
    exact runInv_failWait hcovered fun h => hinterrupt (h ▸ hraised)
  unfold call
  cases h : s.pc <;> rw [h] at hpc hreads <;> simp only [waitsForProfile, Bool.false_eq_true] at hpc
  case gameStatus process expectTitleId rest =>
    cases answer with
    | yes => exact runInv_holding hcovered hlate (holding_nextProcess _)
    | no => exact runInv_holding hcovered hlate rfl
    | raised failure => exact hfailed failure rfl
  case processList process titleId rest =>
    cases answer with
    | yes => exact runInv_holding hcovered hlate (holding_nextProcess _)
    | no => exact runInv_holding hcovered hlate rfl
    | raised failure =>
      cases failure with
      | protocol => exact runInv_holding hcovered hlate rfl
      | os => exact hfailed .os rfl
      | interrupt => exact hfailed .interrupt rfl
  case waitApplication process expectTitleId rest =>
    cases answer with
    | yes => exact absurd ⟨rfl, rfl⟩ hreads
    | no =>
      cases expectTitleId with
      | none => exact runInv_failWait hcovered (by simp)
      | some titleId => exact runInv_holding hcovered hlate rfl
    | raised failure => exact hfailed failure rfl
  case waitTitle process titleId rest =>
    cases answer with
    | yes => exact absurd ⟨rfl, rfl⟩ hreads
    | no => exact runInv_failWait hcovered (by simp)
    | raised failure => exact hfailed failure rfl
  case waitStatus process rest =>
    cases answer with
    | yes => exact absurd ⟨rfl, rfl⟩ hreads
    | no => exact runInv_failWait hcovered (by simp)
    | raised failure => exact hfailed failure rfl

theorem runInv_afterStart (hcovered : Covered s) (hlate : s.issued ≠ [] → s.armed = true) :
    RunInv s.afterStart := by
  unfold afterStart
  by_cases hwaited : s.waited = []
  · rw [if_pos hwaited]
    exact ⟨hcovered, fun h => Or.inl (hlate h), by simp [goto], fun _ => hwaited⟩
  · rw [if_neg hwaited]
    exact ⟨hcovered, fun h => Or.inl (hlate h), by simp [goto], by simp [goto]⟩

/-- The trace is armed, and the loop over the recorded processes begins with all of them. -/
theorem runInv_afterArmed (hcovered : Covered s) : RunInv s.afterArmed := by
  unfold afterArmed
  cases hpids : s.pids with
  | nil =>
    exact ⟨hcovered, fun _ => Or.inl rfl, by simp [goto], fun _ => List.map_eq_nil_iff.1 hpids⟩
  | cons pid rest =>
    refine ⟨hcovered, fun _ => Or.inl rfl, ?_, by simp [goto]⟩
    intro pid' rest' errors' heq
    obtain ⟨rfl, rfl, -⟩ := RunPc.startProcesses.inj heq
    exact ⟨rfl, fun waited hwaited => Or.inr (hpids ▸ hwaited)⟩

/-- The run ends well: at `finish` nothing is recorded, so that every parked process has had its
    request. -/
theorem runInv_finished (inv : RunInv s) (hcovered : Covered s) (hpc : s.pc = .finish) :
    RunInv (s.goto (.done none)) := by
  have hpids : s.pids = [] := by
    unfold pids
    rw [inv.finished hpc]
    rfl
  refine ⟨fun pid hpid => Or.inl (issued_of_pids_nil hcovered hpids pid hpid), ?_, by simp [goto],
    by simp [goto]⟩
  intro hissued
  have harmed := inv.late hissued
  rw [hpc] at harmed
  simpa [failing, goto] using harmed

/-- A call of the client, other than one that reads the report of the wait. -/
theorem runInv_call (inv : RunInv s) {answer : CallAnswer}
    (hreads : ¬ (reads s.pc = true ∧ answer = .yes))
    (hinterrupt : answer = .raised .interrupt →
      match s.pc with
      | .gameStatus _ _ _ => s.waited = []
      | .processList _ _ _ => s.waited = []
      | .waitApplication _ _ _ => s.waited = []
      | .waitTitle _ _ _ => s.waited = []
      | .waitStatus _ _ => s.waited = []
      | .releaseWaited _ rest _ => ∀ pid ∈ rest, pid ∈ s.issued
      | .release _ rest _ => ∀ pid ∈ rest, pid ∈ s.issued
      | _ => True) : RunInv (s.call answer) := by
  have hcovered : holding s.pc = true → Covered s := covered_of_holding inv
  have hlate : holding s.pc = true → s.issued ≠ [] → s.armed = true := late_of_holding inv
  by_cases hwaits : waitsForProfile s.pc = true
  · have hholding : holding s.pc = true := by
      cases h : s.pc <;> rw [h] at hwaits <;> first | rfl | simp [waitsForProfile] at hwaits
    refine runInv_waitCall hwaits (hcovered hholding) (hlate hholding) hreads fun hraised => ?_
    have hwaited := hinterrupt hraised
    cases h : s.pc <;> rw [h] at hwaits hwaited <;>
      first | exact hwaited | simp [waitsForProfile] at hwaits
  have hremaining := inv.covered
  unfold remaining at hremaining
  unfold call
  cases hpc : s.pc <;> simp only [hpc] at hwaits hinterrupt hcovered hlate hremaining ⊢
  case releaseWaited pid rest failure =>
    exact runInv_releaseStep failure answer hremaining (Or.inl rfl) hinterrupt
  case resolve =>
    cases answer with
    | yes => exact runInv_holding (hcovered rfl) (hlate rfl) rfl
    | no => exact inv
    | raised failure => exact runInv_failRun (hcovered rfl) failure
  case startTrace =>
    cases answer with
    | yes => exact runInv_afterStart (hcovered rfl) (hlate rfl)
    | no => exact inv
    | raised failure => exact runInv_failRun (hcovered rfl) failure
  case traceArmed =>
    cases answer with
    | yes => exact runInv_afterArmed (hcovered rfl)
    | no => exact inv
    | raised failure => exact runInv_failRun (hcovered rfl) failure
  case startProcesses pid rest errors =>
    obtain ⟨harmed, hpids⟩ := inv.loop pid rest errors hpc
    exact runInv_startStep errors answer hremaining harmed hpids
  case finish =>
    cases answer with
    | yes => exact runInv_finished inv hremaining hpc
    | no => exact inv
    | raised failure => exact runInv_failRun hremaining failure
  case stopTrace failure =>
    cases answer with
    | yes => exact runInv_releaseAll hremaining failure
    | no => exact runInv_releaseAll hremaining failure
    | raised raised =>
      cases raised with
      | protocol => exact runInv_releaseAll hremaining failure
      | os => exact runInv_releaseAll hremaining failure
      | interrupt => exact runInv_releaseAll hremaining .interrupt
  case release pid rest failure =>
    exact runInv_releaseStep failure answer hremaining (Or.inr rfl) hinterrupt
  case done failure => exact inv
  all_goals exact absurd rfl hwaits

@[simp] theorem serve_pc (event : RunEvent) : (s.serve event).pc = s.pc := by
  unfold serve
  split_ifs <;> rfl

@[simp] theorem serve_waited (event : RunEvent) : (s.serve event).waited = s.waited := by
  unfold serve
  split_ifs <;> rfl

@[simp] theorem serve_issued (event : RunEvent) : (s.serve event).issued = s.issued := by
  unfold serve
  split_ifs <;> rfl

@[simp] theorem serve_armed (event : RunEvent) : (s.serve event).armed = s.armed := by
  unfold serve
  split_ifs <;> rfl

@[simp] theorem serve_pids (event : RunEvent) : (s.serve event).pids = s.pids := by
  unfold pids
  rw [serve_waited]

@[simp] theorem serve_remaining (event : RunEvent) :
    (s.serve event).remaining = s.remaining := by
  unfold remaining
  rw [serve_pc, serve_pids]

/-- What the console parks while it serves a call is what it reports then. -/
theorem mem_serve_parked {event : RunEvent} {pid : ParkedPid}
    (h : pid ∈ (s.serve event).parked) :
    pid ∈ s.parked ∨ s.waits event = true ∧ event.console.parkedPid = some pid ∧
      (s.serve event).console = .parked pid := by
  unfold serve at h ⊢
  split_ifs at h ⊢ with hwaits
  · rcases List.mem_append.1 h with hold | hnew
    · exact Or.inl hold
    · rw [Option.mem_toList] at hnew
      refine Or.inr ⟨hwaits, hnew, ?_⟩
      cases hconsole : event.console <;> rw [hconsole] at hnew <;>
        simp [ConsoleWait.parkedPid] at hnew
      rw [hnew]
  · exact Or.inl h

theorem runInv_step (s : TraceRun) (event : RunEvent) (inv : RunInv s) (hkept : Kept s event) :
    RunInv (s.step event) := by
  unfold step
  by_cases hreads : reads s.pc = true ∧ event.answer = .yes
  · -- the client reads what the console reports now
    obtain ⟨hpc, hanswer⟩ := hreads
    have hholding : holding s.pc = true := by
      cases h : s.pc <;> rw [h] at hpc <;> simp [reads] at hpc <;> rfl
    have hcovered : ∀ pid ∈ (s.serve event).parked, pid ∈ (s.serve event).issued ∨
        pid ∈ (s.serve event).pids ∨ (s.serve event).console = .parked pid := by
      intro pid hpid
      rw [serve_issued, serve_pids]
      rcases mem_serve_parked hpid with hold | ⟨-, -, hconsole⟩
      · rcases covered_of_holding inv hholding pid hold with hissued | hpids
        · exact Or.inl hissued
        · exact Or.inr (Or.inl hpids)
      · exact Or.inr (Or.inr hconsole)
    have hlate : (s.serve event).issued ≠ [] → (s.serve event).armed = true := by
      rw [serve_issued, serve_armed]
      exact late_of_holding inv hholding
    rw [hanswer]
    unfold call
    rw [serve_pc]
    cases h : s.pc <;> rw [h] at hpc <;> simp [reads] at hpc
    case waitApplication process expectTitleId rest => exact runInv_report process rest hcovered hlate
    case waitTitle process titleId rest => exact runInv_report process rest hcovered hlate
    case waitStatus process rest => exact runInv_report process rest hcovered hlate
  · have hserved : RunInv (s.serve event) := by
      refine ⟨?_, ?_, ?_, ?_⟩
      · intro pid hpid
        rw [serve_issued, serve_remaining]
        rcases mem_serve_parked hpid with hold | ⟨hwaits, hparked, -⟩
        · exact inv.covered pid hold
        · exact absurd (hkept.parking hwaits (by rw [hparked]; rfl)) hreads
      · rw [serve_issued, serve_armed, serve_pc]
        exact inv.late
      · simp only [serve_pc, serve_armed, serve_pids, serve_issued]
        exact inv.loop
      · rw [serve_pc, serve_waited]
        exact inv.finished
    refine runInv_call hserved ?_ ?_
    · rw [serve_pc]
      exact hreads
    · simp only [serve_pc, serve_waited, serve_issued]
      exact hkept.interrupt

theorem nothingSuspended (inv : RunInv s) : NothingSuspended s where
  released := by
    intro failure hpc pid hpid
    have hcovered := inv.covered pid hpid
    unfold remaining at hcovered
    rw [hpc] at hcovered
    simpa using hcovered
  startedLate := inv.late

end TraceRun

/-! ## trace-run -/

/-- Whatever the console answers and whichever calls raise, a trace-run whose calls read every
    report of a parked process and keep what they record leaves nothing suspended when it ends. -/
theorem trace_run_releases_parked (profile : TraceProfile) (waitProcess : Bool)
    (events : List RunEvent)
    (hkept : Runs.EachStep TraceRun.step TraceRun.Kept (TraceRun.begin profile waitProcess)
      events) :
    Runs.Always TraceRun.step TraceRun.NothingSuspended (TraceRun.begin profile waitProcess)
      events := by
  intro p hp
  refine TraceRun.nothingSuspended (Runs.invariant_of_eachStep TraceRun.runInv_step
    (TraceRun.runInv_begin profile waitProcess) ?_)
  exact fun q event hq => hkept q event (hq.trans hp)

/-- One process that is waited for by its title. -/
def waitedProfile : TraceProfile where
  processes := [⟨"game", .titleId 0x1000⟩]
  distinct := by decide

/-- A process is parked and recorded, and the connection fails while the trace is started: the
    process is released. -/
theorem trace_run_releases_parked_on_failure :
    Runs.Always TraceRun.step TraceRun.NothingSuspended (TraceRun.begin waitedProfile true)
      [⟨.idle, false, .no⟩, ⟨.active, true, .yes⟩, ⟨.parked ⟨0x51, by decide⟩, false, .yes⟩,
        ⟨.idle, false, .yes⟩, ⟨.idle, false, .raised .os⟩, ⟨.idle, false, .yes⟩] := by
  apply trace_run_releases_parked
  simp only [Runs.eachStep_cons, Runs.eachStep_nil, and_true]
  exact ⟨⟨by decide, nofun⟩, ⟨by decide, nofun⟩, ⟨by decide, nofun⟩, ⟨by decide, nofun⟩,
    ⟨by decide, nofun⟩, ⟨by decide, nofun⟩⟩

/-- The connection fails at the wait-status call in which the console has parked the process: the run
    ends and the process stays suspended. -/
theorem parked_process_stays_suspended :
    ¬ TraceRun.NothingSuspended (Runs.run TraceRun.step (TraceRun.begin waitedProfile true)
      [⟨.idle, false, .no⟩, ⟨.active, true, .yes⟩,
        ⟨.parked ⟨0x51, by decide⟩, false, .raised .os⟩]) := by
  intro suspended
  have hissued := suspended.released (some .os) rfl ⟨0x51, by decide⟩ (List.mem_singleton_self _)
  exact absurd hissued List.not_mem_nil

end SysAgent
