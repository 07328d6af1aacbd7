import Mathlib
import SysAgent.Lib.Runs

set_option autoImplicit false

/-! # Waiting for a process (`debug_wait.c`)

`startWait` and, after it, `waitThreadMain` are one thread of control with a program counter; every
step is one critical section or one call to PM. Between any two steps processes are created, started
and end.

`Pm` is the creation hook: the first matching process that is created while the hook is registered
is left suspended, the event is signalled, and the hook is used up. The ghost `parked` is the
process that the hook of the latest wait has parked. A process goes unnoticed when it is parked
after the wait has already decided for another outcome. -/

namespace SysAgent

inductive DebugWaitState
  | idle
  | waiting
  | parked
  | exists
  | timeout
  | error
  | started
  deriving DecidableEq

inductive DebugWaitStage
  | none
  | registerHook
  | exists
  | waitEvent
  | threadStart
  | parked
  | timeout
  | queryProcess
  | started
  deriving DecidableEq

structure DebugWaitContext where
  threadStarted : Bool
  active : Bool
  state : DebugWaitState
  application : Bool
  waited : Bool
  titleId : UInt64
  processId : UInt64
  timeoutMs : UInt64
  lastError : UInt32
  stage : DebugWaitStage

structure DebugWaitStatus where
  active : Bool
  state : DebugWaitState
  application : Bool
  waited : Bool
  titleId : UInt64
  processId : UInt64
  timeoutMs : UInt64
  lastError : UInt32
  stage : DebugWaitStage

structure PmProcess where
  pid : UInt64
  titleId : UInt64
  application : Bool
  deriving DecidableEq

structure PmHook where
  application : Bool
  titleId : UInt64

structure Pm where
  live : List PmProcess
  created : List UInt64
  started : List UInt64
  hook : Option PmHook
  signalled : Bool

/-- Where the wait is; a result and a process ID are locals of the functions. -/
inductive WaitPc
  | idle
  | registerHook
  | queryExisting
  | clearExisting (pid : UInt64)
  | publishExisting (pid : UInt64)
  | enterWait
  | launch
  | clearLaunch (rc : UInt32)
  | publishLaunch (rc : UInt32)
  | wait
  | queryProcess (attempt : Nat)
  | clear (rc : UInt32) (pid : UInt64)
  | publish (rc : UInt32) (pid : UInt64)

structure WaitSystem where
  context : DebugWaitContext
  pm : Pm
  pc : WaitPc
  /-- The process whose `pmdmntStartProcess` has succeeded, until it is marked. -/
  starting : Option UInt64
  parked : Option UInt64

/-- What the calls of one step answer: a result, and the process ID a query finds. -/
structure WaitAnswers where
  result : UInt32
  pid : Option UInt64

inductive WaitEvent
  | startWait (application : Bool) (titleId timeoutMs : UInt64)
  | step (answers : WaitAnswers)
  | create (process : PmProcess)
  | exit (pid : UInt64)
  | startProcess (pid : UInt64)
  | markStarted

/-- `KERNELRESULT(TimedOut)` -/
def KERNELRESULT_TimedOut : UInt32 := 0xEA01

def QUERY_ATTEMPTS : Nat := 50

def PmHook.matchesProcess (hook : PmHook) (process : PmProcess) : Bool :=
  if hook.application then process.application else hook.titleId == process.titleId

def DebugWaitContext.hook (context : DebugWaitContext) : PmHook :=
  { application := context.application, titleId := context.titleId }

namespace WaitSystem

def debugWaitGetStatus (s : WaitSystem) : DebugWaitStatus where
  active := s.context.active
  state := s.context.state
  application := s.context.application
  waited := s.context.waited
  titleId := s.context.titleId
  processId := s.context.processId
  timeoutMs := s.context.timeoutMs
  lastError := s.context.lastError
  stage := s.context.stage

/-- `pmdmntGetProcessId` or `pmdmntGetApplicationProcessId`: a query that is answered finds a live
    process the wait is for. -/
def queryProcessId (s : WaitSystem) (answers : WaitAnswers) : Option UInt64 :=
  answers.pid.filter fun pid =>
    s.pm.live.any fun process => process.pid == pid && s.context.hook.matchesProcess process

def pmdmntClearHook (s : WaitSystem) : WaitSystem := { s with pm := { s.pm with hook := none } }

/-- The first critical section of `startWait`. -/
def startWait (application : Bool) (titleId timeoutMs : UInt64) (s : WaitSystem) : WaitSystem :=
  if timeoutMs = 0 ∨ (application = false ∧ titleId = 0) then s
  else if s.context.active then s
  else
    { s with
      context := {
        threadStarted := false
        active := true
        state := .waiting
        application := application
        waited := false
        titleId := titleId
        processId := 0
        timeoutMs := timeoutMs
        lastError := 0
        stage := .registerHook }
      pc := .registerHook
      parked := none }

/-- The critical section of a failure of `startWait`. -/
def failStart (stage : DebugWaitStage) (rc : UInt32) (s : WaitSystem) : WaitSystem :=
  { s with
    context := { s.context with
      threadStarted := false
      active := false
      state := .error
      lastError := rc
      stage := stage }
    pc := .idle }

def publishExisting (pid : UInt64) (s : WaitSystem) : WaitSystem :=
  { s with
    context := { s.context with
      active := false
      state := .exists
      processId := pid
      waited := false
      stage := .exists }
    pc := .idle }

/-- The last critical section of `waitThreadMain`. -/
def publish (rc : UInt32) (pid : UInt64) (s : WaitSystem) : WaitSystem :=
  let context := { s.context with active := false, processId := pid, lastError := rc }
  { s with
    context :=
      if rc = 0 ∧ pid ≠ 0 then { context with state := .parked, waited := true, stage := .parked }
      else if rc = KERNELRESULT_TimedOut then { context with state := .timeout, stage := .timeout }
      else { context with state := .error, stage := .queryProcess }
    pc := .idle }

/-- One step of `startWait` or of `waitThreadMain`. -/
def advance (answers : WaitAnswers) (s : WaitSystem) : WaitSystem :=
  match s.pc with
  | .idle => s
  | .registerHook =>
    if answers.result ≠ 0 then s.failStart .registerHook answers.result
    else
      { s with
        pm := { s.pm with hook := some s.context.hook, signalled := false }
        pc := .queryExisting }
  | .queryExisting =>
    match s.queryProcessId answers with
    | some pid => { s with pc := .clearExisting pid }
    | none => { s with pc := .enterWait }
  | .clearExisting pid => { s.pmdmntClearHook with pc := .publishExisting pid }
  | .publishExisting pid => s.publishExisting pid
  | .enterWait =>
    { s with
      context := { s.context with threadStarted := true, stage := .waitEvent }
      pc := .launch }
  | .launch =>
    if answers.result ≠ 0 then { s with pc := .clearLaunch answers.result }
    else { s with pc := .wait }
  | .clearLaunch rc => { s.pmdmntClearHook with pc := .publishLaunch rc }
  | .publishLaunch rc => s.failStart .threadStart rc
  | .wait =>
    if s.pm.signalled then { s with pc := .queryProcess 0 }
    else { s with pc := .clear KERNELRESULT_TimedOut 0 }
  | .queryProcess attempt =>
    match s.queryProcessId answers with
    | some pid => { s with pc := .clear 0 pid }
    | none =>
      if attempt + 1 < QUERY_ATTEMPTS then { s with pc := .queryProcess (attempt + 1) }
      else { s with pc := .clear answers.result 0 }
  | .clear rc pid => { s.pmdmntClearHook with pc := .publish rc pid }
  | .publish rc pid => s.publish rc pid

/-- The creation hook catches `process`. -/
def fires (s : WaitSystem) (process : PmProcess) : Bool :=
  s.pm.hook.any fun hook => hook.matchesProcess process

/-- A process with a new ID is created, and started unless the hook catches it. -/
def create (process : PmProcess) (s : WaitSystem) : WaitSystem :=
  if process.pid = 0 ∨ process.pid ∈ s.pm.created then s
  else if s.fires process then
    { s with
      pm := { s.pm with
        live := s.pm.live ++ [process]
        created := s.pm.created ++ [process.pid]
        hook := none
        signalled := true }
      parked := some process.pid }
  else
    { s with pm := { s.pm with
        live := s.pm.live ++ [process]
        created := s.pm.created ++ [process.pid]
        started := s.pm.started ++ [process.pid] } }

def debugWaitMarkStarted (processId : UInt64) (s : WaitSystem) : WaitSystem :=
  if s.context.processId = processId ∧ s.context.state = .parked then
    { s with context := { s.context with state := .started, stage := .started } }
  else s

def step (s : WaitSystem) : WaitEvent → WaitSystem
  | .startWait application titleId timeoutMs =>
    match s.pc with
    | .idle => s.startWait application titleId timeoutMs
    | _ => s
  | .step answers => s.advance answers
  | .create process => s.create process
  | .exit pid =>
    if pid ∈ s.pm.started then
      { s with pm := { s.pm with live := s.pm.live.filter fun process => process.pid ≠ pid } }
    else s
  | .startProcess pid =>
    if pid ∈ s.pm.created ∧ pid ∉ s.pm.started then
      { s with pm := { s.pm with started := s.pm.started ++ [pid] }, starting := some pid }
    else s
  | .markStarted =>
    match s.starting with
    | some pid => { s.debugWaitMarkStarted pid with starting := none }
    | none => s

/-- After `debugWaitInitialize`. -/
def initial : WaitSystem where
  context := {
    threadStarted := false
    active := false
    state := .idle
    application := false
    waited := false
    titleId := 0
    processId := 0
    timeoutMs := 0
    lastError := 0
    stage := .none }
  pm := { live := [], created := [], started := [], hook := none, signalled := false }
  pc := .idle
  starting := none
  parked := none

/-- A wait that is over reports the process its hook has parked until it is started, and no other
    process is reported as parked. -/
structure ReportsParked (s : WaitSystem) : Prop where
  noticed : s.debugWaitGetStatus.active = false →
    ∀ pid, s.parked = some pid → pid ∉ s.pm.started →
      s.debugWaitGetStatus.state = .parked ∧ s.debugWaitGetStatus.waited = true ∧
        s.debugWaitGetStatus.processId = pid
  sound : s.debugWaitGetStatus.state = .parked → s.parked = some s.debugWaitGetStatus.processId

/-- The wait has settled for an outcome other than parked and its hook is still registered. -/
def settled : WaitPc → Bool
  | .clearExisting _ => true
  | .clearLaunch _ => true
  | .clear _ _ => true
  | _ => false

/-- No process is parked once another outcome is settled, and no other outcome is settled once a
    process is parked. -/
def ParksInTime (s : WaitSystem) (event : WaitEvent) : Prop :=
  match event with
  | .create process => s.fires process = true → process.pid ≠ 0 →
      process.pid ∉ s.pm.created → settled s.pc = false
  | .step answers =>
    match s.pc with
    | .queryExisting => s.queryProcessId answers ≠ none → s.parked = none
    | .launch => answers.result ≠ 0 → s.parked = none
    | .queryProcess attempt =>
      s.queryProcessId answers = s.parked ∨
        (s.queryProcessId answers = none ∧ attempt + 1 < QUERY_ATTEMPTS)
    | _ => True
  | _ => True

/-! ## The invariant -/

/-- What the wait knows of the parked process at each point. -/
def Knows (s : WaitSystem) : WaitPc → Prop
  | .idle => s.pm.hook = none ∧ ∀ pid, s.parked = some pid → pid ∉ s.pm.started →
      s.context.state = .parked ∧ s.context.waited = true ∧ s.context.processId = pid
  | .registerHook => s.pm.hook = none ∧ s.parked = none
  | .queryExisting => s.pm.signalled = false → s.parked = none
  | .enterWait => s.pm.signalled = false → s.parked = none
  | .launch => s.pm.signalled = false → s.parked = none
  | .wait => s.pm.signalled = false → s.parked = none
  | .clearExisting _ => s.parked = none
  | .publishExisting _ => s.pm.hook = none ∧ s.parked = none
  | .clearLaunch _ => s.parked = none
  | .publishLaunch _ => s.pm.hook = none ∧ s.parked = none
  | .queryProcess _ => s.parked ≠ none
  | .clear rc pid => (rc = 0 ∧ pid ≠ 0 ∧ s.parked = some pid) ∨
      (¬ (rc = 0 ∧ pid ≠ 0) ∧ s.parked = none)
  | .publish rc pid => s.pm.hook = none ∧ ((rc = 0 ∧ pid ≠ 0 ∧ s.parked = some pid) ∨
      (¬ (rc = 0 ∧ pid ≠ 0) ∧ s.parked = none))

structure WaitInv (s : WaitSystem) : Prop where
  active : s.context.active = false ↔ s.pc = .idle
  oneShot : s.parked ≠ none → s.pm.hook = none
  pid : s.parked ≠ some 0
  signal : s.pc ≠ .idle → s.pc ≠ .registerHook → s.pm.signalled = true → s.parked ≠ none
  sound : s.context.state = .parked → s.parked = some s.context.processId
  starting : ∀ pid, s.starting = some pid → pid ∈ s.pm.started
  knows : s.Knows s.pc

namespace WaitInv

variable {s : WaitSystem}

theorem reports (inv : WaitInv s) : ReportsParked s where
  noticed := by
    intro hactive
    have hknows := inv.knows
    rw [inv.active.1 hactive] at hknows
    exact hknows.2
  sound := inv.sound

theorem initial : WaitInv initial where
  active := by simp [WaitSystem.initial]
  oneShot := by simp [WaitSystem.initial]
  pid := by simp [WaitSystem.initial]
  signal := by simp [WaitSystem.initial]
  sound := by simp [WaitSystem.initial]
  starting := by simp [WaitSystem.initial]
  knows := by simp [WaitSystem.initial, Knows]

/-- A first critical section clears what the wait before has left. -/
theorem startWait (inv : WaitInv s) (hpc : s.pc = .idle) (application : Bool)
    (titleId timeoutMs : UInt64) : WaitInv (s.startWait application titleId timeoutMs) := by
  have hknows := inv.knows
  rw [hpc] at hknows
  unfold WaitSystem.startWait
  split_ifs
  · exact inv
  · exact inv
  · exact
      { active := by simp
        oneShot := by simp
        pid := by simp
        signal := by simp
        sound := by simp
        starting := inv.starting
        knows := ⟨hknows.1, rfl⟩ }

theorem failStart (inv : WaitInv s) (hhook : s.pm.hook = none) (hparked : s.parked = none)
    (stage : DebugWaitStage) (rc : UInt32) : WaitInv (s.failStart stage rc) where
  active := by simp [WaitSystem.failStart]
  oneShot := inv.oneShot
  pid := inv.pid
  signal := fun h => absurd rfl h
  sound := by simp [WaitSystem.failStart]
  starting := inv.starting
  knows := by
    refine ⟨hhook, fun pid hpid => ?_⟩
    change s.parked = some pid at hpid
    rw [hparked] at hpid
    exact absurd hpid (by simp)

theorem publishExisting (inv : WaitInv s) (hhook : s.pm.hook = none)
    (hparked : s.parked = none) (pid : UInt64) : WaitInv (s.publishExisting pid) where
  active := by simp [WaitSystem.publishExisting]
  oneShot := inv.oneShot
  pid := inv.pid
  signal := fun h => absurd rfl h
  sound := by simp [WaitSystem.publishExisting]
  starting := inv.starting
  knows := by
    refine ⟨hhook, fun pid hpid => ?_⟩
    change s.parked = some pid at hpid
    rw [hparked] at hpid
    exact absurd hpid (by simp)

/-- The worker publishes what it has found. -/
theorem publish (inv : WaitInv s) {rc : UInt32} {pid : UInt64} (hhook : s.pm.hook = none)
    (hfound : (rc = 0 ∧ pid ≠ 0 ∧ s.parked = some pid) ∨
      (¬ (rc = 0 ∧ pid ≠ 0) ∧ s.parked = none)) : WaitInv (s.publish rc pid) := by
  rcases hfound with ⟨hrc, hpid, hparked⟩ | ⟨hnot, hparked⟩
  · have hpublish : s.publish rc pid = { s with
        context := { s.context with
          active := false
          processId := pid
          lastError := rc
          state := .parked
          waited := true
          stage := .parked }
        pc := .idle } := by
      simp [WaitSystem.publish, hrc, hpid]
    rw [hpublish]
    exact
      { active := by simp
        oneShot := inv.oneShot
        pid := inv.pid
        signal := fun h => absurd rfl h
        sound := fun _ => hparked
        starting := inv.starting
        knows := by
          refine ⟨hhook, fun pid' hpid' _ => ⟨rfl, rfl, ?_⟩⟩
          change s.parked = some pid' at hpid'
          rw [hparked] at hpid'
          exact Option.some.inj hpid' }
  · have hstate : (s.publish rc pid).context.active = false ∧
        (s.publish rc pid).context.state ≠ .parked := by
      simp only [WaitSystem.publish, if_neg hnot]
      split_ifs <;> simp
    exact
      { active := iff_of_true hstate.1 rfl
        oneShot := inv.oneShot
        pid := inv.pid
        signal := fun h => absurd rfl h
        sound := fun h => absurd h hstate.2
        starting := inv.starting
        knows := by
          refine ⟨hhook, fun pid' hpid' => ?_⟩
          change s.parked = some pid' at hpid'
          rw [hparked] at hpid'
          exact absurd hpid' (by simp) }

/-- A step that only moves on. -/
theorem withPc (inv : WaitInv s) (pc : WaitPc) (hbusy : s.pc ≠ .idle) (hbusy' : pc ≠ .idle)
    (hsignal : s.pm.signalled = true → s.parked ≠ none) (hknows : s.Knows pc) :
    WaitInv { s with pc := pc } where
  active := by
    have hactive := inv.active
    simp only [hbusy, iff_false] at hactive
    simp [hbusy', hactive]
  oneShot := inv.oneShot
  pid := inv.pid
  signal := fun _ _ => hsignal
  sound := inv.sound
  starting := inv.starting
  knows := by
    cases pc <;> exact hknows

/-- Clearing the hook changes nothing else. -/
theorem clearHook (inv : WaitInv s) {pc : WaitPc} (hbusy : s.pc ≠ .idle) (hbusy' : pc ≠ .idle)
    (hsignal : s.pm.signalled = true → s.parked ≠ none)
    (hknows : s.pmdmntClearHook.Knows pc) : WaitInv { s.pmdmntClearHook with pc := pc } where
  active := by
    have hactive := inv.active
    simp only [hbusy, iff_false] at hactive
    simp [hbusy', hactive, pmdmntClearHook]
  oneShot := fun _ => rfl
  pid := inv.pid
  signal := fun _ _ => hsignal
  sound := inv.sound
  starting := inv.starting
  knows := by
    cases pc <;> exact hknows

/-- A step of the wait, by cases on where it is. -/
theorem advance (inv : WaitInv s) {answers : WaitAnswers}
    (htime : s.ParksInTime (.step answers)) : WaitInv (s.advance answers) := by
  have hknows := inv.knows
  have hsignal := inv.signal
  unfold WaitSystem.advance
  unfold ParksInTime at htime
  cases hpc : s.pc with
  | idle => exact inv
  | registerHook =>
    rw [hpc] at hknows
    simp only
    split_ifs
    · exact inv.failStart hknows.1 hknows.2 _ _
    · have hbusy : s.context.active ≠ false := fun h => by
        rw [inv.active.1 h] at hpc
        exact absurd hpc (by simp)
      exact
        { active := by simp [hbusy]
          oneShot := fun h => absurd hknows.2 h
          pid := inv.pid
          signal := by simp
          sound := inv.sound
          starting := inv.starting
          knows := fun _ => hknows.2 }
  | queryExisting =>
    rw [hpc] at hknows hsignal
    simp only [hpc] at htime
    have hsig := hsignal (by simp) (by simp)
    simp only
    split
    · rename_i pid hfound
      refine inv.withPc _ (by simp [hpc]) (by simp) hsig ?_
      exact htime (by rw [hfound]; simp)
    · exact inv.withPc _ (by simp [hpc]) (by simp) hsig hknows
  | clearExisting pid =>
    rw [hpc] at hknows hsignal
    exact inv.clearHook (by simp [hpc]) (by simp) (hsignal (by simp) (by simp)) ⟨rfl, hknows⟩
  | publishExisting pid =>
    rw [hpc] at hknows
    exact inv.publishExisting hknows.1 hknows.2 pid
  | enterWait =>
    rw [hpc] at hknows hsignal
    have hmoved := inv.withPc .launch (by simp [hpc]) (by simp)
      (hsignal (by simp) (by simp)) hknows
    exact
      { active := hmoved.active
        oneShot := hmoved.oneShot
        pid := hmoved.pid
        signal := hmoved.signal
        sound := hmoved.sound
        starting := hmoved.starting
        knows := hmoved.knows }
  | launch =>
    rw [hpc] at hknows hsignal
    simp only [hpc] at htime
    have hsig := hsignal (by simp) (by simp)
    simp only
    split_ifs with hresult
    · exact inv.withPc _ (by simp [hpc]) (by simp) hsig (htime hresult)
    · exact inv.withPc _ (by simp [hpc]) (by simp) hsig hknows
  | clearLaunch rc =>
    rw [hpc] at hknows hsignal
    exact inv.clearHook (by simp [hpc]) (by simp) (hsignal (by simp) (by simp)) ⟨rfl, hknows⟩
  | publishLaunch rc =>
    rw [hpc] at hknows
    exact inv.failStart hknows.1 hknows.2 _ _
  | wait =>
    rw [hpc] at hknows hsignal
    have hsig := hsignal (by simp) (by simp)
    simp only
    split_ifs with hset
    · exact inv.withPc _ (by simp [hpc]) (by simp) hsig (hsig hset)
    · refine inv.withPc _ (by simp [hpc]) (by simp) hsig (Or.inr ⟨?_, hknows (by simpa using hset)⟩)
      decide
  | queryProcess attempt =>
    rw [hpc] at hknows hsignal
    simp only [hpc] at htime
    have hsig := hsignal (by simp) (by simp)
    simp only
    rcases htime with hfound | ⟨hnone, hattempt⟩
    · obtain ⟨pid, hpid⟩ := Option.ne_none_iff_exists'.1 hknows
      have hanswer : s.queryProcessId answers = some pid := by rw [hfound, hpid]
      rw [hanswer]
      have hzero : pid ≠ 0 := fun h => inv.pid (by rw [hpid, h])
      exact inv.withPc (.clear 0 pid) (by simp [hpc]) (by simp) hsig
        (Or.inl ⟨rfl, hzero, hpid⟩)
    · rw [hnone]
      simp only [if_pos hattempt]
      exact inv.withPc _ (by simp [hpc]) (by simp) hsig hknows
  | clear rc pid =>
    rw [hpc] at hknows hsignal
    exact inv.clearHook (by simp [hpc]) (by simp) (hsignal (by simp) (by simp)) ⟨rfl, hknows⟩
  | publish rc pid =>
    rw [hpc] at hknows
    exact inv.publish hknows.1 hknows.2

/-- The creation of a process. -/
theorem create (inv : WaitInv s) {process : PmProcess}
    (htime : s.ParksInTime (.create process)) : WaitInv (s.create process) := by
  unfold WaitSystem.create
  split_ifs with hrefused hfires
  · exact inv
  · rw [not_or] at hrefused
    have hopen : s.pm.hook ≠ none := by
      intro hnone
      simp [fires, hnone] at hfires
    have hunsettled := htime hfires hrefused.1 hrefused.2
    have hknows := inv.knows
    refine
      { active := inv.active
        oneShot := fun _ => rfl
        pid := fun h => hrefused.1 (Option.some.inj h)
        signal := fun _ _ _ => by simp
        sound := ?_
        starting := inv.starting
        knows := ?_ }
    · intro hstate
      -- the hook is registered, so the latest wait has not reported
      have hparked := inv.sound hstate
      exact absurd (inv.oneShot (by rw [hparked]; simp)) hopen
    · cases hpc : s.pc <;> rw [hpc] at hknows hunsettled
      case idle => exact absurd hknows.1 hopen
      case registerHook => exact absurd hknows.1 hopen
      case publishExisting => exact absurd hknows.1 hopen
      case publishLaunch => exact absurd hknows.1 hopen
      case publish => exact absurd hknows.1 hopen
      case queryProcess => exact Option.some_ne_none _
      case clearExisting => exact absurd hunsettled (by simp [settled])
      case clearLaunch => exact absurd hunsettled (by simp [settled])
      case clear => exact absurd hunsettled (by simp [settled])
      all_goals exact fun h => absurd h (by simp)
  · have hknows := inv.knows
    refine
      { active := inv.active
        oneShot := inv.oneShot
        pid := inv.pid
        signal := inv.signal
        sound := inv.sound
        starting := fun pid hpid => List.mem_append_left _ (inv.starting pid hpid)
        knows := ?_ }
    cases hpc : s.pc <;> rw [hpc] at hknows
    case idle =>
      exact ⟨hknows.1, fun pid hpid hout =>
        hknows.2 pid hpid fun hmem => hout (List.mem_append_left _ hmem)⟩
    all_goals exact hknows

/-- Changes of PM that do not touch the hook, and the mark of a started process. -/
theorem others (inv : WaitInv s) {event : WaitEvent} (hevent : match event with
    | .exit _ => True
    | .startProcess _ => True
    | .markStarted => True
    | _ => False) : WaitInv (s.step event) := by
  have hknows := inv.knows
  cases event with
  | exit pid =>
    unfold WaitSystem.step
    simp only
    split_ifs
    · refine ⟨inv.active, inv.oneShot, inv.pid, inv.signal, inv.sound, inv.starting, ?_⟩
      cases hpc : s.pc <;> rw [hpc] at hknows <;> exact hknows
    · exact inv
  | startProcess pid =>
    unfold WaitSystem.step
    simp only
    split_ifs
    · refine ⟨inv.active, inv.oneShot, inv.pid, inv.signal, inv.sound, ?_, ?_⟩
      · intro pid' hpid'
        exact List.mem_append_right _ (by simpa using hpid'.symm)
      · cases hpc : s.pc <;> rw [hpc] at hknows
        case idle =>
          exact ⟨hknows.1, fun pid hpid hout =>
            hknows.2 pid hpid fun hmem => hout (List.mem_append_left _ hmem)⟩
        all_goals exact hknows
    · exact inv
  | markStarted =>
    unfold WaitSystem.step
    simp only
    split
    · rename_i pid hstarting
      have hstarted := inv.starting pid hstarting
      unfold debugWaitMarkStarted
      split_ifs with hmark
      · refine ⟨inv.active, inv.oneShot, inv.pid, inv.signal, by simp, by simp, ?_⟩
        cases hpc : s.pc <;> rw [hpc] at hknows
        case idle =>
          refine ⟨hknows.1, fun pid' hpid' hout => ?_⟩
          -- the reported process is the one that has been started
          have hreported := (hknows.2 pid' hpid' hout).2.2
          rw [hmark.1] at hreported
          rw [← hreported] at hout
          exact absurd hstarted hout
        all_goals exact hknows
      · refine ⟨inv.active, inv.oneShot, inv.pid, inv.signal, inv.sound, by simp, ?_⟩
        cases hpc : s.pc <;> rw [hpc] at hknows <;> exact hknows
    · exact inv
  | _ => exact absurd hevent id

theorem step (s : WaitSystem) (event : WaitEvent) (inv : WaitInv s)
    (htime : s.ParksInTime event) : WaitInv (s.step event) := by
  cases event with
  | startWait application titleId timeoutMs =>
    unfold WaitSystem.step
    cases hpc : s.pc <;> first
      | exact inv
      | exact inv.startWait hpc application titleId timeoutMs
  | step answers => exact inv.advance htime
  | create process => exact inv.create htime
  | exit pid => exact inv.others trivial
  | startProcess pid => exact inv.others trivial
  | markStarted => exact inv.others trivial

end WaitInv

end WaitSystem

/-! ## Parked processes -/

/-- In every run in which no process is parked after another outcome is settled and no other
    outcome is settled after a process is parked, every wait that is over reports the process its
    hook has parked, and reports no other. -/
theorem debug_wait_reports_parked (events : List WaitEvent)
    (htime : Runs.EachStep WaitSystem.step WaitSystem.ParksInTime WaitSystem.initial events) :
    Runs.Always WaitSystem.step WaitSystem.ReportsParked WaitSystem.initial events := by
  intro before hprefix
  have heach : Runs.EachStep WaitSystem.step WaitSystem.ParksInTime WaitSystem.initial before :=
    fun p a hp => htime p a (hp.trans hprefix)
  exact (Runs.invariant_of_eachStep WaitSystem.WaitInv.step WaitSystem.WaitInv.initial
    heach).reports

/-- A wait for title 1 whose process 7 is created while the worker waits. -/
theorem debug_wait_reports_parked_in_time :
    Runs.Always WaitSystem.step WaitSystem.ReportsParked WaitSystem.initial
      [.startWait false 1 1000, .step ⟨0, none⟩, .step ⟨1, none⟩, .step ⟨0, none⟩,
        .step ⟨0, none⟩, .create ⟨7, 1, false⟩, .step ⟨0, none⟩, .step ⟨0, some 7⟩,
        .step ⟨0, none⟩, .step ⟨0, none⟩] := by
  apply debug_wait_reports_parked
  simp only [Runs.eachStep_cons]
  exact ⟨trivial, trivial, fun _ => rfl, trivial, fun _ => rfl, fun _ _ _ => rfl, trivial,
    Or.inl rfl, trivial, trivial, Runs.eachStep_nil⟩

/-- The process is created between the registration of the hook and the query for an existing
    process: it is parked, and the wait reports that it exists. -/
theorem parked_process_reported_as_existing :
    ¬ WaitSystem.ReportsParked (Runs.run WaitSystem.step WaitSystem.initial
      [.startWait false 1 1000, .step ⟨0, none⟩, .create ⟨7, 1, false⟩, .step ⟨0, some 7⟩,
        .step ⟨0, none⟩, .step ⟨0, none⟩]) := by
  intro hreports
  have hstate := (hreports.noticed (by decide) 7 (by decide) (by decide)).1
  exact absurd hstate (by decide)

end SysAgent
