import SysAgent.Freeze.Table
import SysAgent.Search.Sessions

set_option autoImplicit false

/-! # Freezes and snapshots (`main.c`)

Three threads: the main loop, which dispatches commands while it holds `freezeMutex`, the worker of the
searches, and `sub_freeze`, which writes the frozen values. `sub_freeze` looks at the unknown search
without the lock, takes it, looks again and writes. The ghost `disturbed` is set by a write in a state
in which the unknown search is queued or running.

What a pass finds (whether the process opens, its title and heap, which blocks match) is the
environment's. -/

namespace SysAgent

inductive FreezeThreadState
  | idle
  | pause
  | active
  | exit
  deriving DecidableEq

inductive FreezeMutexHolder
  | mainLoop
  | subFreeze
  deriving DecidableEq

/-- Where `sub_freeze` is, by the next thing it does. -/
inductive SubFreezePc
  | idleLoop
  | top
  | check
  | readIdle
  | readPause
  | idleLock
  | lock
  | recheck
  | openProcess
  | metadata
  | write (index : Nat)
  | unlock
  | exited
  deriving DecidableEq

structure FreezeSystem where
  search : SearchSystem
  freezeMutex : Option FreezeMutexHolder
  pc : SubFreezePc
  freeze_thr_state : FreezeThreadState
  /-- The frozen blocks of the table. -/
  blocks : Nat
  /-- `freezecount` and `wait_su` of `sub_freeze`. -/
  freezecount : Nat
  wait_su : Bool
  disturbed : Bool

/-- What a pass of `sub_freeze` finds. -/
structure FreezePass where
  opened : Bool
  title : Bool
  heap : Bool
  matching : Bool

inductive FreezeSystemStep
  | mainLock
  | mainCommand (command : SearchCommand)
  | mainAdvance (fails : Bool)
  /-- A command that freezes, unfreezes or clears. -/
  | mainFreezes (blocks : Nat)
  /-- A command that pauses, unpauses or clears; only the end of `main` asks for the exit. -/
  | mainThreadState (state : FreezeThreadState)
  | mainUnlock
  | searchWorker (memory : Bool) (outcome : ScanOutcome)
  | subFreeze (pass : FreezePass)

namespace FreezeSystem

def initial (threadCreated threadStarted storageAvailable : Bool) : FreezeSystem where
  search := SearchSystem.initial threadCreated threadStarted storageAvailable
  freezeMutex := none
  pc := .idleLoop
  freeze_thr_state := .active
  blocks := 0
  freezecount := 0
  wait_su := false
  disturbed := false

/-- `searchMemoryAccessBlocked`. -/
def searchMemoryAccessBlocked (s : FreezeSystem) : Bool := s.search.unknown.state.isActive

def goto (pc : SubFreezePc) (s : FreezeSystem) : FreezeSystem := { s with pc := pc }

/-- The lock is given back, and the next pass begins. -/
def release (s : FreezeSystem) : FreezeSystem := { s with freezeMutex := none, pc := .top }

/-- The write of one block: `processMemoryWrite`. -/
def writeBlock (s : FreezeSystem) : FreezeSystem :=
  { s with disturbed := s.disturbed || s.searchMemoryAccessBlocked }

def subFreeze (pass : FreezePass) (s : FreezeSystem) : FreezeSystem :=
  match s.pc with
  | .idleLoop =>
    if s.freezecount ≠ 0 then s.goto .top
    else if s.freeze_thr_state = .exit then s.goto .top
    else { s with freezecount := s.blocks }
  | .top => if s.freeze_thr_state = .exit then s.goto .exited else s.goto .check
  | .check => if s.searchMemoryAccessBlocked then s.goto .top else s.goto .readIdle
  | .readIdle => if s.freeze_thr_state = .idle then s.goto .idleLock else s.goto .readPause
  | .readPause => if s.freeze_thr_state = .pause then s.goto .top else s.goto .lock
  | .idleLock =>
    if s.freezeMutex ≠ none then s
    else
      { s with freeze_thr_state := .active, freezecount := 0, wait_su := false, pc := .idleLoop }
  | .lock =>
    if s.freezeMutex ≠ none then s
    else { s with freezeMutex := some .subFreeze, pc := .recheck }
  | .recheck => if s.searchMemoryAccessBlocked then s.release else s.goto .openProcess
  | .openProcess => if pass.opened then s.goto .metadata else s.release
  | .metadata =>
    -- not on the start of a title, and not on the pass after it
    if pass.title = false then { s.release with wait_su := true }
    else if s.wait_su then { s.release with wait_su := false }
    else if pass.heap then s.goto (.write 0)
    else s.goto .unlock
  | .write index =>
    if index < FREEZE_DIC_LENGTH then
      (if pass.matching then s.writeBlock else s).goto (.write (index + 1))
    else s.goto .unlock
  | .unlock => s.release
  | .exited => s

/-- The end of a round of the main loop. -/
def mainUnlock (s : FreezeSystem) : FreezeSystem :=
  { s with
    freeze_thr_state := if s.blocks = 0 then .idle else s.freeze_thr_state
    freezeMutex := none }

/-- The main loop acts while it holds the lock; it gives it back between two commands. -/
def step (s : FreezeSystem) : FreezeSystemStep → FreezeSystem
  | .mainLock => if s.freezeMutex = none then { s with freezeMutex := some .mainLoop } else s
  | .mainCommand command =>
    if s.freezeMutex = some .mainLoop then
      { s with search := s.search.step (.command command) }
    else s
  | .mainAdvance fails =>
    if s.freezeMutex = some .mainLoop then { s with search := s.search.step (.advance fails) }
    else s
  | .mainFreezes blocks =>
    if s.freezeMutex = some .mainLoop then { s with blocks := blocks } else s
  | .mainThreadState state =>
    if s.freezeMutex = some .mainLoop ∧ state ≠ .exit then { s with freeze_thr_state := state }
    else s
  | .mainUnlock =>
    if s.freezeMutex = some .mainLoop ∧ s.search.command = .idle then s.mainUnlock else s
  | .searchWorker memory outcome =>
    { s with search := s.search.step (.worker memory outcome) }
  | .subFreeze pass => s.subFreeze pass

/-! ## The worker of the searches queues nothing -/

/-- The end the worker has to write is the end of a job. -/
def EndsInactive (search : SearchSystem) : Prop :=
  match search.worker with
  | .unknownFinishing state _ _ => state.isActive = false
  | _ => True

theorem endsInactive_of_worker {search search' : SearchSystem}
    (hworker : search'.worker = search.worker) (h : EndsInactive search) :
    EndsInactive search' := by
  unfold EndsInactive at h ⊢
  rw [hworker]
  exact h

theorem worker_startCommand (search : SearchSystem) (command : SearchCommand) :
    (search.startCommand command).worker = search.worker := by
  unfold SearchSystem.startCommand SearchSystem.searchCancel SearchSystem.searchClose
    SearchSystem.unknownSearchCancel SearchSystem.unknownSearchClose
  cases command <;> simp only <;> split_ifs <;> rfl

theorem worker_advanceCommand (search : SearchSystem) (fails : Bool) :
    (search.advanceCommand fails).worker = search.worker := by
  unfold SearchSystem.advanceCommand
  cases search.command <;> simp only <;> split_ifs <;> rfl

theorem endsInactive_workerStep (search : SearchSystem) (memory : Bool) (outcome : ScanOutcome)
    (h : EndsInactive search) : EndsInactive (search.workerStep memory outcome) := by
  unfold SearchSystem.workerStep
  cases hpc : search.worker with
  | unknownRunning refining =>
    exact SearchSystem.SearchInv.isActive_endOf search.unknown.cancelRequested outcome
  | look => simp only; split_ifs <;> trivial
  | exactTaken => simp only; split_ifs <;> trivial
  | exactRunning => simp only; split_ifs <;> trivial
  | exactFinishing state => simp only; split_ifs <;> trivial
  | unknownLook => simp only; split_ifs <;> trivial
  | unknownFinishing state committed resumable => trivial

/-- A step of the worker does not make the unknown search active. -/
theorem workerStep_inactive (search : SearchSystem) (memory : Bool) (outcome : ScanOutcome)
    (h : EndsInactive search) (hinactive : search.unknown.state.isActive = false) :
    (search.workerStep memory outcome).unknown.state.isActive = false := by
  unfold SearchSystem.workerStep
  unfold EndsInactive at h
  cases hpc : search.worker with
  | unknownLook =>
    simp only
    split
    case isTrue hqueued =>
      rw [hqueued] at hinactive
      cases hinactive
    case isFalse => exact hinactive
  | unknownFinishing state committed resumable =>
    rw [hpc] at h
    exact h
  | look => simp only; split_ifs <;> exact hinactive
  | exactTaken => simp only; split_ifs <;> exact hinactive
  | exactRunning => simp only; split_ifs <;> exact hinactive
  | exactFinishing state => simp only; split_ifs <;> exact hinactive
  | unknownRunning refining => exact hinactive

/-! ## The invariant -/

/-- `sub_freeze` holds the lock from its second look to the end of the pass, and from after that look
    the unknown search is not active. -/
def SubFreezeHolds (s : FreezeSystem) : Prop :=
  match s.pc with
  | .recheck => s.freezeMutex = some .subFreeze
  | .openProcess => s.freezeMutex = some .subFreeze ∧ s.searchMemoryAccessBlocked = false
  | .metadata => s.freezeMutex = some .subFreeze ∧ s.searchMemoryAccessBlocked = false
  | .write _ => s.freezeMutex = some .subFreeze ∧ s.searchMemoryAccessBlocked = false
  | .unlock => s.freezeMutex = some .subFreeze
  | _ => True

structure SnapshotInv (s : FreezeSystem) : Prop where
  undisturbed : s.disturbed = false
  ends : EndsInactive s.search
  holds : s.SubFreezeHolds

theorem snapshotInv_initial (threadCreated threadStarted storageAvailable : Bool) :
    (initial threadCreated threadStarted storageAvailable).SnapshotInv :=
  ⟨rfl, trivial, trivial⟩

variable {s : FreezeSystem}

namespace SnapshotInv

/-- What the main loop does under the lock is not seen by a `sub_freeze` that holds it. -/
theorem ofMainLoop {s' : FreezeSystem} (h : s.SnapshotInv)
    (hmutex : s.freezeMutex = some .mainLoop ∨ s.freezeMutex = none)
    (hdisturbed : s'.disturbed = s.disturbed) (hends : EndsInactive s'.search)
    (hpc : s'.pc = s.pc) : s'.SnapshotInv := by
  refine ⟨hdisturbed.trans h.undisturbed, hends, ?_⟩
  have hnot : s.freezeMutex ≠ some .subFreeze := by
    rcases hmutex with hmutex | hmutex <;> simp [hmutex]
  have hholds := h.holds
  unfold SubFreezeHolds at hholds ⊢
  rw [hpc]
  cases hat : s.pc <;> simp_all

theorem goto {pc : SubFreezePc} (h : s.SnapshotInv) (hholds : (s.goto pc).SubFreezeHolds) :
    (s.goto pc).SnapshotInv :=
  ⟨h.undisturbed, h.ends, hholds⟩

theorem release (h : s.SnapshotInv) : s.release.SnapshotInv :=
  ⟨h.undisturbed, h.ends, trivial⟩

/-- A write where the unknown search is not active. -/
theorem writeBlock (h : s.SnapshotInv) (hfree : s.searchMemoryAccessBlocked = false) :
    s.writeBlock.SnapshotInv := by
  refine ⟨?_, h.ends, h.holds⟩
  change (s.disturbed || s.searchMemoryAccessBlocked) = false
  rw [h.undisturbed, hfree]
  rfl

/-- A step of `sub_freeze`. -/
theorem subFreeze (h : s.SnapshotInv) (pass : FreezePass) : (s.subFreeze pass).SnapshotInv := by
  have hholds := h.holds
  unfold SubFreezeHolds at hholds
  unfold FreezeSystem.subFreeze
  cases hpc : s.pc with
  | idleLoop =>
    simp only
    split_ifs
    · exact h.goto trivial
    · exact h.goto trivial
    · exact ⟨h.undisturbed, h.ends, by simp [SubFreezeHolds]⟩
  | top =>
    simp only
    split_ifs
    · exact h.goto trivial
    · exact h.goto trivial
  | check =>
    simp only
    split_ifs
    · exact h.goto trivial
    · exact h.goto trivial
  | readIdle =>
    simp only
    split_ifs
    · exact h.goto trivial
    · exact h.goto trivial
  | readPause =>
    simp only
    split_ifs
    · exact h.goto trivial
    · exact h.goto trivial
  | idleLock =>
    simp only
    split_ifs
    · exact h
    · exact ⟨h.undisturbed, h.ends, trivial⟩
  | lock =>
    simp only
    split_ifs
    · exact h
    · exact ⟨h.undisturbed, h.ends, rfl⟩
  | recheck =>
    rw [hpc] at hholds
    simp only
    split_ifs with hblocked
    · exact h.release
    · exact h.goto ⟨hholds, (Bool.not_eq_true _).mp hblocked⟩
  | openProcess =>
    rw [hpc] at hholds
    simp only
    split_ifs
    · exact h.goto hholds
    · exact h.release
  | metadata =>
    rw [hpc] at hholds
    simp only
    split_ifs
    · exact ⟨h.undisturbed, h.ends, trivial⟩
    · exact ⟨h.undisturbed, h.ends, trivial⟩
    · exact h.goto hholds
    · exact h.goto hholds.1
  | write index =>
    rw [hpc] at hholds
    simp only
    split_ifs
    · exact (h.writeBlock hholds.2).goto hholds
    · exact h.goto hholds
    · exact h.goto hholds.1
  | unlock => exact h.release
  | exited => exact h

/-- A step of the worker keeps the unknown search not active under a `sub_freeze` that relies on
    it. -/
theorem searchWorker (h : s.SnapshotInv) (memory : Bool) (outcome : ScanOutcome) :
    SnapshotInv { s with search := s.search.workerStep memory outcome } := by
  refine ⟨h.undisturbed, endsInactive_workerStep s.search memory outcome h.ends, ?_⟩
  have hkept : s.searchMemoryAccessBlocked = false →
      (s.search.workerStep memory outcome).unknown.state.isActive = false :=
    workerStep_inactive s.search memory outcome h.ends
  have hholds := h.holds
  unfold SubFreezeHolds at hholds ⊢
  cases hpc : s.pc with
  | openProcess =>
    rw [hpc] at hholds
    exact ⟨hholds.1, hkept hholds.2⟩
  | metadata =>
    rw [hpc] at hholds
    exact ⟨hholds.1, hkept hholds.2⟩
  | write index =>
    rw [hpc] at hholds
    exact ⟨hholds.1, hkept hholds.2⟩
  | recheck =>
    rw [hpc] at hholds
    exact hholds
  | unlock =>
    rw [hpc] at hholds
    exact hholds
  | _ => trivial

theorem step (h : s.SnapshotInv) (a : FreezeSystemStep) : (s.step a).SnapshotInv := by
  unfold FreezeSystem.step
  cases a with
  | mainLock =>
    simp only
    split
    case isTrue hfree => exact h.ofMainLoop (.inr hfree) rfl h.ends rfl
    case isFalse => exact h
  | mainCommand command =>
    simp only
    split
    case isTrue hmain =>
      refine h.ofMainLoop (.inl hmain) rfl ?_ rfl
      refine endsInactive_of_worker ?_ h.ends
      unfold SearchSystem.step
      simp only
      split
      · exact worker_startCommand s.search command
      · rfl
    case isFalse => exact h
  | mainAdvance fails =>
    simp only
    split
    case isTrue hmain =>
      exact h.ofMainLoop (.inl hmain) rfl
        (endsInactive_of_worker (worker_advanceCommand s.search fails) h.ends) rfl
    case isFalse => exact h
  | mainFreezes blocks =>
    simp only
    split
    case isTrue hmain => exact h.ofMainLoop (.inl hmain) rfl h.ends rfl
    case isFalse => exact h
  | mainThreadState state =>
    simp only
    split
    case isTrue hmain => exact h.ofMainLoop (.inl hmain.1) rfl h.ends rfl
    case isFalse => exact h
  | mainUnlock =>
    simp only
    split
    case isTrue hmain => exact h.ofMainLoop (.inl hmain.1) rfl h.ends rfl
    case isFalse => exact h
  | searchWorker memory outcome => exact h.searchWorker memory outcome
  | subFreeze pass => exact h.subFreeze pass

end SnapshotInv

/-- In every run of the three threads no freeze is written while the unknown search is queued or
    running. -/
theorem freezes_never_disturb_snapshot (threadCreated threadStarted storageAvailable : Bool)
    (steps : List FreezeSystemStep) :
    Runs.Always step (fun s => s.disturbed = false)
      (initial threadCreated threadStarted storageAvailable) steps := by
  intro before _
  have hinv : (Runs.run step (initial threadCreated threadStarted storageAvailable)
      before).SnapshotInv :=
    Runs.invariant_run (fun _ a h => h.step a) before
      (snapshotInv_initial threadCreated threadStarted storageAvailable)
  exact hinv.undisturbed

end FreezeSystem

end SysAgent
