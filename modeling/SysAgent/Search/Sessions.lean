import Mathlib.Data.UInt
import SysAgent.Lib.Runs

set_option autoImplicit false

/-! # The two search managers (`search.c`, `unknown_search.c`)

An exact search and an unknown search have a manager each, with a lock each; one worker thread runs the
jobs of both. Commands run one at a time on the command thread, each a sequence of critical sections;
the worker's steps come anywhere in between, but not inside a section whose lock they need. The model
keeps what the managers decide by: the states, the session ids and the flags. What a scan reads and
finds, and what a command does before its first lock, is the environment's.

The ghosts: `queued` and `finished` are the jobs queued and the jobs whose end has been written,
`running` is the job the worker has taken, and `misdirected` is set when an end is written for another
job than that. -/

namespace SysAgent

/-- `SearchState` of the source. -/
inductive SearchPhase
  | idle
  | queued
  | running
  | done
  | cancelled
  | error
  deriving DecidableEq

def SearchPhase.isActive : SearchPhase → Bool
  | .queued => true
  | .running => true
  | _ => false

@[simp] theorem SearchPhase.isActive_idle : SearchPhase.isActive .idle = false := rfl

@[simp] theorem SearchPhase.isActive_done : SearchPhase.isActive .done = false := rfl

@[simp] theorem SearchPhase.isActive_queued : SearchPhase.isActive .queued = true := rfl

@[simp] theorem SearchPhase.isActive_running : SearchPhase.isActive .running = true := rfl

inductive SearchKind
  | exact
  | unknown
  deriving DecidableEq

structure SearchJob where
  kind : SearchKind
  sessionId : UInt64
  deriving DecidableEq

/-- `manager` of `search.c`. -/
structure ExactManager where
  threadStarted : Bool
  cancelRequested : Bool
  nextSessionId : UInt64
  sessionId : UInt64
  state : SearchPhase
  deriving DecidableEq

/-- `unknownManager`; `refining` says that the operation is not the begin. -/
structure UnknownManager where
  storageAvailable : Bool
  cancelRequested : Bool
  nextSessionId : UInt64
  sessionId : UInt64
  state : SearchPhase
  refining : Bool
  committed : Bool
  resumable : Bool
  deriving DecidableEq

/-- Where the command thread is. In `startQueue` it holds the lock of the exact manager. -/
inductive SearchCommandPc
  | idle
  | startQueue
  | beginOther
  | beginCheck
  | beginCommit
  | refineCommit (sessionId : UInt64)
  deriving DecidableEq

/-- Where the worker is: `taken` has seen the exact search queued, `finishing` has an end to write. -/
inductive SearchWorkerPc
  | look
  | exactTaken
  | exactRunning
  | exactFinishing (state : SearchPhase)
  | unknownLook
  | unknownRunning (refining : Bool)
  | unknownFinishing (state : SearchPhase) (committed resumable : Bool)
  deriving DecidableEq

structure SearchSystem where
  exact : ExactManager
  unknown : UnknownManager
  command : SearchCommandPc
  worker : SearchWorkerPc
  queued : List SearchJob
  finished : List SearchJob
  running : Option SearchJob
  misdirected : Bool
  deriving DecidableEq

/-- A start or a begin may be refused for its arguments or its process before it takes a lock. -/
inductive SearchCommand
  | start (refused : Bool)
  | beginUnknown
  | refine (sessionId : UInt64)
  | cancel (sessionId : UInt64)
  | close (sessionId : UInt64)
  deriving DecidableEq

/-- How a scan ends, apart from a cancellation; a failure of an unknown search may leave its session
    one that cannot be refined. -/
inductive ScanOutcome
  | completed
  | failed (resumable : Bool)
  deriving DecidableEq

inductive SearchStep
  | command (command : SearchCommand)
  /-- The command thread goes on; `fails` is the answer of the checks outside the managers. -/
  | advance (fails : Bool)
  | worker (memory : Bool) (outcome : ScanOutcome)
  deriving DecidableEq

namespace SearchSystem

/-- After `searchInitialize`. -/
def initial (threadCreated threadStarted storageAvailable : Bool) : SearchSystem where
  exact :=
    { threadStarted := threadCreated && threadStarted
      cancelRequested := false
      nextSessionId := 1
      sessionId := 0
      state := if threadCreated then .idle else .error }
  unknown :=
    { storageAvailable := storageAvailable
      cancelRequested := false
      nextSessionId := 0x8000000000000001
      sessionId := 0
      state := .idle
      refining := false
      committed := false
      resumable := false }
  command := .idle
  worker := .look
  queued := []
  finished := []
  running := none
  misdirected := false

/-- The jobs that are queued or running. -/
def activeJobs (s : SearchSystem) : List SearchJob :=
  (if s.exact.state.isActive then [⟨.exact, s.exact.sessionId⟩] else []) ++
    if s.unknown.state.isActive then [⟨.unknown, s.unknown.sessionId⟩] else []

/-! ## The command thread -/

def goto (pc : SearchCommandPc) (s : SearchSystem) : SearchSystem := { s with command := pc }

/-- The session id an exact search leaves for the next: 0 is skipped. -/
def nextExactId (id : UInt64) : UInt64 := if id + 1 = 0 then 1 else id + 1

/-- The end of `queueSearch`. -/
def queueExact (s : SearchSystem) : SearchSystem :=
  { s with
    exact := { s.exact with
      cancelRequested := false
      nextSessionId := nextExactId s.exact.nextSessionId
      sessionId := s.exact.nextSessionId
      state := .queued }
    command := .idle
    queued := s.queued ++ [⟨.exact, s.exact.nextSessionId⟩] }

/-- The end of `unknownSearchBegin`. -/
def queueBegin (s : SearchSystem) : SearchSystem :=
  { s with
    unknown := { s.unknown with
      cancelRequested := false
      nextSessionId := s.unknown.nextSessionId + 1
      sessionId := s.unknown.nextSessionId
      state := .queued
      refining := false
      committed := false
      resumable := false }
    command := .idle
    queued := s.queued ++ [⟨.unknown, s.unknown.nextSessionId⟩] }

/-- The end of `unknownSearchRefine`. -/
def queueRefine (s : SearchSystem) : SearchSystem :=
  { s with
    unknown := { s.unknown with cancelRequested := false, state := .queued, refining := true }
    command := .idle
    queued := s.queued ++ [⟨.unknown, s.unknown.sessionId⟩] }

/-- The high bit of an id names the manager. -/
def isUnknownId (sessionId : UInt64) : Bool := sessionId &&& 0x8000000000000000 != 0

def unknownSearchCancel (sessionId : UInt64) (s : SearchSystem) : SearchSystem :=
  if sessionId ≠ 0 ∧ s.unknown.sessionId = sessionId ∧ s.unknown.state.isActive then
    { s with unknown := { s.unknown with cancelRequested := true } }
  else s

def searchCancel (sessionId : UInt64) (s : SearchSystem) : SearchSystem :=
  if isUnknownId sessionId then s.unknownSearchCancel sessionId
  else if sessionId ≠ 0 ∧ s.exact.sessionId = sessionId ∧ s.exact.state.isActive then
    { s with exact := { s.exact with cancelRequested := true } }
  else s

def unknownSearchClose (sessionId : UInt64) (s : SearchSystem) : SearchSystem :=
  if (sessionId ≠ 0 ∧ s.unknown.sessionId = sessionId) ∧ ¬ s.unknown.state.isActive then
    { s with unknown := { s.unknown with
        sessionId := 0
        state := .idle
        refining := false
        committed := false
        resumable := false } }
  else s

def searchClose (sessionId : UInt64) (s : SearchSystem) : SearchSystem :=
  if isUnknownId sessionId then s.unknownSearchClose sessionId
  else if (sessionId ≠ 0 ∧ s.exact.sessionId = sessionId) ∧ ¬ s.exact.state.isActive then
    { s with exact := { s.exact with sessionId := 0, state := .idle } }
  else s

/-- The first critical section of a command. -/
def startCommand (command : SearchCommand) (s : SearchSystem) : SearchSystem :=
  match command with
  | .start refused =>
    -- `queueSearch` keeps the lock while it asks the other manager
    if refused ∨ s.exact.threadStarted = false ∨ s.unknown.sessionId ≠ 0 then s
    else s.goto .startQueue
  | .beginUnknown => if s.exact.state.isActive then s else s.goto .beginOther
  | .refine sessionId =>
    if s.unknown.sessionId ≠ sessionId ∨ s.unknown.committed = false ∨
        s.unknown.resumable = false then s
    else if s.unknown.state.isActive then s
    else s.goto (.refineCommit sessionId)
  | .cancel sessionId => s.searchCancel sessionId
  | .close sessionId => s.searchClose sessionId

/-- The next critical section of a command that has more than one. -/
def advanceCommand (fails : Bool) (s : SearchSystem) : SearchSystem :=
  match s.command with
  | .idle => s
  | .startQueue => if s.exact.state.isActive ∨ fails then s.goto .idle else s.queueExact
  | .beginOther => if s.unknown.state.isActive ∨ fails then s.goto .idle else s.goto .beginCheck
  | .beginCheck =>
    if s.unknown.storageAvailable = false ∨ s.unknown.sessionId ≠ 0 then s.goto .idle
    else s.goto .beginCommit
  | .beginCommit => if fails ∨ s.unknown.sessionId ≠ 0 then s.goto .idle else s.queueBegin
  | .refineCommit sessionId =>
    if fails ∨ s.unknown.sessionId ≠ sessionId ∨ s.unknown.state.isActive then s.goto .idle
    else s.queueRefine

/-! ## The worker -/

/-- The worker takes a job. -/
def take (job : SearchJob) (pc : SearchWorkerPc) (s : SearchSystem) : SearchSystem :=
  { s with worker := pc, running := some job }

/-- The worker writes the end of a job. -/
def writeEnd (job : SearchJob) (s : SearchSystem) : SearchSystem :=
  { s with
    worker := .look
    finished := s.finished ++ [job]
    running := none
    misdirected := s.misdirected || s.running != some job }

def finishSearch (state : SearchPhase) (s : SearchSystem) : SearchSystem :=
  { s.writeEnd ⟨.exact, s.exact.sessionId⟩ with exact := { s.exact with state := state } }

/-- `finish` of the unknown search. -/
def finish (state : SearchPhase) (committed resumable : Bool) (s : SearchSystem) : SearchSystem :=
  { s.writeEnd ⟨.unknown, s.unknown.sessionId⟩ with
    unknown := { s.unknown with
      state := state, committed := committed, resumable := committed && resumable } }

def withExactState (state : SearchPhase) (s : SearchSystem) : SearchSystem :=
  { s with exact := { s.exact with state := state } }

def withUnknownState (state : SearchPhase) (s : SearchSystem) : SearchSystem :=
  { s with unknown := { s.unknown with state := state } }

/-- The end of a scan: a cancellation goes before a failure. -/
def endOf (cancelled : Bool) : ScanOutcome → SearchPhase
  | .completed => if cancelled then .cancelled else .done
  | .failed _ => if cancelled then .cancelled else .error

/-- What `runBegin` and `runRefine` pass to `finish`: a refine leaves the committed file. -/
def unknownEnd (refining cancelled : Bool) (outcome : ScanOutcome) : SearchWorkerPc :=
  .unknownFinishing (endOf cancelled outcome)
    (refining || (!cancelled && outcome = .completed))
    (cancelled || match outcome with
      | .completed => true
      | .failed resumable => resumable)

/-- A step of the worker thread, which waits for the lock of the exact manager. -/
def workerStep (memory : Bool) (outcome : ScanOutcome) (s : SearchSystem) : SearchSystem :=
  match s.worker with
  | .look =>
    if s.exact.threadStarted = false ∨ s.command = .startQueue then s
    else if s.exact.state = .queued then s.take ⟨.exact, s.exact.sessionId⟩ .exactTaken
    else { s with worker := .unknownLook }
  | .exactTaken =>
    -- without memory the search ends before it has run
    if memory = false then { s with worker := .exactFinishing .error }
    else if s.command = .startQueue then s
    else { s.withExactState .running with worker := .exactRunning }
  | .exactRunning =>
    if s.command = .startQueue then s
    else { s with worker := .exactFinishing (endOf s.exact.cancelRequested outcome) }
  | .exactFinishing state => if s.command = .startQueue then s else s.finishSearch state
  | .unknownLook =>
    if s.unknown.state = .queued then
      (s.withUnknownState .running).take ⟨.unknown, s.unknown.sessionId⟩
        (.unknownRunning s.unknown.refining)
    else { s with worker := .look }
  | .unknownRunning refining =>
    { s with worker := unknownEnd refining s.unknown.cancelRequested outcome }
  | .unknownFinishing state committed resumable => s.finish state committed resumable

def step (s : SearchSystem) : SearchStep → SearchSystem
  | .command command => if s.command = .idle then s.startCommand command else s
  | .advance fails => s.advanceCommand fails
  | .worker memory outcome => s.workerStep memory outcome

/-! ## The law -/

/-- No exact job is active while an unknown session exists, at most one job is active, and the jobs
    queued are those that have ended, each once, and the active one. -/
structure Exclusive (s : SearchSystem) : Prop where
  apart : s.exact.state.isActive = true → s.unknown.sessionId = 0
  one : s.activeJobs.length ≤ 1
  once : s.queued = s.finished ++ s.activeJobs
  directed : s.misdirected = false

instance (s : SearchSystem) : Decidable s.Exclusive :=
  decidable_of_iff
    ((s.exact.state.isActive = true → s.unknown.sessionId = 0) ∧ s.activeJobs.length ≤ 1 ∧
      s.queued = s.finished ++ s.activeJobs ∧ s.misdirected = false)
    ⟨fun ⟨hapart, hone, honce, hdirected⟩ => ⟨hapart, hone, honce, hdirected⟩,
      fun ⟨hapart, hone, honce, hdirected⟩ => ⟨hapart, hone, honce, hdirected⟩⟩

/-- The session id that a step of the command thread names. -/
def named (s : SearchSystem) : SearchStep → Option UInt64
  | .command (.refine sessionId) => some sessionId
  | .command (.cancel sessionId) => some sessionId
  | .command (.close sessionId) => some sessionId
  | .advance _ =>
    match s.command with
    | .refineCommit sessionId => some sessionId
    | _ => none
  | _ => none

/-- A step that names a session changes no manager of which that is not the live session. -/
def NamesLive (s : SearchSystem) (a : SearchStep) : Prop :=
  ∀ sessionId, s.named a = some sessionId →
    (sessionId = 0 ∨ sessionId ≠ s.exact.sessionId → (s.step a).exact = s.exact) ∧
      (sessionId = 0 ∨ sessionId ≠ s.unknown.sessionId → (s.step a).unknown = s.unknown)

/-- No unknown search is begun under the id 0, where the counter of the ids has wrapped. -/
def Careful (s : SearchSystem) : SearchStep → Prop
  | .advance fails =>
    s.command = .beginCommit → fails = false → s.unknown.sessionId = 0 →
      s.unknown.nextSessionId ≠ 0
  | _ => True

/-! ## The invariant -/

/-- What the command thread has seen and still holds. -/
def CommandHolds (s : SearchSystem) : Prop :=
  match s.command with
  | .idle => True
  | .startQueue => s.unknown.sessionId = 0
  | .beginOther => s.exact.state.isActive = false
  | .beginCheck => s.exact.state.isActive = false
  | .beginCommit => s.exact.state.isActive = false
  | .refineCommit sessionId => s.unknown.sessionId = sessionId ∧ sessionId ≠ 0

/-- The job the worker has taken is active until its end is written. -/
def WorkerHolds (s : SearchSystem) : Prop :=
  match s.worker with
  | .look => s.running = none
  | .unknownLook => s.running = none
  | .exactTaken =>
    s.exact.state.isActive = true ∧ s.running = some ⟨.exact, s.exact.sessionId⟩
  | .exactRunning =>
    s.exact.state.isActive = true ∧ s.running = some ⟨.exact, s.exact.sessionId⟩
  | .exactFinishing state =>
    (s.exact.state.isActive = true ∧ s.running = some ⟨.exact, s.exact.sessionId⟩) ∧
      state.isActive = false
  | .unknownRunning _ =>
    s.unknown.state.isActive = true ∧ s.running = some ⟨.unknown, s.unknown.sessionId⟩
  | .unknownFinishing state _ _ =>
    (s.unknown.state.isActive = true ∧ s.running = some ⟨.unknown, s.unknown.sessionId⟩) ∧
      state.isActive = false

structure SearchInv (s : SearchSystem) : Prop where
  law : s.Exclusive
  active : s.unknown.state.isActive = true → s.unknown.sessionId ≠ 0
  committed : s.unknown.committed = true → s.unknown.sessionId ≠ 0
  command : s.CommandHolds
  worker : s.WorkerHolds

theorem searchInv_initial (threadCreated threadStarted storageAvailable : Bool) :
    (initial threadCreated threadStarted storageAvailable).SearchInv := by
  cases threadCreated with
  | false => exact ⟨⟨nofun, Nat.zero_le 1, rfl, rfl⟩, nofun, nofun, trivial, rfl⟩
  | true => exact ⟨⟨nofun, Nat.zero_le 1, rfl, rfl⟩, nofun, nofun, trivial, rfl⟩

variable {s : SearchSystem}

namespace SearchInv

theorem unknown_inactive (h : s.SearchInv) (hnone : s.unknown.sessionId = 0) :
    s.unknown.state.isActive = false := by
  by_contra hactive
  exact h.active (by simpa using hactive) hnone

theorem unknown_inactive_of_exact (h : s.SearchInv) (hexact : s.exact.state.isActive = true) :
    s.unknown.state.isActive = false :=
  h.unknown_inactive (h.law.apart hexact)

theorem exact_inactive_of_unknown (h : s.SearchInv) (hunknown : s.unknown.state.isActive = true) :
    s.exact.state.isActive = false := by
  by_contra hactive
  exact h.active hunknown (h.law.apart (by simpa using hactive))

/-- With nothing active, all that was queued has ended. -/
theorem queued_eq_finished (h : s.SearchInv) (hexact : s.exact.state.isActive = false)
    (hunknown : s.unknown.state.isActive = false) : s.queued = s.finished := by
  have honce := h.law.once
  simpa [activeJobs, hexact, hunknown] using honce

/-- With nothing active, the worker has no job. -/
theorem worker_free (h : s.SearchInv) (hexact : s.exact.state.isActive = false)
    (hunknown : s.unknown.state.isActive = false) :
    s.running = none ∧ (s.worker = .look ∨ s.worker = .unknownLook) := by
  have hworker := h.worker
  unfold WorkerHolds at hworker
  split at hworker
  case h_1 hpc => exact ⟨hworker, .inl hpc⟩
  case h_2 hpc => exact ⟨hworker, .inr hpc⟩
  case h_3 => simp [hexact] at hworker
  case h_4 => simp [hexact] at hworker
  case h_5 => simp [hexact] at hworker
  case h_6 => simp [hunknown] at hworker
  case h_7 => simp [hunknown] at hworker

/-- A worker without a job. -/
theorem workerHolds_of_free {s' : SearchSystem} (hrunning : s'.running = none)
    (hworker : s'.worker = .look ∨ s'.worker = .unknownLook) : s'.WorkerHolds := by
  unfold WorkerHolds
  rcases hworker with hworker | hworker
  · rw [hworker]
    exact hrunning
  · rw [hworker]
    exact hrunning

/-- The program counter of the command thread changes alone. -/
theorem goto {pc : SearchCommandPc} (h : s.SearchInv) (hholds : (s.goto pc).CommandHolds) :
    (s.goto pc).SearchInv :=
  ⟨⟨h.law.apart, h.law.one, h.law.once, h.law.directed⟩, h.active, h.committed, hholds, h.worker⟩

/-! ## A job is queued -/

theorem queueExact (h : s.SearchInv) (hexact : s.exact.state.isActive = false)
    (hnone : s.unknown.sessionId = 0) : s.queueExact.SearchInv := by
  have hunknown := h.unknown_inactive hnone
  obtain ⟨hrunning, hworker⟩ := h.worker_free hexact hunknown
  have hactive : s.queueExact.activeJobs = [⟨.exact, s.exact.nextSessionId⟩] := by
    change [_] ++ (if s.unknown.state.isActive then _ else _) = _
    rw [hunknown]
    rfl
  refine ⟨⟨fun _ => hnone, ?_, ?_, h.law.directed⟩, h.active, h.committed, trivial,
    workerHolds_of_free hrunning hworker⟩
  · rw [hactive, List.length_singleton]
  · rw [hactive]
    exact congrArg (· ++ _) (h.queued_eq_finished hexact hunknown)

theorem queueBegin (h : s.SearchInv) (hexact : s.exact.state.isActive = false)
    (hnone : s.unknown.sessionId = 0) (hid : s.unknown.nextSessionId ≠ 0) :
    s.queueBegin.SearchInv := by
  have hunknown := h.unknown_inactive hnone
  obtain ⟨hrunning, hworker⟩ := h.worker_free hexact hunknown
  have hactive : s.queueBegin.activeJobs = [⟨.unknown, s.unknown.nextSessionId⟩] := by
    change (if s.exact.state.isActive then _ else _) ++ [_] = _
    rw [hexact]
    rfl
  refine ⟨⟨fun hactive => ?_, ?_, ?_, h.law.directed⟩, fun _ => hid, fun _ => hid, trivial,
    workerHolds_of_free hrunning hworker⟩
  · rw [show s.queueBegin.exact = s.exact from rfl, hexact] at hactive
    cases hactive
  · rw [hactive, List.length_singleton]
  · rw [hactive]
    exact congrArg (· ++ _) (h.queued_eq_finished hexact hunknown)

theorem queueRefine (h : s.SearchInv) (hunknown : s.unknown.state.isActive = false)
    (hid : s.unknown.sessionId ≠ 0) : s.queueRefine.SearchInv := by
  have hexact : s.exact.state.isActive = false := by
    by_contra hactive
    exact hid (h.law.apart (by simpa using hactive))
  obtain ⟨hrunning, hworker⟩ := h.worker_free hexact hunknown
  have hactive : s.queueRefine.activeJobs = [⟨.unknown, s.unknown.sessionId⟩] := by
    change (if s.exact.state.isActive then _ else _) ++ [_] = _
    rw [hexact]
    rfl
  refine ⟨⟨fun hactive => ?_, ?_, ?_, h.law.directed⟩, fun _ => hid, fun _ => hid, trivial,
    workerHolds_of_free hrunning hworker⟩
  · rw [show s.queueRefine.exact = s.exact from rfl, hexact] at hactive
    cases hactive
  · rw [hactive, List.length_singleton]
  · rw [hactive]
    exact congrArg (· ++ _) (h.queued_eq_finished hexact hunknown)

/-! ## Cancel and close -/

/-- The request of a cancellation is no part of the law. -/
theorem withCancel (h : s.SearchInv) (exactCancel unknownCancel : Bool) :
    SearchInv { s with
      exact := { s.exact with cancelRequested := exactCancel }
      unknown := { s.unknown with cancelRequested := unknownCancel } } :=
  ⟨⟨h.law.apart, h.law.one, h.law.once, h.law.directed⟩, h.active, h.committed, h.command, h.worker⟩

theorem searchCancel (h : s.SearchInv) (sessionId : UInt64) :
    (s.searchCancel sessionId).SearchInv := by
  unfold SearchSystem.searchCancel SearchSystem.unknownSearchCancel
  split_ifs
  · exact h.withCancel s.exact.cancelRequested true
  · exact h
  · exact h.withCancel true s.unknown.cancelRequested
  · exact h

/-- A session that is not active is closed between two commands. -/
theorem unknownSearchClose (h : s.SearchInv) (hidle : s.command = .idle) (sessionId : UInt64) :
    (s.unknownSearchClose sessionId).SearchInv := by
  unfold SearchSystem.unknownSearchClose
  split
  case isFalse => exact h
  case isTrue hlive =>
    obtain ⟨⟨hid, hsame⟩, hunknown⟩ := hlive
    rw [Bool.not_eq_true] at hunknown
    have hexact : s.exact.state.isActive = false := by
      by_contra hactive
      exact hid (hsame ▸ h.law.apart (by simpa using hactive))
    obtain ⟨hrunning, hworker⟩ := h.worker_free hexact hunknown
    have honce := h.queued_eq_finished hexact hunknown
    refine ⟨⟨fun _ => rfl, ?_, ?_, h.law.directed⟩, nofun, nofun, ?_,
      workerHolds_of_free hrunning hworker⟩
    · simp [activeJobs, hexact]
    · simp [activeJobs, hexact, honce]
    · simp [CommandHolds, hidle]

theorem searchClose (h : s.SearchInv) (hidle : s.command = .idle) (sessionId : UInt64) :
    (s.searchClose sessionId).SearchInv := by
  unfold SearchSystem.searchClose
  split
  · exact h.unknownSearchClose hidle sessionId
  · split
    case isFalse => exact h
    case isTrue hlive =>
      obtain ⟨-, hexact⟩ := hlive
      rw [Bool.not_eq_true] at hexact
      have honce := h.law.once
      have hone := h.law.one
      refine ⟨⟨nofun, ?_, ?_, h.law.directed⟩, h.active, h.committed, ?_, ?_⟩
      · simpa [activeJobs, hexact] using hone
      · simpa [activeJobs, hexact] using honce
      · simp [CommandHolds, hidle]
      · -- the worker has no exact job, which would be active
        have hworker := h.worker
        unfold WorkerHolds at hworker ⊢
        cases hpc : s.worker <;> simp_all

/-! ## The steps of the command thread -/

theorem startCommand (h : s.SearchInv) (hidle : s.command = .idle) (command : SearchCommand) :
    (s.startCommand command).SearchInv := by
  unfold SearchSystem.startCommand
  cases command with
  | start refused =>
    simp only
    split
    case isTrue => exact h
    case isFalse hpass =>
      refine h.goto ?_
      by_contra hsession
      exact hpass (.inr (.inr hsession))
  | beginUnknown =>
    simp only
    split
    case isTrue => exact h
    case isFalse hexact => exact h.goto ((Bool.not_eq_true _).mp hexact)
  | refine sessionId =>
    simp only
    split
    case isTrue => exact h
    case isFalse hready =>
      simp only [not_or, not_not, Bool.not_eq_false] at hready
      obtain ⟨hsame, hcommitted, -⟩ := hready
      split
      · exact h
      · exact h.goto ⟨hsame, hsame ▸ h.committed hcommitted⟩
  | cancel sessionId => exact h.searchCancel sessionId
  | close sessionId => exact h.searchClose hidle sessionId

theorem advanceCommand (h : s.SearchInv) {fails : Bool} (hok : s.Careful (.advance fails)) :
    (s.advanceCommand fails).SearchInv := by
  have hholds := h.command
  unfold SearchSystem.advanceCommand
  unfold CommandHolds at hholds
  cases hpc : s.command with
  | idle => exact h
  | startQueue =>
    rw [hpc] at hholds
    simp only
    split
    case isTrue => exact h.goto trivial
    case isFalse hfree =>
      rw [not_or, Bool.not_eq_true] at hfree
      exact h.queueExact hfree.1 hholds
  | beginOther =>
    rw [hpc] at hholds
    simp only
    split
    · exact h.goto trivial
    · exact h.goto hholds
  | beginCheck =>
    rw [hpc] at hholds
    simp only
    split
    · exact h.goto trivial
    · exact h.goto hholds
  | beginCommit =>
    rw [hpc] at hholds
    simp only
    split
    case isTrue => exact h.goto trivial
    case isFalse hfree =>
      rw [not_or, Bool.not_eq_true, not_not] at hfree
      exact h.queueBegin hholds hfree.2 (hok hpc hfree.1 hfree.2)
  | refineCommit sessionId =>
    rw [hpc] at hholds
    obtain ⟨hsame, hid⟩ := hholds
    simp only
    split
    case isTrue => exact h.goto trivial
    case isFalse hfree =>
      rw [not_or, not_or, Bool.not_eq_true] at hfree
      refine h.queueRefine (by simpa using hfree.2.2) ?_
      rw [hsame]
      exact hid

/-! ## The steps of the worker -/

/-- The worker goes on with what it has. -/
theorem withWorker {pc : SearchWorkerPc} (h : s.SearchInv)
    (hholds : WorkerHolds { s with worker := pc }) : SearchInv { s with worker := pc } :=
  ⟨⟨h.law.apart, h.law.one, h.law.once, h.law.directed⟩, h.active, h.committed, h.command, hholds⟩

/-- A job moves from queued to running. -/
theorem withRunning (h : s.SearchInv) (exactState unknownState : SearchPhase)
    {pc : SearchWorkerPc} {running : Option SearchJob}
    (hexact : exactState.isActive = s.exact.state.isActive)
    (hunknown : unknownState.isActive = s.unknown.state.isActive)
    (hholds : WorkerHolds { (s.withExactState exactState).withUnknownState unknownState with
      worker := pc, running := running }) :
    SearchInv { (s.withExactState exactState).withUnknownState unknownState with
      worker := pc, running := running } := by
  have hjobs : activeJobs { (s.withExactState exactState).withUnknownState unknownState with
      worker := pc, running := running } = s.activeJobs := by
    simp [activeJobs, withExactState, withUnknownState, hexact, hunknown]
  refine ⟨⟨?_, ?_, ?_, h.law.directed⟩, ?_, h.committed, ?_, hholds⟩
  · intro hactive
    exact h.law.apart (hexact ▸ hactive)
  · rw [hjobs]
    exact h.law.one
  · rw [hjobs]
    exact h.law.once
  · intro hactive
    exact h.active (hunknown ▸ hactive)
  · have hcommand := h.command
    unfold CommandHolds at hcommand ⊢
    simp only [withExactState, withUnknownState, hexact]
    exact hcommand

/-- The end of the exact job is written. -/
theorem finishSearch {state : SearchPhase} (h : s.SearchInv)
    (hexact : s.exact.state.isActive = true) (hrunning : s.running = some ⟨.exact, s.exact.sessionId⟩)
    (hend : state.isActive = false) : (s.finishSearch state).SearchInv := by
  have hunknown := h.unknown_inactive_of_exact hexact
  have honce : s.queued = s.finished ++ [⟨.exact, s.exact.sessionId⟩] := by
    have honce := h.law.once
    simpa [activeJobs, hexact, hunknown] using honce
  have hjobs : (s.finishSearch state).activeJobs = [] := by
    simp [activeJobs, SearchSystem.finishSearch, writeEnd, hend, hunknown]
  refine ⟨⟨?_, ?_, ?_, ?_⟩, h.active, h.committed, ?_, rfl⟩
  · intro hactive
    rw [show (s.finishSearch state).exact.state = state from rfl, hend] at hactive
    cases hactive
  · rw [hjobs]
    exact Nat.zero_le 1
  · rw [hjobs, List.append_nil]
    exact honce
  · change (s.misdirected || s.running != some _) = false
    rw [h.law.directed, hrunning]
    simp
  · have hcommand := h.command
    unfold CommandHolds at hcommand ⊢
    simp only [SearchSystem.finishSearch, writeEnd, hend]
    cases hpc : s.command <;> simp_all

/-- The end of the unknown job is written. -/
theorem finish {state : SearchPhase} {committed resumable : Bool} (h : s.SearchInv)
    (hunknown : s.unknown.state.isActive = true)
    (hrunning : s.running = some ⟨.unknown, s.unknown.sessionId⟩)
    (hend : state.isActive = false) : (s.finish state committed resumable).SearchInv := by
  have hexact := h.exact_inactive_of_unknown hunknown
  have honce : s.queued = s.finished ++ [⟨.unknown, s.unknown.sessionId⟩] := by
    have honce := h.law.once
    simpa [activeJobs, hexact, hunknown] using honce
  have hjobs : (s.finish state committed resumable).activeJobs = [] := by
    simp [activeJobs, SearchSystem.finish, writeEnd, hend, hexact]
  refine ⟨⟨h.law.apart, ?_, ?_, ?_⟩, fun _ => h.active hunknown, fun _ => h.active hunknown,
    h.command, rfl⟩
  · rw [hjobs]
    exact Nat.zero_le 1
  · rw [hjobs, List.append_nil]
    exact honce
  · change (s.misdirected || s.running != some _) = false
    rw [h.law.directed, hrunning]
    simp

theorem isActive_endOf (cancelled : Bool) (outcome : ScanOutcome) :
    (endOf cancelled outcome).isActive = false := by
  cases outcome <;> cases cancelled <;> rfl

theorem workerStep (h : s.SearchInv) (memory : Bool) (outcome : ScanOutcome) :
    (s.workerStep memory outcome).SearchInv := by
  have hworker := h.worker
  unfold WorkerHolds at hworker
  unfold SearchSystem.workerStep
  cases hpc : s.worker with
  | look =>
    rw [hpc] at hworker
    simp only
    split_ifs with hblocked hqueued
    · exact h
    · refine h.withRunning s.exact.state s.unknown.state rfl rfl ?_
      exact ⟨by simp [withExactState, withUnknownState, hqueued], rfl⟩
    · exact h.withWorker hworker
  | exactTaken =>
    rw [hpc] at hworker
    simp only
    split_ifs
    · exact h.withWorker ⟨hworker, rfl⟩
    · exact h
    · exact h.withRunning .running s.unknown.state
        hworker.1.symm rfl ⟨rfl, hworker.2⟩
  | exactRunning =>
    rw [hpc] at hworker
    simp only
    split_ifs
    · exact h
    · exact h.withWorker ⟨hworker, isActive_endOf _ _⟩
  | exactFinishing state =>
    rw [hpc] at hworker
    obtain ⟨⟨hexact, hrunning⟩, hend⟩ := hworker
    simp only
    split_ifs
    · exact h
    · exact h.finishSearch hexact hrunning hend
  | unknownLook =>
    rw [hpc] at hworker
    simp only
    split_ifs with hqueued
    · exact h.withRunning s.exact.state .running rfl
        (by rw [hqueued]; rfl) ⟨rfl, rfl⟩
    · exact h.withWorker hworker
  | unknownRunning refining =>
    rw [hpc] at hworker
    exact h.withWorker ⟨hworker, isActive_endOf _ _⟩
  | unknownFinishing state committed resumable =>
    rw [hpc] at hworker
    obtain ⟨⟨hunknown, hrunning⟩, hend⟩ := hworker
    exact h.finish hunknown hrunning hend

theorem step (h : s.SearchInv) {a : SearchStep} (hok : s.Careful a) : (s.step a).SearchInv := by
  cases a with
  | command command =>
    unfold SearchSystem.step
    simp only
    split
    case isTrue hidle => exact h.startCommand hidle command
    case isFalse => exact h
  | advance fails => exact h.advanceCommand hok
  | worker memory outcome => exact h.workerStep memory outcome

end SearchInv

/-! ## Commands that name a session -/

theorem exact_unknownSearchCancel (sessionId : UInt64) :
    (s.unknownSearchCancel sessionId).exact = s.exact := by
  unfold unknownSearchCancel
  split <;> rfl

theorem exact_unknownSearchClose (sessionId : UInt64) :
    (s.unknownSearchClose sessionId).exact = s.exact := by
  unfold unknownSearchClose
  split <;> rfl

/-- A cancel of a session that is not live changes nothing. -/
theorem searchCancel_other (sessionId : UInt64) :
    (sessionId = 0 ∨ sessionId ≠ s.exact.sessionId →
        (s.searchCancel sessionId).exact = s.exact) ∧
      (sessionId = 0 ∨ sessionId ≠ s.unknown.sessionId →
        (s.searchCancel sessionId).unknown = s.unknown) := by
  unfold searchCancel
  split
  · refine ⟨fun _ => exact_unknownSearchCancel sessionId, fun hother => ?_⟩
    rw [unknownSearchCancel, if_neg]
    rintro ⟨hid, hsame, -⟩
    exact hother.elim hid fun hne => hne hsame.symm
  · refine ⟨fun hother => ?_, fun _ => ?_⟩
    · rw [if_neg]
      rintro ⟨hid, hsame, -⟩
      exact hother.elim hid fun hne => hne hsame.symm
    · split <;> rfl

theorem searchClose_other (sessionId : UInt64) :
    (sessionId = 0 ∨ sessionId ≠ s.exact.sessionId →
        (s.searchClose sessionId).exact = s.exact) ∧
      (sessionId = 0 ∨ sessionId ≠ s.unknown.sessionId →
        (s.searchClose sessionId).unknown = s.unknown) := by
  unfold searchClose
  split
  · refine ⟨fun _ => exact_unknownSearchClose sessionId, fun hother => ?_⟩
    rw [unknownSearchClose, if_neg]
    rintro ⟨⟨hid, hsame⟩, -⟩
    exact hother.elim hid fun hne => hne hsame.symm
  · refine ⟨fun hother => ?_, fun _ => ?_⟩
    · rw [if_neg]
      rintro ⟨⟨hid, hsame⟩, -⟩
      exact hother.elim hid fun hne => hne hsame.symm
    · split <;> rfl

/-- The first section of a refine changes no manager. -/
theorem startCommand_refine (sessionId : UInt64) :
    (s.startCommand (.refine sessionId)).exact = s.exact ∧
      (s.startCommand (.refine sessionId)).unknown = s.unknown := by
  unfold startCommand
  simp only
  split_ifs <;> exact ⟨rfl, rfl⟩

theorem SearchInv.namesLive (h : s.SearchInv) (a : SearchStep) : s.NamesLive a := by
  intro sessionId hnamed
  cases a with
  | worker memory outcome => cases hnamed
  | advance fails =>
    have hholds := h.command
    unfold CommandHolds at hholds
    cases hpc : s.command with
    | refineCommit sessionId' =>
      rw [hpc] at hholds
      have hsame : sessionId' = sessionId := by simpa [named, hpc] using hnamed
      subst hsame
      have hlive : ¬ (sessionId' = 0 ∨ sessionId' ≠ s.unknown.sessionId) := by
        rintro (hid | hne)
        · exact hholds.2 hid
        · exact hne hholds.1.symm
      refine ⟨fun _ => ?_, fun hother => absurd hother hlive⟩
      change (s.advanceCommand fails).exact = s.exact
      unfold SearchSystem.advanceCommand
      rw [hpc]
      simp only
      split <;> rfl
    | _ => simp [named, hpc] at hnamed
  | command command =>
    unfold SearchSystem.step
    simp only
    split
    case isFalse => exact ⟨fun _ => rfl, fun _ => rfl⟩
    case isTrue =>
      cases command with
      | start refused => cases hnamed
      | beginUnknown => cases hnamed
      | refine sessionId' =>
        obtain ⟨hexact, hunknown⟩ := startCommand_refine (s := s) sessionId'
        exact ⟨fun _ => hexact, fun _ => hunknown⟩
      | cancel sessionId' =>
        cases hnamed
        exact searchCancel_other sessionId
      | close sessionId' =>
        cases hnamed
        exact searchClose_other sessionId

/-! ## Runs -/

/-- In a run that begins no unknown search under the id 0, the two searches exclude each other, every
    job ends once, and a command changes no session but the live one it names. -/
theorem searches_exclude_each_other (threadCreated threadStarted storageAvailable : Bool)
    (steps : List SearchStep)
    (hok : Runs.EachStep step Careful
      (initial threadCreated threadStarted storageAvailable) steps) :
    Runs.Always step Exclusive (initial threadCreated threadStarted storageAvailable) steps ∧
      Runs.EachStep step NamesLive (initial threadCreated threadStarted storageAvailable) steps := by
  have hinv : ∀ before, before <+: steps →
      (Runs.run step (initial threadCreated threadStarted storageAvailable) before).SearchInv := by
    intro before hbefore
    have hbeforeOk : Runs.EachStep step Careful
        (initial threadCreated threadStarted storageAvailable) before :=
      fun p a hp => hok p a (hp.trans hbefore)
    exact Runs.invariant_of_eachStep (fun _ _ h hcareful => h.step hcareful)
      (searchInv_initial threadCreated threadStarted storageAvailable) hbeforeOk
  constructor
  · intro before hbefore
    exact (hinv before hbefore).law
  · intro before a hbefore
    exact (hinv before ((List.prefix_append before [a]).trans hbefore)).namesLive a

/-- An unknown search with the id is begun, runs to its end and is closed. -/
def session (sessionId : UInt64) : List SearchStep :=
  [.command .beginUnknown, .advance false, .advance false, .advance false,
    .worker true .completed, .worker true .completed, .worker true .completed,
    .worker true .completed, .command (.close sessionId)]

theorem searches_exclude_each_other_session :
    Runs.Always step Exclusive (initial true true true) (session 0x8000000000000001) := by
  have hok : Runs.EachStep step Careful (initial true true true) (session 0x8000000000000001) := by
    simp only [session, Runs.eachStep_cons]
    refine ⟨?_, ?_, ?_, ?_, ?_, ?_, ?_, ?_, ?_, Runs.eachStep_nil⟩ <;>
      simp [Careful, initial, step, startCommand, advanceCommand, goto, SearchPhase.isActive]
  exact (searches_exclude_each_other true true true (session 0x8000000000000001) hok).1

/-! ## The counter of the ids -/

/-- Nothing is going on, and the next unknown session gets the id. -/
structure Quiet (s : SearchSystem) (next : UInt64) : Prop where
  exact : s.exact.threadStarted = true ∧ s.exact.state = .idle
  unknown : s.unknown.storageAvailable = true ∧ s.unknown.sessionId = 0 ∧ s.unknown.state = .idle
  next : s.unknown.nextSessionId = next
  threads : s.command = .idle ∧ s.worker = .look

theorem quiet_initial : (initial true true true).Quiet 0x8000000000000001 :=
  ⟨⟨rfl, rfl⟩, ⟨rfl, rfl, rfl⟩, rfl, rfl, rfl⟩

/-- A session from begin to close leaves all as it was but for the counter. -/
theorem Quiet.session {next : UInt64} (h : s.Quiet next) (hid : next ≠ 0)
    (hhigh : isUnknownId next = true) : (Runs.run step s (session next)).Quiet (next + 1) := by
  obtain ⟨⟨threadStarted, exactCancel, nextExact, exactId, exactState⟩,
    ⟨storage, unknownCancel, nextUnknown, unknownId, unknownState, refining, committed, resumable⟩,
    command, worker, queued, finished, running, misdirected⟩ := s
  obtain ⟨⟨hstarted, hexact⟩, ⟨hstorage, hnone, hunknown⟩, hnext, hcommand, hworker⟩ := h
  simp only at hstarted hexact hstorage hnone hunknown hnext hcommand hworker
  subst hstarted hexact hstorage hnone hunknown hnext hcommand hworker
  constructor <;>
    simp [SearchSystem.session, step, startCommand, advanceCommand, workerStep, goto, queueBegin,
      take, withUnknownState, unknownEnd, endOf, finish, writeEnd, searchClose,
      unknownSearchClose, hhigh, hid]

/-- The ids of unknown sessions are those with the high bit. -/
theorem isUnknownId_of_le {sessionId : UInt64} (h : 2 ^ 63 ≤ sessionId.toNat) :
    isUnknownId sessionId = true := by
  have hlt := sessionId.toNat_lt
  have hbit : sessionId.toNat.testBit 63 = true := by
    rw [Nat.testBit_eq_decide_div_mod_eq]
    exact decide_eq_true (by omega)
  unfold isUnknownId
  rw [bne_iff_ne]
  intro hzero
  have hnat := congrArg (fun id : UInt64 => id.toNat.testBit 63) hzero
  simp only [UInt64.toNat_and, Nat.testBit_and, hbit] at hnat
  exact absurd hnat (by decide)

/-- One session after another, from the first id on. -/
def sessions (count : Nat) : List SearchStep :=
  (List.range count).flatMap fun index => session (UInt64.ofNat (2 ^ 63 + 1 + index))

theorem quiet_sessions (count : Nat) (hcount : count < 2 ^ 63) :
    (Runs.run step (initial true true true) (sessions count)).Quiet
      (UInt64.ofNat (2 ^ 63 + 1 + count)) := by
  induction count with
  | zero => exact quiet_initial
  | succ count ih =>
    have hbefore := ih (by omega)
    have hnat : (UInt64.ofNat (2 ^ 63 + 1 + count)).toNat = 2 ^ 63 + 1 + count := by
      rw [UInt64.toNat_ofNat']
      omega
    have hid : UInt64.ofNat (2 ^ 63 + 1 + count) ≠ 0 := by
      intro hzero
      rw [hzero] at hnat
      simp at hnat
      omega
    have hsession := hbefore.session hid (isUnknownId_of_le (by omega))
    have hsteps : sessions (count + 1) =
        sessions count ++ session (UInt64.ofNat (2 ^ 63 + 1 + count)) := by
      simp [sessions, List.range_succ]
    have hnext : UInt64.ofNat (2 ^ 63 + 1 + count) + 1 = UInt64.ofNat (2 ^ 63 + 1 + (count + 1)) := by
      rw [← UInt64.toNat_inj]
      simp [UInt64.toNat_add]
      omega
    rw [hsteps, Runs.run_append, ← hnext]
    exact hsession

/-- With the counter at 0 an unknown search is begun under the id of no session, and an exact search
    starts beside it. -/
def startBoth : List SearchStep :=
  [.command .beginUnknown, .advance false, .advance false, .advance false,
    .command (.start false), .advance false]

theorem Quiet.startBoth_not_exclusive (h : s.Quiet 0) :
    ¬ (Runs.run step s startBoth).Exclusive := by
  obtain ⟨⟨threadStarted, exactCancel, nextExact, exactId, exactState⟩,
    ⟨storage, unknownCancel, nextUnknown, unknownId, unknownState, refining, committed, resumable⟩,
    command, worker, queued, finished, running, misdirected⟩ := s
  obtain ⟨⟨hstarted, hexact⟩, ⟨hstorage, hnone, hunknown⟩, hnext, hcommand, hworker⟩ := h
  simp only at hstarted hexact hstorage hnone hunknown hnext hcommand hworker
  subst hstarted hexact hstorage hnone hunknown hnext hcommand hworker
  intro hexclusive
  have hone := hexclusive.one
  simp [startBoth, step, startCommand, advanceCommand, goto, queueBegin, queueExact,
    activeJobs] at hone

/-- After 2^63 - 1 unknown sessions the next one gets the id 0. -/
theorem searches_together_after_wrap :
    ¬ ∀ steps, Runs.Always step Exclusive (initial true true true) steps := by
  intro hall
  have hquiet := quiet_sessions (2 ^ 63 - 1) (by omega)
  have hzero : UInt64.ofNat (2 ^ 63 + 1 + (2 ^ 63 - 1)) = 0 := by
    rw [← UInt64.toNat_inj, UInt64.toNat_ofNat']
    simp
  rw [hzero] at hquiet
  have hlast := (hall (sessions (2 ^ 63 - 1) ++ startBoth)).last
  rw [Runs.run_append] at hlast
  exact hquiet.startBoth_not_exclusive hlast

end SearchSystem

end SysAgent
