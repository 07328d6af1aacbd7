import Mathlib
import SysAgent.Ftp.Server
import SysAgent.Lib.Runs

set_option autoImplicit false

/-! # Commands and the worker of the FTP server

Every accepted command is recorded with what it asks for, and every turn of the worker with whether
it began after the last one. What a request that is still pending, or being carried out, will set
`desiredRunning` to is known in advance (`pendingOutcome`); a command is in order as long as that
does not contradict it. -/

namespace SysAgent

/-- The last accepted command; a reload with the number of the load that reads its file. -/
inductive LastCommand
  | start
  | stop
  | restart
  | reload (load : Nat)
  deriving DecidableEq

structure FtpHistory where
  system : FtpSystem
  last : Option LastCommand
  /-- The turn of the worker began after the last command. -/
  began : Bool
  /-- A turn that began after the last command has been completed. -/
  settled : Bool
  /-- A reload was accepted and its file will not be read. -/
  dropped : Bool

/-- A file with which the server runs. -/
def ConfigFile.serves (file : ConfigFile) : Bool :=
  (ftpConfigLoad file).1 == .ok && (ftpConfigLoad file).2.enabled

/-- Whether the command wants the server to run. -/
def LastCommand.wants (files : Nat → ConfigFile) : LastCommand → Bool
  | .start => true
  | .stop => false
  | .restart => true
  | .reload load => (files load).serves

namespace FtpSystem

/-- The worker has taken up a reload and not stored its configuration yet. -/
def reloadTaken (s : FtpSystem) : Bool :=
  match s.pc with
  | .stopForRequest | .stoppedForRequest => s.locals.reload
  | .loadConfig => true
  | _ => false

/-- The worker has taken up a restart and not set `desiredRunning` yet. -/
def restartTaken (s : FtpSystem) : Bool :=
  match s.pc with
  | .stopForRequest | .stoppedForRequest => s.locals.restart && !s.locals.reload
  | .restart => true
  | _ => false

/-- The load that a reload accepted now will cause. -/
def nextLoad (s : FtpSystem) : Nat :=
  if s.reloadTaken then s.loads + 1 else s.loads

/-- What a request will still set `desiredRunning` to. -/
def pendingOutcome (files : Nat → ConfigFile) (s : FtpSystem) : Option Bool :=
  if s.manager.reloadRequested then some (files s.nextLoad).serves
  else if s.manager.restartRequested then some true
  else if s.reloadTaken then some (files s.loads).serves
  else if s.restartTaken then some true
  else none

/-- `desiredRunning` once the worker has carried out every request. -/
def outcome (files : Nat → ConfigFile) (s : FtpSystem) : Bool :=
  (s.pendingOutcome files).getD s.manager.desiredRunning

end FtpSystem

/-! ## Runs with their history -/

/-- What a command is recorded as. -/
def FtpEvent.recorded (s : FtpSystem) : FtpEvent → Option LastCommand
  | .start => some .start
  | .stop => some .stop
  | .restart false => some .restart
  | .restart true => some (.reload s.nextLoad)
  | .shutdown => none
  | .worker _ => none

def lifecycleStep (files : Nat → ConfigFile) (h : FtpHistory) (e : FtpEvent) : FtpHistory :=
  let s := h.system
  let system := ftpStep files s e
  match e with
  | .worker _ =>
    if s.manager.threadCreated then
      let began := if s.pc = .top then !s.manager.shutdown else h.began
      { h with
        system := system
        began := began
        settled := h.settled || (began && system.pc == .top) }
    else h
  | .shutdown => { h with system := system }
  | e =>
    if (e.command s.manager).1 then
      { system := system
        last := e.recorded s
        began := false
        settled := false
        dropped := h.dropped || (e.recorded s == some .restart && s.manager.reloadRequested) }
    else h

def lifecycleInit (files : Nat → ConfigFile) (storageAvailable : Bool) (threadResult : Int) :
    FtpHistory :=
  { system := ftpServerInitialize files storageAvailable threadResult
    last := none
    began := false
    settled := false
    dropped := false }

/-- No accepted reload is lost, and once a turn that began after the last command is complete and
    no flag is pending, the server is wanted iff the last command asked for it. -/
def FollowsLastCommand (files : Nat → ConfigFile) (h : FtpHistory) : Prop :=
  h.dropped = false ∧
    (h.settled = true → h.system.manager.restartRequested = false →
      h.system.manager.reloadRequested = false →
      ∀ c, h.last = some c → h.system.manager.desiredRunning = c.wants files)

/-- The same now, and when the worker goes on alone. -/
def FollowsWhenQuiet (files : Nat → ConfigFile) (h : FtpHistory) : Prop :=
  ∀ ios : List WorkerAnswers,
    FollowsLastCommand files (Runs.run (lifecycleStep files) h (ios.map .worker))

/-- A command that is in order: a start or stop does not contradict what a request will still set,
    and a restart does not replace a reload that is waiting. -/
def InOrder (files : Nat → ConfigFile) (h : FtpHistory) (e : FtpEvent) : Prop :=
  (e.command h.system.manager).1 = true →
    match e with
    | .start => h.system.manager.shutdown = true ∨ h.system.pendingOutcome files ≠ some false
    | .stop => h.system.manager.shutdown = true ∨ h.system.pendingOutcome files ≠ some true
    | .restart false => h.system.manager.reloadRequested = false
    | _ => True

/-! ## The worker -/

/-- The worker is not carrying out a request. -/
def WorkerPc.requestDone : WorkerPc → Bool
  | .stopForRequest | .stoppedForRequest | .loadConfig | .restart => false
  | _ => true

theorem afterInit_done (l : WorkerLocals) : l.afterInit.requestDone = true := by
  unfold WorkerLocals.afterInit
  split <;> rfl

theorem afterUnwanted_done (l : WorkerLocals) : l.afterUnwanted.requestDone = true := by
  unfold WorkerLocals.afterUnwanted
  split
  · rfl
  · exact afterInit_done l

theorem afterRequest_done (l : WorkerLocals) : l.afterRequest.requestDone = true := by
  unfold WorkerLocals.afterRequest
  split
  · rfl
  · exact afterUnwanted_done l

namespace FtpSystem

variable {files : Nat → ConfigFile} {s : FtpSystem}

theorem reloadTaken_of_done (h : s.pc.requestDone = true) : s.reloadTaken = false := by
  unfold reloadTaken
  cases hpc : s.pc <;> simp_all [WorkerPc.requestDone]

theorem restartTaken_of_done (h : s.pc.requestDone = true) : s.restartTaken = false := by
  unfold restartTaken
  cases hpc : s.pc <;> simp_all [WorkerPc.requestDone]

theorem outcome_eq (files : Nat → ConfigFile) (s : FtpSystem) :
    s.outcome files =
      if s.manager.reloadRequested then (files s.nextLoad).serves
      else if s.manager.restartRequested then true
      else if s.reloadTaken then (files s.loads).serves
      else if s.restartTaken then true
      else s.manager.desiredRunning := by
  unfold outcome pendingOutcome
  split_ifs <;> rfl

/-- Without a request the outcome is what is wanted now. -/
theorem outcome_of_idle (files : Nat → ConfigFile)
    (hrestart : s.manager.restartRequested = false) (hreload : s.manager.reloadRequested = false) (hreloadTaken : s.reloadTaken = false)
    (hrestartTaken : s.restartTaken = false) : s.outcome files = s.manager.desiredRunning := by
  simp [outcome, pendingOutcome, hrestart, hreload, hreloadTaken, hrestartTaken]

end FtpSystem

/-- A step between requests leaves what the outcome depends on as it is. -/
theorem worker_done (files : Nat → ConfigFile) {s : FtpSystem} (io : WorkerAnswers)
    (h : s.pc.requestDone = true) (htop : s.pc ≠ .top) :
    (ftpWorkerStep files s io).pc.requestDone = true ∧
      (ftpWorkerStep files s io).manager.desiredRunning = s.manager.desiredRunning ∧
      (ftpWorkerStep files s io).loads = s.loads := by
  cases hpc : s.pc with
  | top => exact absurd hpc htop
  | stopForRequest => simp [hpc, WorkerPc.requestDone] at h
  | stoppedForRequest => simp [hpc, WorkerPc.requestDone] at h
  | loadConfig => simp [hpc, WorkerPc.requestDone] at h
  | restart => simp [hpc, WorkerPc.requestDone] at h
  | readBack => simp only [ftpWorkerStep, hpc, afterRequest_done, and_self]
  | stopUnwanted => simp [ftpWorkerStep, hpc, WorkerPc.requestDone, FtpManager.setState]
  | stoppedUnwanted => simp only [ftpWorkerStep, hpc, afterUnwanted_done, and_self]
  | starting => simp [ftpWorkerStep, hpc, WorkerPc.requestDone, FtpManager.setState]
  | init =>
    simp only [ftpWorkerStep, hpc, and_self, and_true]
    split <;> rfl
  | initFailed => simp only [ftpWorkerStep, hpc, afterInit_done, and_self]
  | initDone => simp only [ftpWorkerStep, hpc, afterInit_done, and_self]
  | loop =>
    simp only [ftpWorkerStep, hpc]
    split
    · exact ⟨rfl, rfl, rfl⟩
    · refine ⟨?_, rfl, rfl⟩
      show (if _ then WorkerPc.drop else WorkerPc.top).requestDone = true
      split <;> rfl
  | drop => simp [ftpWorkerStep, hpc, WorkerPc.requestDone]
  | leaving => simp [ftpWorkerStep, hpc, WorkerPc.requestDone]
  | finished => simp [ftpWorkerStep, hpc, WorkerPc.requestDone]

/-- Only the first step of a turn touches the flags. -/
theorem worker_flags (files : Nat → ConfigFile) {s : FtpSystem} (io : WorkerAnswers)
    (htop : s.pc ≠ .top) :
    (ftpWorkerStep files s io).manager.restartRequested = s.manager.restartRequested ∧
      (ftpWorkerStep files s io).manager.reloadRequested = s.manager.reloadRequested ∧
      (ftpWorkerStep files s io).manager.shutdown = s.manager.shutdown ∧
      (ftpWorkerStep files s io).manager.threadCreated = s.manager.threadCreated := by
  cases hpc : s.pc with
  | top => exact absurd hpc htop
  | loop =>
    simp only [ftpWorkerStep, hpc]
    split <;> exact ⟨rfl, rfl, rfl, rfl⟩
  | loadConfig =>
    simp only [ftpWorkerStep, hpc, FtpManager.loadConfig]
    split <;> exact ⟨rfl, rfl, rfl, rfl⟩
  | _ => simp only [ftpWorkerStep, hpc, FtpManager.setState, and_self]

/-- No step in the middle of a turn changes the outcome. -/
theorem worker_outcome {files : Nat → ConfigFile} {s : FtpSystem} {io : WorkerAnswers}
    (htop : s.pc ≠ .top) : (ftpWorkerStep files s io).outcome files = s.outcome files := by
  obtain ⟨hrestart, hreload, -, -⟩ := worker_flags files io htop
  cases hdone : s.pc.requestDone with
  | true =>
    obtain ⟨hdone', hdesired, hloads⟩ := worker_done files io hdone htop
    simp only [FtpSystem.outcome_eq, FtpSystem.nextLoad, hrestart, hreload, hdesired, hloads, FtpSystem.reloadTaken_of_done hdone, FtpSystem.restartTaken_of_done hdone,
      FtpSystem.reloadTaken_of_done hdone', FtpSystem.restartTaken_of_done hdone']
  | false =>
    simp only [FtpSystem.outcome_eq, FtpSystem.nextLoad, hrestart, hreload]
    cases hpc : s.pc with
    | stopForRequest =>
      simp only [ftpWorkerStep, hpc, FtpSystem.reloadTaken, FtpSystem.restartTaken,
        FtpManager.setState]
    | stoppedForRequest =>
      cases hl : s.locals.reload with
      | true =>
        simp [ftpWorkerStep, hpc, hl, FtpSystem.reloadTaken, WorkerLocals.afterTakeDown]
      | false =>
        cases hr : s.locals.restart with
        | true =>
          simp [ftpWorkerStep, hpc, hl, hr, FtpSystem.reloadTaken, FtpSystem.restartTaken,
            WorkerLocals.afterTakeDown]
        | false =>
          have hdone' : (ftpWorkerStep files s io).pc.requestDone = true := by
            simp only [ftpWorkerStep, hpc, WorkerLocals.afterTakeDown, hl, hr]
            exact afterRequest_done _
          rw [FtpSystem.reloadTaken_of_done hdone', FtpSystem.restartTaken_of_done hdone']
          simp [ftpWorkerStep, hpc, hl, hr, FtpSystem.reloadTaken, FtpSystem.restartTaken]
    | loadConfig =>
      have hdone' : (ftpWorkerStep files s io).pc.requestDone = true := by
        simp [ftpWorkerStep, hpc, WorkerPc.requestDone]
      have hdesired : (ftpWorkerStep files s io).manager.desiredRunning =
          (files s.loads).serves := by
        simp only [ftpWorkerStep, hpc, FtpManager.loadConfig, ConfigFile.serves]
        split
        · rename_i hbad
          simp [hbad]
        · rename_i hok
          simp [not_not.1 hok]
      rw [FtpSystem.reloadTaken_of_done hdone', FtpSystem.restartTaken_of_done hdone', hdesired]
      simp [ftpWorkerStep, hpc, FtpSystem.reloadTaken]
    | restart =>
      have hdone' : (ftpWorkerStep files s io).pc.requestDone = true := by
        simp only [ftpWorkerStep, hpc, afterRequest_done]
      rw [FtpSystem.reloadTaken_of_done hdone', FtpSystem.restartTaken_of_done hdone']
      simp [ftpWorkerStep, hpc, FtpSystem.reloadTaken, FtpSystem.restartTaken]
    | _ => simp [hpc, WorkerPc.requestDone] at hdone

/-- The first step of a turn takes up what is requested. -/
theorem worker_top_taken (files : Nat → ConfigFile) {s : FtpSystem} (io : WorkerAnswers)
    (htop : s.pc = .top) (hrunning : s.manager.shutdown = false) :
    (ftpWorkerStep files s io).reloadTaken = s.manager.reloadRequested ∧
      (ftpWorkerStep files s io).restartTaken =
        (s.manager.restartRequested && !s.manager.reloadRequested) := by
  have hpc : (ftpWorkerStep files s io).pc = s.manager.snapshot.afterTop := by
    simp [ftpWorkerStep, htop, hrunning]
  have hlocals : (ftpWorkerStep files s io).locals = s.manager.snapshot := by
    simp [ftpWorkerStep, htop]
  cases hreload : s.manager.reloadRequested with
  | true =>
    cases hup : s.manager.serverInitialized <;>
      simp [FtpSystem.reloadTaken, FtpSystem.restartTaken, hpc, hlocals, WorkerLocals.afterTop,
        WorkerLocals.afterTakeDown, FtpManager.snapshot, hreload, hup]
  | false =>
    cases hrestart : s.manager.restartRequested with
    | true =>
      cases hup : s.manager.serverInitialized <;>
        simp [FtpSystem.reloadTaken, FtpSystem.restartTaken, hpc, hlocals, WorkerLocals.afterTop,
          WorkerLocals.afterTakeDown, FtpManager.snapshot, hreload, hrestart, hup]
    | false =>
      have hdone : (ftpWorkerStep files s io).pc.requestDone = true := by
        have hafter : s.manager.snapshot.afterTop = s.manager.snapshot.afterRequest := by
          simp [WorkerLocals.afterTop, WorkerLocals.afterTakeDown, FtpManager.snapshot, hreload,
            hrestart]
        rw [hpc, hafter]
        exact afterRequest_done _
      exact ⟨FtpSystem.reloadTaken_of_done hdone, FtpSystem.restartTaken_of_done hdone⟩

/-- It keeps the outcome. -/
theorem worker_top {files : Nat → ConfigFile} {s : FtpSystem} {io : WorkerAnswers}
    (htop : s.pc = .top) (hrunning : s.manager.shutdown = false) :
    (ftpWorkerStep files s io).outcome files = s.outcome files := by
  obtain ⟨hreloadTaken, hrestartTaken⟩ := worker_top_taken files io htop hrunning
  have hdone : s.pc.requestDone = true := by rw [htop]; rfl
  have hflags : (ftpWorkerStep files s io).manager.restartRequested = false ∧
      (ftpWorkerStep files s io).manager.reloadRequested = false ∧
      (ftpWorkerStep files s io).manager.desiredRunning = s.manager.desiredRunning ∧
      (ftpWorkerStep files s io).loads = s.loads := by
    simp [ftpWorkerStep, htop]
  obtain ⟨hrestart, hreload, hdesired, hloads⟩ := hflags
  simp only [FtpSystem.outcome_eq, FtpSystem.nextLoad, FtpSystem.reloadTaken_of_done hdone,
    FtpSystem.restartTaken_of_done hdone, hrestart, hreload, hdesired, hloads, hreloadTaken,
    hrestartTaken]
  cases s.manager.reloadRequested <;> simp

/-- What has been carried out stays so until the next turn. -/
theorem worker_not_taken {files : Nat → ConfigFile} {s : FtpSystem} {io : WorkerAnswers}
    (htop : s.pc ≠ .top) (hreload : s.reloadTaken = false) (hrestart : s.restartTaken = false) :
    (ftpWorkerStep files s io).reloadTaken = false ∧
      (ftpWorkerStep files s io).restartTaken = false := by
  have hidle : (ftpWorkerStep files s io).pc.requestDone = true →
      (ftpWorkerStep files s io).reloadTaken = false ∧
        (ftpWorkerStep files s io).restartTaken = false :=
    fun hdone => ⟨FtpSystem.reloadTaken_of_done hdone, FtpSystem.restartTaken_of_done hdone⟩
  cases hdone : s.pc.requestDone with
  | true => exact hidle (worker_done files io hdone htop).1
  | false =>
    cases hpc : s.pc with
    | stopForRequest =>
      simp only [FtpSystem.reloadTaken, FtpSystem.restartTaken, hpc] at hreload hrestart
      simp only [ftpWorkerStep, hpc, FtpSystem.reloadTaken, FtpSystem.restartTaken]
      exact ⟨hreload, hrestart⟩
    | stoppedForRequest =>
      simp only [FtpSystem.reloadTaken, FtpSystem.restartTaken, hpc] at hreload hrestart
      refine hidle ?_
      have hnone : s.locals.restart = false := by simpa [hreload] using hrestart
      simp only [ftpWorkerStep, hpc, WorkerLocals.afterTakeDown, hreload, hnone]
      exact afterRequest_done _
    | loadConfig => simp [FtpSystem.reloadTaken, hpc] at hreload
    | restart => simp [FtpSystem.restartTaken, hpc] at hrestart
    | _ => simp [hpc, WorkerPc.requestDone] at hdone

/-! ### Progress -/

/-- How many steps the turn can still take. -/
def WorkerPc.rank : WorkerPc → Nat
  | .top => 0
  | .drop => 1
  | .loop => 2
  | .initFailed | .initDone => 3
  | .init => 4
  | .starting => 5
  | .stoppedUnwanted => 6
  | .stopUnwanted => 7
  | .readBack | .restart => 8
  | .loadConfig => 9
  | .stoppedForRequest => 10
  | .stopForRequest => 11
  | .leaving | .finished => 12

theorem rank_afterInit (l : WorkerLocals) : l.afterInit.rank ≤ 2 := by
  unfold WorkerLocals.afterInit
  split <;> decide

theorem rank_afterUnwanted (l : WorkerLocals) : l.afterUnwanted.rank ≤ 5 := by
  unfold WorkerLocals.afterUnwanted
  split
  · decide
  · exact (rank_afterInit l).trans (by decide)

theorem rank_afterRequest (l : WorkerLocals) : l.afterRequest.rank ≤ 7 := by
  unfold WorkerLocals.afterRequest
  split
  · decide
  · exact (rank_afterUnwanted l).trans (by decide)

theorem rank_afterTakeDown (l : WorkerLocals) : l.afterTakeDown.rank ≤ 9 := by
  unfold WorkerLocals.afterTakeDown
  split
  · decide
  · split
    · decide
    · exact (rank_afterRequest l).trans (by decide)

theorem rank_afterTop (l : WorkerLocals) : l.afterTop.rank ≤ 11 := by
  unfold WorkerLocals.afterTop
  split
  · decide
  · exact (rank_afterTakeDown l).trans (by decide)

/-- A turn makes progress until it is complete. -/
theorem worker_rank (files : Nat → ConfigFile) {s : FtpSystem} (io : WorkerAnswers)
    (htop : s.pc ≠ .top) (hrunning : s.pc ≠ .leaving ∧ s.pc ≠ .finished) :
    (ftpWorkerStep files s io).pc.rank < s.pc.rank := by
  cases hpc : s.pc with
  | top => exact absurd hpc htop
  | leaving => exact absurd hpc hrunning.1
  | finished => exact absurd hpc hrunning.2
  | stopForRequest => simp [ftpWorkerStep, hpc, WorkerPc.rank]
  | stoppedForRequest =>
    simp only [ftpWorkerStep, hpc]
    exact Nat.lt_of_le_of_lt (rank_afterTakeDown _) (by decide)
  | loadConfig => simp [ftpWorkerStep, hpc, WorkerPc.rank]
  | readBack =>
    simp only [ftpWorkerStep, hpc]
    exact Nat.lt_of_le_of_lt (rank_afterRequest _) (by decide)
  | restart =>
    simp only [ftpWorkerStep, hpc]
    exact Nat.lt_of_le_of_lt (rank_afterRequest _) (by decide)
  | stopUnwanted => simp [ftpWorkerStep, hpc, WorkerPc.rank]
  | stoppedUnwanted =>
    simp only [ftpWorkerStep, hpc]
    exact Nat.lt_of_le_of_lt (rank_afterUnwanted _) (by decide)
  | starting => simp [ftpWorkerStep, hpc, WorkerPc.rank]
  | init =>
    simp only [ftpWorkerStep, hpc]
    split <;> decide
  | initFailed =>
    simp only [ftpWorkerStep, hpc]
    exact Nat.lt_of_le_of_lt (rank_afterInit _) (by decide)
  | initDone =>
    simp only [ftpWorkerStep, hpc]
    exact Nat.lt_of_le_of_lt (rank_afterInit _) (by decide)
  | loop =>
    simp only [ftpWorkerStep, hpc]
    split
    · exact Nat.zero_lt_succ 1
    · show (if _ then WorkerPc.drop else WorkerPc.top).rank < _
      split <;> decide
  | drop => simp [ftpWorkerStep, hpc, WorkerPc.rank]

/-- The worker leaves its loop only for a shutdown. -/
theorem worker_running {files : Nat → ConfigFile} {s : FtpSystem} {io : WorkerAnswers}
    (hshutdown : s.manager.shutdown = false) (hrunning : s.pc ≠ .leaving ∧ s.pc ≠ .finished) :
    (ftpWorkerStep files s io).pc ≠ .leaving ∧ (ftpWorkerStep files s io).pc ≠ .finished := by
  have hall : ∀ pc : WorkerPc, pc.rank < 12 → pc ≠ .leaving ∧ pc ≠ .finished := by
    intro pc hlt
    constructor
    · rintro rfl
      exact absurd hlt (by decide)
    · rintro rfl
      exact absurd hlt (by decide)
  apply hall
  by_cases htop : s.pc = .top
  · have hpc : (ftpWorkerStep files s io).pc = s.manager.snapshot.afterTop := by
      simp [ftpWorkerStep, htop, hshutdown]
    rw [hpc]
    exact Nat.lt_of_le_of_lt (rank_afterTop _) (by decide)
  · have hle : s.pc.rank ≤ 12 := by cases s.pc <;> decide
    exact (worker_rank files io htop hrunning).trans_le hle

/-! ## The invariant -/

namespace FtpHistory

/-- What the worker keeps when it goes on alone: the outcome agrees with the last command, or
    fails to, until a turn is complete and the outcome is there. -/
structure Tracks (files : Nat → ConfigFile) (agrees : LastCommand → Bool → Prop)
    (h : FtpHistory) : Prop where
  outcome : h.system.manager.shutdown = false ∨ h.began = true ∨ h.settled = true →
    ∀ c, h.last = some c → agrees c (h.system.outcome files)
  flags : h.began = true ∨ h.settled = true →
    h.system.manager.restartRequested = false ∧ h.system.manager.reloadRequested = false
  taken : h.settled = true → h.system.reloadTaken = false ∧ h.system.restartTaken = false
  running : h.system.manager.shutdown = false → h.system.pc ≠ .leaving ∧ h.system.pc ≠ .finished

variable {files : Nat → ConfigFile} {agrees : LastCommand → Bool → Prop} {h : FtpHistory}

/-- Once a turn is complete, `desiredRunning` is the outcome. -/
theorem Tracks.settled (tracks : h.Tracks files agrees) (hsettled : h.settled = true)
    {c : LastCommand} (hc : h.last = some c) : agrees c h.system.manager.desiredRunning := by
  obtain ⟨hrestart, hreload⟩ := tracks.flags (Or.inr hsettled)
  obtain ⟨hreloadTaken, hrestartTaken⟩ := tracks.taken hsettled
  rw [← FtpSystem.outcome_of_idle files hrestart hreload hreloadTaken hrestartTaken]
  exact tracks.outcome (Or.inr (Or.inr hsettled)) c hc

theorem tracks_worker (inv : h.Tracks files agrees) (io : WorkerAnswers) :
    (lifecycleStep files h (.worker io)).Tracks files agrees := by
  cases hthread : h.system.manager.threadCreated with
  | false =>
    have hstep : lifecycleStep files h (.worker io) = h := by simp [lifecycleStep, hthread]
    rw [hstep]
    exact inv
  | true =>
    have hsystem : ftpStep files h.system (.worker io) = ftpWorkerStep files h.system io := by
      simp [ftpStep, hthread]
    by_cases htop : h.system.pc = .top
    · have hstep : lifecycleStep files h (.worker io) =
          { h with
            system := ftpWorkerStep files h.system io
            began := !h.system.manager.shutdown
            settled := h.settled || (!h.system.manager.shutdown &&
              (ftpWorkerStep files h.system io).pc == .top) } := by
        simp [lifecycleStep, hthread, hsystem, htop]
      have hflags : (ftpWorkerStep files h.system io).manager.restartRequested = false ∧
          (ftpWorkerStep files h.system io).manager.reloadRequested = false ∧
          (ftpWorkerStep files h.system io).manager.shutdown = h.system.manager.shutdown ∧
          (ftpWorkerStep files h.system io).manager.desiredRunning =
            h.system.manager.desiredRunning := by
        simp [ftpWorkerStep, htop]
      obtain ⟨hrestart, hreload, hshutdown, hdesired⟩ := hflags
      rw [hstep]
      cases hdown : h.system.manager.shutdown with
      | true =>
        -- the thread leaves its loop; what has settled stays
        have hdone : (ftpWorkerStep files h.system io).pc.requestDone = true := by
          simp [ftpWorkerStep, htop, hdown, WorkerPc.requestDone]
        have htaken := And.intro (FtpSystem.reloadTaken_of_done hdone)
          (FtpSystem.restartTaken_of_done hdone)
        refine ⟨fun hcase c hc => ?_, fun _ => ⟨hrestart, hreload⟩,
          fun _ => htaken, fun h => absurd (hshutdown.symm.trans h) (by simp [hdown])⟩
        have hsettled : h.settled = true := by simpa [hshutdown, hdown] using hcase
        have houtcome := inv.settled hsettled hc
        rwa [← hdesired, ← FtpSystem.outcome_of_idle files hrestart hreload htaken.1
          htaken.2] at houtcome
      | false =>
        refine ⟨fun _ c hc => ?_, fun _ => ⟨hrestart, hreload⟩,
          fun hsettled => ?_, fun _ => worker_running hdown (inv.running hdown)⟩
        · rw [worker_top htop hdown]
          exact inv.outcome (Or.inl hdown) c hc
        · obtain ⟨hreloadTaken, hrestartTaken⟩ :=
            worker_top_taken files io htop hdown
          cases hbefore : h.settled with
          | true =>
            obtain ⟨hrestart', hreload'⟩ := inv.flags (Or.inr hbefore)
            rw [hreload'] at hreloadTaken hrestartTaken
            rw [hrestart'] at hrestartTaken
            exact ⟨hreloadTaken, hrestartTaken⟩
          | false =>
            have hpc : (ftpWorkerStep files h.system io).pc = .top := by
              simpa [hbefore] using hsettled
            have hdone : (ftpWorkerStep files h.system io).pc.requestDone = true := by
              rw [hpc]
              rfl
            exact ⟨FtpSystem.reloadTaken_of_done hdone, FtpSystem.restartTaken_of_done hdone⟩
    · have hstep : lifecycleStep files h (.worker io) =
          { h with
            system := ftpWorkerStep files h.system io
            settled := h.settled || (h.began &&
              (ftpWorkerStep files h.system io).pc == .top) } := by
        simp [lifecycleStep, hthread, hsystem, htop]
      obtain ⟨hrestart, hreload, hshutdown, -⟩ := worker_flags files io htop
      rw [hstep]
      have hcause : ∀ {p : Prop}, (p ∨ h.began = true ∨ (h.settled || (h.began &&
          (ftpWorkerStep files h.system io).pc == .top)) = true) →
            p ∨ h.began = true ∨ h.settled = true := by
        rintro p (hp | hbegan | hsettled)
        · exact Or.inl hp
        · exact Or.inr (Or.inl hbegan)
        · rcases Bool.or_eq_true_iff.1 hsettled with hsettled | hnow
          · exact Or.inr (Or.inr hsettled)
          · exact Or.inr (Or.inl (Bool.and_eq_true_iff.1 hnow).1)
      refine ⟨fun hcase c hc => ?_, fun hcase => ?_, fun hsettled => ?_,
        fun hdown => ?_⟩
      · rw [worker_outcome htop]
        refine inv.outcome (hcause ?_) c hc
        rwa [hshutdown] at hcase
      · rw [hrestart, hreload]
        exact inv.flags ((hcause (Or.inr hcase : False ∨ _)).resolve_left not_false)
      · rcases Bool.or_eq_true_iff.1 hsettled with hbefore | hnow
        · obtain ⟨hreloadTaken, hrestartTaken⟩ := inv.taken hbefore
          exact worker_not_taken htop hreloadTaken hrestartTaken
        · have hpc : (ftpWorkerStep files h.system io).pc = .top :=
            beq_iff_eq.1 (Bool.and_eq_true_iff.1 hnow).2
          have hdone : (ftpWorkerStep files h.system io).pc.requestDone = true := by
            rw [hpc]
            rfl
          exact ⟨FtpSystem.reloadTaken_of_done hdone, FtpSystem.restartTaken_of_done hdone⟩
      · have hdown' := hshutdown.symm.trans hdown
        exact worker_running hdown' (inv.running hdown')

/-- The worker alone, for as long as it likes. -/
theorem tracks_quiet (tracks : h.Tracks files agrees) (ios : List WorkerAnswers) :
    (Runs.run (lifecycleStep files) h (ios.map .worker)).Tracks files agrees := by
  induction ios generalizing h with
  | nil => exact tracks
  | cons io ios ih => exact ih (tracks_worker tracks io)

/-- What every run keeps as long as its commands are in order. -/
structure Inv (files : Nat → ConfigFile) (h : FtpHistory) : Prop where
  notDropped : h.dropped = false
  tracks : h.Tracks files fun c outcome => outcome = c.wants files

theorem Inv.follows (inv : h.Inv files) : FollowsLastCommand files h :=
  ⟨inv.notDropped, fun hsettled _ _ _ hc => inv.tracks.settled hsettled hc⟩

theorem lifecycleStep_worker_dropped (files : Nat → ConfigFile) (h : FtpHistory)
    (io : WorkerAnswers) :
    (lifecycleStep files h (.worker io)).dropped = h.dropped := by
  simp only [lifecycleStep]
  split <;> rfl

theorem lifecycleStep_worker_last (files : Nat → ConfigFile) (h : FtpHistory)
    (io : WorkerAnswers) :
    (lifecycleStep files h (.worker io)).last = h.last := by
  simp only [lifecycleStep]
  split <;> rfl

theorem inv_worker (inv : h.Inv files) (io : WorkerAnswers) :
    (lifecycleStep files h (.worker io)).Inv files :=
  ⟨(lifecycleStep_worker_dropped files h io).trans inv.notDropped, tracks_worker inv.tracks io⟩

theorem Inv.followsWhenQuiet (inv : h.Inv files) : FollowsWhenQuiet files h := by
  intro ios
  induction ios generalizing h with
  | nil => exact inv.follows
  | cons io ios ih => exact ih (inv_worker inv io)

/-! ### Commands -/

/-- After an accepted command nothing has begun yet; only the outcome matters. -/
theorem tracks_command {system : FtpSystem} {c : LastCommand} {dropped : Bool}
    (hrunning : system.manager.shutdown = false → system.pc ≠ .leaving ∧ system.pc ≠ .finished)
    (houtcome : system.manager.shutdown = false → agrees c (system.outcome files)) :
    Tracks files agrees
      { system := system, last := some c, began := false, settled := false,
        dropped := dropped } where
  outcome hcase c' hc := by
    obtain rfl : c = c' := Option.some.inj hc
    exact houtcome (by simpa using hcase)
  flags h := by simp at h
  taken h := by simp at h
  running := hrunning

/-- The system after a command. -/
def commanded (h : FtpHistory) (e : FtpEvent) : FtpSystem :=
  { h.system with manager := (e.command h.system.manager).2 }

theorem lifecycleStep_command {e : FtpEvent} {c : LastCommand}
    (haccepted : (e.command h.system.manager).1 = true) (hrecorded : e.recorded h.system = some c) :
    lifecycleStep files h e =
      { system := h.commanded e, last := some c, began := false, settled := false,
        dropped := h.dropped || (c == .restart && h.system.manager.reloadRequested) } := by
  cases e with
  | start => simp [lifecycleStep, haccepted, hrecorded, ftpStep, commanded]
  | stop => simp [lifecycleStep, haccepted, hrecorded, ftpStep, commanded]
  | restart reloadConfig => simp [lifecycleStep, haccepted, hrecorded, ftpStep, commanded]
  | shutdown => simp [FtpEvent.recorded] at hrecorded
  | worker io => simp [FtpEvent.recorded] at hrecorded

theorem lifecycleStep_refused {e : FtpEvent} (hrefused : (e.command h.system.manager).1 = false)
    (hworker : ∀ io, e ≠ .worker io) : lifecycleStep files h e = h := by
  cases e with
  | start => simp [lifecycleStep, hrefused]
  | stop => simp [lifecycleStep, hrefused]
  | restart reloadConfig => simp [lifecycleStep, hrefused]
  | shutdown => simp [FtpEvent.command] at hrefused
  | worker io => exact absurd rfl (hworker io)

/-- A start leaves the requests as they are. -/
theorem commanded_start (files : Nat → ConfigFile)
    (haccepted : (FtpEvent.command h.system.manager .start).1 = true) :
    (h.commanded .start).outcome files = (h.system.pendingOutcome files).getD true ∧
      (h.commanded .start).manager.shutdown = h.system.manager.shutdown ∧
      (h.commanded .start).manager.threadCreated = true := by
  simp only [FtpEvent.command, FtpManager.ftpServerStart] at haccepted
  split at haccepted
  · rename_i hcond
    have hthread := (Bool.and_eq_true_iff.1 hcond).1
    simp only [commanded, FtpEvent.command, FtpManager.ftpServerStart, hcond]
    exact ⟨rfl, rfl, hthread⟩
  · exact absurd haccepted Bool.false_ne_true

theorem commanded_stop (files : Nat → ConfigFile)
    (haccepted : (FtpEvent.command h.system.manager .stop).1 = true) :
    (h.commanded .stop).outcome files = (h.system.pendingOutcome files).getD false ∧
      (h.commanded .stop).manager.shutdown = h.system.manager.shutdown ∧
      (h.commanded .stop).manager.threadCreated = true := by
  simp only [FtpEvent.command, FtpManager.ftpServerStop] at haccepted
  split at haccepted
  · rename_i hcond
    have hstop : (h.commanded .stop).manager = { h.system.manager with
        desiredRunning := false
        status := { h.system.manager.status with
          state := if h.system.manager.serverInitialized then .stopping else .stopped } } := by
      simp [commanded, FtpEvent.command, FtpManager.ftpServerStop, hcond]
    refine ⟨?_, by rw [hstop], by rw [hstop]; exact hcond⟩
    rw [FtpSystem.outcome, hstop]
    rw [FtpSystem.pendingOutcome, hstop]
    rfl
  · exact absurd haccepted Bool.false_ne_true

/-- A restart or reload replaces the request before it. -/
theorem commanded_restart (files : Nat → ConfigFile) {reloadConfig : Bool}
    (haccepted : (FtpEvent.command h.system.manager (.restart reloadConfig)).1 = true) :
    (h.commanded (.restart reloadConfig)).outcome files =
        (if reloadConfig then (files h.system.nextLoad).serves else true) ∧
      (h.commanded (.restart reloadConfig)).manager.shutdown = h.system.manager.shutdown := by
  simp only [FtpEvent.command, FtpManager.ftpServerRestart] at haccepted
  split at haccepted
  · rename_i hcond
    simp only [commanded, FtpEvent.command, FtpManager.ftpServerRestart, hcond]
    cases reloadConfig
    · exact ⟨rfl, rfl⟩
    · exact ⟨rfl, rfl⟩
  · exact absurd haccepted Bool.false_ne_true

theorem inv_step (inv : h.Inv files) {e : FtpEvent} (horder : InOrder files h e) :
    (lifecycleStep files h e).Inv files := by
  cases hcase : (e.command h.system.manager).1 with
  | false =>
    cases e with
    | worker io => exact inv_worker inv io
    | _ => rw [lifecycleStep_refused hcase (by simp)]; exact inv
  | true =>
    have hcommand := horder hcase
    cases e with
    | worker io => exact inv_worker inv io
    | shutdown =>
      have hstep : lifecycleStep files h .shutdown = { h with system := h.commanded .shutdown } :=
        rfl
      have houtcome : (h.commanded .shutdown).outcome files = h.system.outcome files := rfl
      rw [hstep]
      refine ⟨inv.notDropped, ?_, inv.tracks.flags, inv.tracks.taken, fun hdown => ?_⟩
      · intro hcause c hc
        rw [houtcome]
        exact inv.tracks.outcome (Or.inr (hcause.resolve_left (by simp [commanded,
          FtpEvent.command, FtpManager.ftpServerShutdown]))) c hc
      · simp [commanded, FtpEvent.command, FtpManager.ftpServerShutdown] at hdown
    | start =>
      obtain ⟨houtcome, hshutdown, hthread⟩ := commanded_start files hcase
      rw [lifecycleStep_command hcase rfl]
      refine ⟨by simp [inv.notDropped], tracks_command ?_ fun hdown => ?_⟩
      · rw [hshutdown]
        exact inv.tracks.running
      · rw [houtcome]
        rw [hshutdown] at hdown
        have hpending := hcommand.resolve_left (by simp [hdown])
        cases hp : h.system.pendingOutcome files with
        | none => rfl
        | some b =>
          cases b with
          | false => exact absurd hp hpending
          | true => rfl
    | stop =>
      obtain ⟨houtcome, hshutdown, hthread⟩ := commanded_stop files hcase
      rw [lifecycleStep_command hcase rfl]
      refine ⟨by simp [inv.notDropped], tracks_command ?_ fun hdown => ?_⟩
      · rw [hshutdown]
        exact inv.tracks.running
      · rw [houtcome]
        rw [hshutdown] at hdown
        have hpending := hcommand.resolve_left (by simp [hdown])
        cases hp : h.system.pendingOutcome files with
        | none => rfl
        | some b =>
          cases b with
          | false => rfl
          | true => exact absurd hp hpending
    | restart reloadConfig =>
      obtain ⟨houtcome, hshutdown⟩ := commanded_restart files hcase
      cases reloadConfig with
      | false =>
        rw [lifecycleStep_command hcase rfl]
        refine ⟨?_, tracks_command ?_ fun _ => houtcome⟩
        · have hreload : h.system.manager.reloadRequested = false := hcommand
          simp [inv.notDropped, hreload]
        · rw [hshutdown]
          exact inv.tracks.running
      | true =>
        rw [lifecycleStep_command hcase rfl]
        refine ⟨by simp [inv.notDropped], tracks_command ?_ fun _ => houtcome⟩
        rw [hshutdown]
        exact inv.tracks.running

/-! ### A command that is not in order -/

/-- The worker can go on. -/
structure Alive (h : FtpHistory) : Prop where
  thread : h.system.manager.threadCreated = true
  shutdown : h.system.manager.shutdown = false
  running : h.system.pc ≠ .leaving ∧ h.system.pc ≠ .finished

theorem Alive.worker (alive : h.Alive) (files : Nat → ConfigFile) (io : WorkerAnswers) :
    (lifecycleStep files h (.worker io)).Alive ∧
      (lifecycleStep files h (.worker io)).system = ftpWorkerStep files h.system io := by
  have hsystem : (lifecycleStep files h (.worker io)).system = ftpWorkerStep files h.system io := by
    simp [lifecycleStep, ftpStep, alive.thread]
  refine ⟨⟨?_, ?_, ?_⟩, hsystem⟩
  · rw [hsystem]
    by_cases htop : h.system.pc = .top
    · simp [ftpWorkerStep, htop, alive.thread]
    · exact (worker_flags files io htop).2.2.2.trans alive.thread
  · rw [hsystem]
    by_cases htop : h.system.pc = .top
    · simp [ftpWorkerStep, htop, alive.shutdown]
    · exact (worker_flags files io htop).2.2.1.trans alive.shutdown
  · rw [hsystem]
    exact worker_running alive.shutdown alive.running

/-- Left alone, the worker completes its turn. -/
theorem Alive.completes (files : Nat → ConfigFile) (n : Nat) (alive : h.Alive)
    (hrank : h.system.pc.rank ≤ n) (htop : h.system.pc ≠ .top) :
    ∃ ios : List WorkerAnswers, ∃ h', Runs.run (lifecycleStep files) h (ios.map .worker) = h' ∧
      h'.Alive ∧ h'.last = h.last ∧ h'.system.pc = .top ∧ (h.began = true → h'.settled = true) := by
  have io : WorkerAnswers := ⟨0, true, 0⟩
  induction n generalizing h with
  | zero => cases hpc : h.system.pc <;> simp_all [WorkerPc.rank]
  | succ n ih =>
    obtain ⟨alive', hsystem⟩ := alive.worker files io
    have hlast := lifecycleStep_worker_last files h io
    have hbegan : (lifecycleStep files h (.worker io)).began = h.began := by
      simp [lifecycleStep, alive.thread, htop]
    have hless := worker_rank files io htop alive.running
    by_cases htop' : (lifecycleStep files h (.worker io)).system.pc = .top
    · refine ⟨[io], _, rfl, alive', hlast, htop', fun hb => ?_⟩
      have hpc : (ftpWorkerStep files h.system io).pc = .top := hsystem ▸ htop'
      simp [lifecycleStep, ftpStep, alive.thread, htop, hb, hpc]
    · rw [← hsystem] at hless
      obtain ⟨ios, h', hrun, halive, hlast', hpc, hsettled⟩ := ih alive' (by omega) htop'
      exact ⟨io :: ios, h', hrun, halive, hlast'.trans hlast, hpc, fun hb =>
        hsettled (hbegan.trans hb)⟩

/-- Left alone, it completes a turn that began after the last command. -/
theorem Alive.settles (alive : h.Alive) (files : Nat → ConfigFile) :
    ∃ ios : List WorkerAnswers, ∃ h', Runs.run (lifecycleStep files) h (ios.map .worker) = h' ∧
      h'.last = h.last ∧ h'.settled = true := by
  have io : WorkerAnswers := ⟨0, true, 0⟩
  have fromTop : ∀ h : FtpHistory, h.Alive → h.system.pc = .top →
      ∃ ios : List WorkerAnswers, ∃ h', Runs.run (lifecycleStep files) h (ios.map .worker) = h' ∧
        h'.last = h.last ∧ h'.settled = true := by
    intro h alive htop
    obtain ⟨alive', hsystem⟩ := alive.worker files io
    have hlast := lifecycleStep_worker_last files h io
    have hbegan : (lifecycleStep files h (.worker io)).began = true := by
      simp [lifecycleStep, alive.thread, alive.shutdown, htop]
    by_cases htop' : (lifecycleStep files h (.worker io)).system.pc = .top
    · refine ⟨[io], _, rfl, hlast, ?_⟩
      have hpc : (ftpWorkerStep files h.system io).pc = .top := hsystem ▸ htop'
      simp [lifecycleStep, ftpStep, alive.thread, alive.shutdown, htop, hpc]
    · obtain ⟨ios, h', hrun, -, hlast', -, hsettled⟩ :=
        alive'.completes files _ le_rfl htop'
      exact ⟨io :: ios, h', hrun, hlast'.trans hlast, hsettled hbegan⟩
  by_cases htop : h.system.pc = .top
  · exact fromTop h alive htop
  · obtain ⟨ios, h₁, hrun, halive, hlast, htop', -⟩ := alive.completes files _ le_rfl htop
    obtain ⟨ios', h₂, hrun', hlast', hsettled⟩ := fromTop h₁ halive htop'
    refine ⟨ios ++ ios', h₂, ?_, hlast'.trans hlast, hsettled⟩
    rw [List.map_append, Runs.run_append, hrun, hrun']

/-- A wrong outcome shows once the worker has settled. -/
theorem not_follows_of_outcome {c : LastCommand} (alive : h.Alive) (hc : h.last = some c)
    (tracks : h.Tracks files fun c outcome => outcome ≠ c.wants files) :
    ¬ FollowsWhenQuiet files h := by
  intro hquiet
  obtain ⟨ios, h', hrun, hlast, hsettled⟩ := alive.settles files
  have tracks' := tracks_quiet tracks ios
  rw [hrun] at tracks'
  have hfollows := hquiet ios
  rw [hrun] at hfollows
  obtain ⟨hrestart, hreload⟩ := tracks'.flags (Or.inr hsettled)
  exact tracks'.settled hsettled (hlast.trans hc)
    (hfollows.2 hsettled hrestart hreload c (hlast.trans hc))

theorem not_follows_of_not_inOrder (inv : h.Inv files) {e : FtpEvent}
    (horder : ¬ InOrder files h e) : ¬ FollowsWhenQuiet files (lifecycleStep files h e) := by
  unfold InOrder at horder
  rw [Classical.not_imp] at horder
  obtain ⟨hcase, hcommand⟩ := horder
  cases e with
  | worker io => exact absurd trivial hcommand
  | shutdown => exact absurd trivial hcommand
  | start =>
    obtain ⟨hdown, hpending⟩ := not_or.1 hcommand
    have hdown' : h.system.manager.shutdown = false := by simpa using hdown
    obtain ⟨houtcome, hshutdown, hthread⟩ := commanded_start files hcase
    rw [lifecycleStep_command hcase rfl]
    refine not_follows_of_outcome ⟨hthread, hshutdown.trans hdown', inv.tracks.running hdown'⟩ rfl
      (tracks_command (fun _ => inv.tracks.running hdown') fun _ => ?_)
    rw [houtcome, not_not.1 hpending]
    exact Bool.false_ne_true
  | stop =>
    obtain ⟨hdown, hpending⟩ := not_or.1 hcommand
    have hdown' : h.system.manager.shutdown = false := by simpa using hdown
    obtain ⟨houtcome, hshutdown, hthread⟩ := commanded_stop files hcase
    rw [lifecycleStep_command hcase rfl]
    refine not_follows_of_outcome ⟨hthread, hshutdown.trans hdown', inv.tracks.running hdown'⟩ rfl
      (tracks_command (fun _ => inv.tracks.running hdown') fun _ => ?_)
    rw [houtcome, not_not.1 hpending]
    exact Bool.false_ne_true.symm
  | restart reloadConfig =>
    cases reloadConfig with
    | true => exact absurd trivial hcommand
    | false =>
      intro hquiet
      have hreload : h.system.manager.reloadRequested = true := by simpa using hcommand
      have hdropped := (hquiet []).1
      rw [List.map_nil, Runs.run_nil, lifecycleStep_command hcase rfl] at hdropped
      simp [hreload] at hdropped

theorem inv_init (files : Nat → ConfigFile) (storageAvailable : Bool) (threadResult : Int) :
    (lifecycleInit files storageAvailable threadResult).Inv files where
  notDropped := rfl
  tracks :=
    { outcome := fun _ c hc => by simp [lifecycleInit] at hc
      flags := fun h => by simp [lifecycleInit] at h
      taken := fun h => by simp [lifecycleInit] at h
      running := fun _ => by simp [lifecycleInit, ftpServerInitialize] }

end FtpHistory

/-! ## Commands and their order -/

/-- The server follows the last accepted command, and no reload is lost, in every state of a run
    and when the worker goes on alone from it, exactly when every command of the run is in
    order. -/
theorem ftp_follows_last_command_iff (files : Nat → ConfigFile) (storageAvailable : Bool)
    (threadResult : Int) (events : List FtpEvent) :
    Runs.Always (lifecycleStep files) (FollowsWhenQuiet files)
        (lifecycleInit files storageAvailable threadResult) events ↔
      Runs.EachStep (lifecycleStep files) (InOrder files)
        (lifecycleInit files storageAvailable threadResult) events :=
  Runs.always_iff_eachStep_unbounded (fun _ _ inv horder => FtpHistory.inv_step inv horder)
    (fun _ inv => inv.followsWhenQuiet)
    (fun _ _ inv horder => FtpHistory.not_follows_of_not_inOrder inv horder)
    (FtpHistory.inv_init files storageAvailable threadResult)

/-- A stop that finds a restart waiting: two turns later the server is wanted. -/
theorem stop_undone_by_earlier_restart :
    ∃ h, h = Runs.run (lifecycleStep fun _ => .missing) (lifecycleInit (fun _ => .missing) true 0)
        (.restart false :: .stop :: List.replicate 8 (.worker ⟨0, true, 0⟩)) ∧
      h.last = some .stop ∧ h.settled = true ∧ ¬ FollowsLastCommand (fun _ => .missing) h := by
  refine ⟨_, rfl, by decide, by decide, fun hfollows => ?_⟩
  exact absurd (hfollows.2 (by decide) (by decide) (by decide) .stop (by decide)) (by decide)

end SysAgent
