import Mathlib
import SysAgent.Ftp.Lifecycle

set_option autoImplicit false

/-! # With which configuration the FTP server is started

A configuration counts as valid together with the result of the load it comes from. A call of
`ftpsrv_init` with the configuration of a failed load needs a restart that was accepted while the
worker was carrying out the reload that fails. -/

namespace SysAgent

/-- The call was made with what a load accepted. -/
def InitCall.Valid (files : Nat → ConfigFile) (call : InitCall) : Prop :=
  call.configResult = .ok ∧
    ∃ n config, ftpConfigLoad (files n) = (call.configResult, config) ∧
      call.config = populateLibraryConfig config

/-- The server asks for a user and a password, or is anonymous. -/
def InitCall.Credentialed (call : InitCall) : Prop :=
  call.config.anon = true ∨ (call.config.user ≠ [] ∧ call.config.pass ≠ [])

theorem InitCall.Valid.credentialed {files : Nat → ConfigFile} {call : InitCall}
    (h : call.Valid files) : call.Credentialed := by
  obtain ⟨hok, n, config, hload, hconfig⟩ := h
  rw [hok] at hload
  unfold InitCall.Credentialed
  rw [hconfig]
  exact credentialed_of_load hload

def ServesValid (files : Nat → ConfigFile) (s : FtpSystem) : Prop :=
  ∀ call ∈ s.inits, call.Valid files ∧ call.Credentialed

/-- The same when the worker goes on alone. -/
def ServesValidWhenQuiet (files : Nat → ConfigFile) (s : FtpSystem) : Prop :=
  ∀ ios : List WorkerAnswers, ServesValid files (Runs.run (ftpStep files) s (ios.map .worker))

/-- A restart is accepted while a reload that will fail is being carried out. -/
def RestartOverFailingReload (files : Nat → ConfigFile) (s : FtpSystem) (e : FtpEvent) : Prop :=
  match e with
  | .restart false => (e.command s.manager).1 = true ∧ s.manager.shutdown = false ∧
      s.reloadTaken = true ∧ (ftpConfigLoad (files s.loads)).1 ≠ .ok
  | _ => False

/-! ## The invariant -/

/-- What the worker relies on at its program counter; `result` is the one in the manager. -/
def WorkerPc.Relies (pc : WorkerPc) (l : WorkerLocals) (result : FtpConfigResult) : Prop :=
  match pc with
  | .stopForRequest | .stoppedForRequest => l.reload = false →
      (l.restart = true → result = .ok ∧ l.configResult = .ok) ∧
      (l.desired = true → l.configResult = .ok)
  | .restart => result = .ok ∧ l.configResult = .ok
  | .stopUnwanted | .stoppedUnwanted => l.desired = true → l.configResult = .ok
  | .starting | .init => l.configResult = .ok
  | _ => True

section Relies

variable {l : WorkerLocals} {result : FtpConfigResult}

theorem relies_afterInit : l.afterInit.Relies l result := by
  unfold WorkerLocals.afterInit
  split <;> trivial

theorem relies_afterUnwanted (h : l.desired = true → l.configResult = .ok) :
    l.afterUnwanted.Relies l result := by
  unfold WorkerLocals.afterUnwanted
  split
  · rename_i hcond
    exact h (Bool.and_eq_true_iff.1 hcond).1
  · exact relies_afterInit

theorem relies_afterRequest (h : l.desired = true → l.configResult = .ok) :
    l.afterRequest.Relies l result := by
  unfold WorkerLocals.afterRequest
  split
  · exact h
  · exact relies_afterUnwanted h

theorem relies_afterTakeDown
    (h : l.reload = false → (l.restart = true → result = .ok ∧ l.configResult = .ok) ∧
      (l.desired = true → l.configResult = .ok)) : l.afterTakeDown.Relies l result := by
  unfold WorkerLocals.afterTakeDown
  split
  · trivial
  · rename_i hreload
    obtain ⟨hrestart, hdesired⟩ := h (by simpa using hreload)
    split
    · rename_i hcond
      exact hrestart hcond
    · exact relies_afterRequest hdesired

theorem relies_afterTop
    (h : l.reload = false → (l.restart = true → result = .ok ∧ l.configResult = .ok) ∧
      (l.desired = true → l.configResult = .ok)) : l.afterTop.Relies l result := by
  unfold WorkerLocals.afterTop
  split
  · exact h
  · exact relies_afterTakeDown h

end Relies

namespace FtpSystem

variable {files : Nat → ConfigFile} {s : FtpSystem}

structure ServingInv (files : Nat → ConfigFile) (s : FtpSystem) : Prop where
  inits : ServesValid files s
  loaded : s.manager.threadCreated = true →
    ∃ n, ftpConfigLoad (files n) = (s.manager.status.configResult, s.manager.status.config)
  loadedLocal : s.manager.threadCreated = true →
    ∃ n, ftpConfigLoad (files n) = (s.locals.configResult, s.locals.config)
  desired : s.manager.desiredRunning = true → s.manager.status.configResult = .ok
  /-- A waiting restart will find an accepted configuration. -/
  restart : s.manager.restartRequested = true → s.manager.shutdown = false →
    if s.reloadTaken then (ftpConfigLoad (files s.loads)).1 = .ok
    else s.manager.status.configResult = .ok
  relies : s.pc.Relies s.locals s.manager.status.configResult

/-- What a load leaves in the manager. -/
theorem loadConfig_source (m : FtpManager) (loaded : FtpConfigResult × FtpConfig) :
    loaded = ((m.loadConfig loaded).status.configResult, (m.loadConfig loaded).status.config) ∧
      ((m.loadConfig loaded).desiredRunning = true →
        (m.loadConfig loaded).status.configResult = .ok) := by
  simp only [FtpManager.loadConfig]
  split
  · exact ⟨rfl, fun h => absurd h Bool.false_ne_true⟩
  · rename_i hok
    exact ⟨rfl, fun _ => not_not.1 hok⟩

/-- What `ftpServerInitialize` leaves in it. -/
theorem initialize_source (file : ConfigFile) (storageAvailable : Bool) (threadResult : Int) :
    let m := FtpManager.ftpServerInitialize file storageAvailable threadResult
    (m.threadCreated = true → ftpConfigLoad file = (m.status.configResult, m.status.config)) ∧
      (m.desiredRunning = true → m.status.configResult = .ok) ∧ m.restartRequested = false := by
  have hsource := loadConfig_source .zero (ftpConfigLoad file)
  have hrestart : (FtpManager.zero.loadConfig (ftpConfigLoad file)).restartRequested = false := by
    rw [FtpManager.loadConfig]
    split <;> rfl
  have hthread : (FtpManager.zero.loadConfig (ftpConfigLoad file)).threadCreated = false := by
    rw [FtpManager.loadConfig]
    split <;> rfl
  cases storageAvailable with
  | false => exact ⟨fun h => absurd h Bool.false_ne_true, fun h => absurd h Bool.false_ne_true, rfl⟩
  | true =>
    simp only [FtpManager.ftpServerInitialize, Bool.not_true, Bool.false_eq_true, if_false]
    split
    · exact ⟨fun _ => hsource.1, hsource.2, hrestart⟩
    · exact ⟨fun h => absurd (hthread.symm.trans h) Bool.false_ne_true,
        fun h => absurd h Bool.false_ne_true, hrestart⟩

theorem servingInv_init (files : Nat → ConfigFile) (storageAvailable : Bool)
    (threadResult : Int) :
    ServingInv files (ftpServerInitialize files storageAvailable threadResult) := by
  obtain ⟨hloaded, hdesired, hrestart⟩ := initialize_source (files 0) storageAvailable threadResult
  exact
    { inits := by simp [ServesValid, ftpServerInitialize]
      loaded := fun h => ⟨0, hloaded h⟩
      loadedLocal := fun h => ⟨0, hloaded h⟩
      desired := hdesired
      restart := fun h => absurd (hrestart.symm.trans h) Bool.false_ne_true
      relies := trivial }

/-! ## The worker -/

/-- Between requests the worker does not touch the configuration. -/
theorem worker_config (files : Nat → ConfigFile) (io : WorkerAnswers) (hpc : s.pc ≠ .loadConfig) :
    (ftpWorkerStep files s io).manager.status.configResult = s.manager.status.configResult ∧
      (ftpWorkerStep files s io).manager.status.config = s.manager.status.config ∧
      (ftpWorkerStep files s io).loads = s.loads := by
  cases hs : s.pc with
  | loadConfig => exact absurd hs hpc
  | loop =>
    simp only [ftpWorkerStep, hs]
    split <;> exact ⟨rfl, rfl, rfl⟩
  | _ => simp only [ftpWorkerStep, hs, FtpManager.setState, and_self]

theorem worker_reloadTaken (files : Nat → ConfigFile) (io : WorkerAnswers) (htop : s.pc ≠ .top)
    (hload : s.pc ≠ .loadConfig) : (ftpWorkerStep files s io).reloadTaken = s.reloadTaken := by
  cases hdone : s.pc.requestDone with
  | true =>
    rw [reloadTaken_of_done hdone, reloadTaken_of_done (worker_done files io hdone htop).1]
  | false =>
    cases hpc : s.pc with
    | stopForRequest => simp only [ftpWorkerStep, reloadTaken, hpc]
    | stoppedForRequest =>
      cases hreload : s.locals.reload with
      | true => simp [ftpWorkerStep, reloadTaken, hpc, hreload, WorkerLocals.afterTakeDown]
      | false =>
        cases hrestart : s.locals.restart with
        | true =>
          simp [ftpWorkerStep, reloadTaken, hpc, hreload, hrestart, WorkerLocals.afterTakeDown]
        | false =>
          have hdone' : (ftpWorkerStep files s io).pc.requestDone = true := by
            simp only [ftpWorkerStep, hpc, WorkerLocals.afterTakeDown, hreload, hrestart]
            exact afterRequest_done _
          rw [reloadTaken_of_done hdone']
          simp [reloadTaken, hpc, hreload]
    | loadConfig => exact absurd hpc hload
    | restart =>
      have hdone' : (ftpWorkerStep files s io).pc.requestDone = true := by
        simp only [ftpWorkerStep, hpc, afterRequest_done]
      rw [reloadTaken_of_done hdone']
      simp [reloadTaken, hpc]
    | _ => simp [hpc, WorkerPc.requestDone] at hdone

/-- `desiredRunning` is set to true by a load and by a restart only. -/
theorem worker_desired (files : Nat → ConfigFile) (io : WorkerAnswers)
    (hload : s.pc ≠ .loadConfig) (hrestart : s.pc ≠ .restart) :
    (ftpWorkerStep files s io).manager.desiredRunning = s.manager.desiredRunning := by
  cases hs : s.pc with
  | loadConfig => exact absurd hs hload
  | restart => exact absurd hs hrestart
  | loop =>
    simp only [ftpWorkerStep, hs]
    split <;> rfl
  | _ => simp only [ftpWorkerStep, hs, FtpManager.setState]

/-- Only the step of `ftpsrv_init` adds a call. -/
theorem worker_inits (files : Nat → ConfigFile) (io : WorkerAnswers) (hinit : s.pc ≠ .init) :
    (ftpWorkerStep files s io).inits = s.inits := by
  cases hs : s.pc with
  | init => exact absurd hs hinit
  | loop =>
    simp only [ftpWorkerStep, hs]
    split <;> rfl
  | _ => simp only [ftpWorkerStep, hs]

/-- Where the configuration in the locals comes from. -/
theorem worker_localConfig (files : Nat → ConfigFile) (io : WorkerAnswers) :
    ((ftpWorkerStep files s io).locals.configResult = s.locals.configResult ∧
        (ftpWorkerStep files s io).locals.config = s.locals.config) ∨
      ((ftpWorkerStep files s io).locals.configResult = s.manager.status.configResult ∧
        (ftpWorkerStep files s io).locals.config = s.manager.status.config) := by
  cases hs : s.pc with
  | top => exact Or.inr (by simp [ftpWorkerStep, hs, FtpManager.snapshot])
  | readBack => exact Or.inr (by simp [ftpWorkerStep, hs])
  | loop =>
    left
    simp only [ftpWorkerStep, hs]
    split <;> exact ⟨rfl, rfl⟩
  | _ => exact Or.inl (by simp [ftpWorkerStep, hs])

theorem worker_relies (inv : s.ServingInv files) (io : WorkerAnswers) :
    (ftpWorkerStep files s io).pc.Relies (ftpWorkerStep files s io).locals
      (ftpWorkerStep files s io).manager.status.configResult := by
  have hrelies := inv.relies
  cases hs : s.pc with
  | top =>
    cases hdown : s.manager.shutdown with
    | true => simp [ftpWorkerStep, hs, hdown, WorkerPc.Relies]
    | false =>
      simp only [ftpWorkerStep, hs, hdown]
      refine relies_afterTop fun _ => ⟨fun hrestart => ?_, inv.desired⟩
      have hok := inv.restart hrestart hdown
      rw [reloadTaken_of_done (by rw [hs]; rfl)] at hok
      exact ⟨hok, hok⟩
  | stopForRequest =>
    rw [hs] at hrelies
    simp only [ftpWorkerStep, hs]
    exact hrelies
  | stoppedForRequest =>
    rw [hs] at hrelies
    simp only [ftpWorkerStep, hs]
    exact relies_afterTakeDown hrelies
  | loadConfig => simp [ftpWorkerStep, hs, WorkerPc.Relies]
  | readBack =>
    simp only [ftpWorkerStep, hs]
    exact relies_afterRequest inv.desired
  | restart =>
    rw [hs] at hrelies
    simp only [ftpWorkerStep, hs]
    exact relies_afterRequest fun _ => hrelies.2
  | stopUnwanted =>
    rw [hs] at hrelies
    simp only [ftpWorkerStep, hs]
    exact hrelies
  | stoppedUnwanted =>
    rw [hs] at hrelies
    simp only [ftpWorkerStep, hs]
    exact relies_afterUnwanted hrelies
  | starting =>
    rw [hs] at hrelies
    simp only [ftpWorkerStep, hs]
    exact hrelies
  | init =>
    simp only [ftpWorkerStep, hs]
    split <;> trivial
  | initFailed =>
    simp only [ftpWorkerStep, hs]
    exact relies_afterInit
  | initDone =>
    simp only [ftpWorkerStep, hs]
    exact relies_afterInit
  | loop =>
    simp only [ftpWorkerStep, hs]
    split
    · trivial
    · show WorkerPc.Relies (if _ then .drop else .top) _ _
      split <;> trivial
  | drop => simp [ftpWorkerStep, hs, WorkerPc.Relies]
  | leaving => simp [ftpWorkerStep, hs, WorkerPc.Relies]
  | finished => simp [ftpWorkerStep, hs, WorkerPc.Relies]

theorem servingInv_worker (inv : s.ServingInv files) (io : WorkerAnswers) :
    (ftpStep files s (.worker io)).ServingInv files := by
  cases hthread : s.manager.threadCreated with
  | false =>
    have hstep : ftpStep files s (.worker io) = s := by simp [ftpStep, hthread]
    rw [hstep]
    exact inv
  | true =>
    have hstep : ftpStep files s (.worker io) = ftpWorkerStep files s io := by
      simp [ftpStep, hthread]
    obtain ⟨n, hloaded⟩ := inv.loaded hthread
    obtain ⟨k, hlocal⟩ := inv.loadedLocal hthread
    rw [hstep]
    refine ⟨?_, fun _ => ?_, fun _ => ?_, ?_, ?_, worker_relies inv io⟩
    · by_cases hinit : s.pc = .init
      · have hok : s.locals.configResult = .ok := by
          have hrelies := inv.relies
          rw [hinit] at hrelies
          exact hrelies
        have hinits : (ftpWorkerStep files s io).inits = s.inits ++
            [{ config := populateLibraryConfig s.locals.config,
               configResult := s.locals.configResult }] := by
          simp [ftpWorkerStep, hinit]
        intro call hcall
        rw [hinits] at hcall
        rcases List.mem_append.1 hcall with hcall | hcall
        · exact inv.inits call hcall
        · rw [List.mem_singleton.1 hcall]
          have hvalid : InitCall.Valid files
              { config := populateLibraryConfig s.locals.config,
                configResult := s.locals.configResult } := ⟨hok, k, s.locals.config, hlocal, rfl⟩
          exact ⟨hvalid, hvalid.credentialed⟩
      · unfold ServesValid
        rw [worker_inits files io hinit]
        exact inv.inits
    · by_cases hload : s.pc = .loadConfig
      · refine ⟨s.loads, ?_⟩
        have hmanager : (ftpWorkerStep files s io).manager =
            s.manager.loadConfig (ftpConfigLoad (files s.loads)) := by
          simp [ftpWorkerStep, hload]
        rw [hmanager]
        exact (loadConfig_source _ _).1
      · obtain ⟨hresult, hconfig, -⟩ := worker_config files io hload
        exact ⟨n, by rw [hresult, hconfig, hloaded]⟩
    · rcases worker_localConfig (s := s) files io with ⟨hresult, hconfig⟩ | ⟨hresult, hconfig⟩
      · exact ⟨k, by rw [hresult, hconfig, hlocal]⟩
      · exact ⟨n, by rw [hresult, hconfig, hloaded]⟩
    · by_cases hload : s.pc = .loadConfig
      · have hmanager : (ftpWorkerStep files s io).manager =
            s.manager.loadConfig (ftpConfigLoad (files s.loads)) := by
          simp [ftpWorkerStep, hload]
        rw [hmanager]
        exact (loadConfig_source _ _).2
      · rw [(worker_config files io hload).1]
        by_cases hrestart : s.pc = .restart
        · have hrelies := inv.relies
          rw [hrestart] at hrelies
          exact fun _ => hrelies.1
        · rw [worker_desired files io hload hrestart]
          exact inv.desired
    · by_cases htop : s.pc = .top
      · intro hrequested
        simp [ftpWorkerStep, htop] at hrequested
      · obtain ⟨hrestart, -, hshutdown, -⟩ := worker_flags files io htop
        rw [hrestart, hshutdown]
        intro hrequested hdown
        have hok := inv.restart hrequested hdown
        by_cases hload : s.pc = .loadConfig
        · have hmanager : (ftpWorkerStep files s io).manager =
              s.manager.loadConfig (ftpConfigLoad (files s.loads)) := by
            simp [ftpWorkerStep, hload]
          have hdone : (ftpWorkerStep files s io).reloadTaken = false :=
            reloadTaken_of_done (by simp [ftpWorkerStep, hload, WorkerPc.requestDone])
          have htaken : s.reloadTaken = true := by simp [reloadTaken, hload]
          rw [htaken] at hok
          have hsource := (loadConfig_source s.manager (ftpConfigLoad (files s.loads))).1
          rw [hdone, hmanager]
          exact (congrArg Prod.fst hsource).symm.trans hok
        · obtain ⟨hresult, -, hloads⟩ := worker_config files io hload
          rw [worker_reloadTaken files io htop hload, hresult, hloads]
          exact hok

/-! ## Commands -/

/-- A command touches the flags only. -/
theorem servingInv_manager (inv : s.ServingInv files) {m : FtpManager}
    (hthread : m.threadCreated = s.manager.threadCreated)
    (hresult : m.status.configResult = s.manager.status.configResult)
    (hconfig : m.status.config = s.manager.status.config)
    (hdesired : m.desiredRunning = true → s.manager.status.configResult = .ok)
    (hrestart : m.restartRequested = true → m.shutdown = false →
      if s.reloadTaken then (ftpConfigLoad (files s.loads)).1 = .ok
      else s.manager.status.configResult = .ok) :
    ServingInv files { s with manager := m } where
  inits := inv.inits
  loaded h := by
    rw [hresult, hconfig]
    exact inv.loaded (hthread ▸ h)
  loadedLocal h := inv.loadedLocal (hthread ▸ h)
  desired := by
    rw [hresult]
    exact hdesired
  restart := by
    rw [hresult]
    exact hrestart
  relies := by
    rw [hresult]
    exact inv.relies

theorem servingInv_step (inv : s.ServingInv files) {e : FtpEvent}
    (horder : ¬ RestartOverFailingReload files s e) : (ftpStep files s e).ServingInv files := by
  cases e with
  | worker io => exact servingInv_worker inv io
  | shutdown =>
    exact servingInv_manager inv rfl rfl rfl inv.desired fun _ hdown =>
      absurd hdown (by simp [FtpEvent.command, FtpManager.ftpServerShutdown])
  | start =>
    simp only [ftpStep, FtpEvent.command, FtpManager.ftpServerStart]
    split
    · rename_i hcond
      have hok : s.manager.status.configResult = .ok :=
        beq_iff_eq.1 (Bool.and_eq_true_iff.1 hcond).2
      exact servingInv_manager inv rfl rfl rfl (fun _ => hok) inv.restart
    · exact inv
  | stop =>
    simp only [ftpStep, FtpEvent.command, FtpManager.ftpServerStop]
    split
    · exact servingInv_manager inv rfl rfl rfl (fun h => absurd h Bool.false_ne_true) inv.restart
    · exact inv
  | restart reloadConfig =>
    cases reloadConfig with
    | true =>
      simp only [ftpStep, FtpEvent.command, FtpManager.ftpServerRestart]
      split
      · exact servingInv_manager inv rfl rfl rfl inv.desired
          fun h => absurd h Bool.false_ne_true
      · exact inv
    | false =>
      simp only [RestartOverFailingReload, FtpEvent.command, FtpManager.ftpServerRestart] at horder
      simp only [ftpStep, FtpEvent.command, FtpManager.ftpServerRestart]
      split at horder
      · rename_i hcond
        rw [if_pos hcond]
        have hok : s.manager.status.configResult = .ok := by
          simpa using (Bool.and_eq_true_iff.1 hcond).2
        refine servingInv_manager inv rfl rfl rfl inv.desired fun _ hdown => ?_
        cases htaken : s.reloadTaken with
        | false => exact hok
        | true =>
          by_contra hbad
          exact horder ⟨rfl, hdown, htaken, hbad⟩
      · rename_i hcond
        rw [if_neg hcond]
        exact inv

theorem ServingInv.whenQuiet (inv : s.ServingInv files) : ServesValidWhenQuiet files s := by
  intro ios
  induction ios generalizing s with
  | nil => exact inv.inits
  | cons io ios ih => exact ih (servingInv_worker inv io)

/-! ## A restart over a failing reload -/

/-- The state such a restart leaves, until the worker takes it up. -/
structure Doomed (files : Nat → ConfigFile) (s : FtpSystem) : Prop where
  thread : s.manager.threadCreated = true
  shutdown : s.manager.shutdown = false
  running : s.pc ≠ .leaving ∧ s.pc ≠ .finished
  restart : s.manager.restartRequested = true
  reload : s.manager.reloadRequested = false
  result : (s.reloadTaken = true ∧ (ftpConfigLoad (files s.loads)).1 ≠ .ok) ∨
    (s.reloadTaken = false ∧ s.manager.status.configResult ≠ .ok)

theorem Doomed.worker (doomed : s.Doomed files) (io : WorkerAnswers) (htop : s.pc ≠ .top) :
    (ftpWorkerStep files s io).Doomed files := by
  obtain ⟨hrestart, hreload, hshutdown, hthread⟩ := worker_flags files io htop
  refine ⟨hthread.trans doomed.thread, hshutdown.trans doomed.shutdown,
    worker_running doomed.shutdown doomed.running, hrestart.trans doomed.restart,
    hreload.trans doomed.reload, ?_⟩
  by_cases hload : s.pc = .loadConfig
  · have htaken : s.reloadTaken = true := by simp [reloadTaken, hload]
    have hbad : (ftpConfigLoad (files s.loads)).1 ≠ .ok := by
      rcases doomed.result with ⟨-, hbad⟩ | ⟨hnot, -⟩
      · exact hbad
      · exact absurd (htaken.symm.trans hnot) (by simp)
    have hmanager : (ftpWorkerStep files s io).manager =
        s.manager.loadConfig (ftpConfigLoad (files s.loads)) := by
      simp [ftpWorkerStep, hload]
    have hsource := (loadConfig_source s.manager (ftpConfigLoad (files s.loads))).1
    refine Or.inr ⟨reloadTaken_of_done (by simp [ftpWorkerStep, hload, WorkerPc.requestDone]), ?_⟩
    rw [hmanager]
    exact fun hok => hbad ((congrArg Prod.fst hsource).trans hok)
  · obtain ⟨hresult, -, hloads⟩ := worker_config files io hload
    rw [worker_reloadTaken files io htop hload, hresult, hloads]
    exact doomed.result

/-- Left alone, the worker comes back to the top of its loop. -/
theorem Doomed.reachesTop (n : Nat) (doomed : s.Doomed files) (hrank : s.pc.rank ≤ n) :
    ∃ ios : List WorkerAnswers, ∃ t, Runs.run (ftpStep files) s (ios.map .worker) = t ∧
      t.Doomed files ∧ t.pc = .top := by
  have io : WorkerAnswers := ⟨0, true, 0⟩
  induction n generalizing s with
  | zero =>
    refine ⟨[], s, rfl, doomed, ?_⟩
    cases hpc : s.pc <;> simp_all [WorkerPc.rank]
  | succ n ih =>
    by_cases htop : s.pc = .top
    · exact ⟨[], s, rfl, doomed, htop⟩
    · have hstep : ftpStep files s (.worker io) = ftpWorkerStep files s io := by
        simp [ftpStep, doomed.thread]
      have hless := worker_rank files io htop doomed.running
      obtain ⟨ios, t, hrun, hdoomed, htop'⟩ := ih (doomed.worker io htop) (by omega)
      exact ⟨io :: ios, t, by rw [List.map_cons, Runs.run_cons, hstep, hrun], hdoomed, htop'⟩

/-- From the write of a restart on, `ftpsrv_init` is called within three steps. -/
theorem exists_init_of_restart (files : Nat → ConfigFile)
    (hthread : s.manager.threadCreated = true) (hpc : s.pc = .restart)
    (hdown : s.locals.initialized = false) (hbad : s.locals.configResult ≠ .ok) :
    ∃ ios : List WorkerAnswers,
      ¬ ServesValid files (Runs.run (ftpStep files) s (ios.map .worker)) := by
  have io : WorkerAnswers := ⟨0, true, 0⟩
  refine ⟨[io, io, io], fun hvalid => ?_⟩
  have hinit : (Runs.run (ftpStep files) s ([io, io, io].map .worker)).inits = s.inits ++
      [{ config := populateLibraryConfig s.locals.config,
         configResult := s.locals.configResult }] := by
    simp [ftpStep, ftpWorkerStep, hthread, hpc, hdown, WorkerLocals.afterRequest,
      WorkerLocals.afterUnwanted, FtpManager.setState]
  have hcall := hvalid _ (hinit ▸ List.mem_append_right _ (List.mem_singleton_self _))
  exact hbad hcall.1.1

theorem Doomed.not_servesValid (doomed : s.Doomed files) : ¬ ServesValidWhenQuiet files s := by
  intro hquiet
  have io : WorkerAnswers := ⟨0, true, 0⟩
  obtain ⟨ios, t, hrun, hdoomed, htop⟩ := doomed.reachesTop _ le_rfl
  have hbad : t.manager.status.configResult ≠ .ok := by
    rcases hdoomed.result with ⟨htaken, -⟩ | ⟨-, hbad⟩
    · rw [reloadTaken_of_done (by rw [htop]; rfl)] at htaken
      exact absurd htaken Bool.false_ne_true
    · exact hbad
  -- the way from the top to the write of the restart
  obtain ⟨more, u, hrun', hthread, hpc, hdown, hbad'⟩ : ∃ more : List WorkerAnswers, ∃ u,
      Runs.run (ftpStep files) t (more.map .worker) = u ∧ u.manager.threadCreated = true ∧
        u.pc = .restart ∧ u.locals.initialized = false ∧ u.locals.configResult ≠ .ok := by
    cases hup : t.manager.serverInitialized with
    | false =>
      refine ⟨[io], _, rfl, ?_⟩
      simp [ftpStep, ftpWorkerStep, hdoomed.thread, hdoomed.shutdown, hdoomed.restart,
        hdoomed.reload, htop, hup, hbad, WorkerLocals.afterTop, WorkerLocals.afterTakeDown,
        FtpManager.snapshot]
    | true =>
      refine ⟨[io, io, io], _, rfl, ?_⟩
      simp [ftpStep, ftpWorkerStep, hdoomed.thread, hdoomed.shutdown, hdoomed.restart,
        hdoomed.reload, htop, hup, hbad, WorkerLocals.afterTop, WorkerLocals.afterTakeDown,
        FtpManager.snapshot, FtpManager.setState]
  obtain ⟨last, hinvalid⟩ := exists_init_of_restart files hthread hpc hdown hbad'
  apply hinvalid
  have hall := hquiet (ios ++ more ++ last)
  rwa [List.map_append, List.map_append, Runs.run_append, Runs.run_append, hrun, hrun'] at hall

theorem not_servesValid_of_restart {e : FtpEvent}
    (horder : RestartOverFailingReload files s e) :
    ¬ ServesValidWhenQuiet files (ftpStep files s e) := by
  cases e with
  | restart reloadConfig =>
    cases reloadConfig with
    | true => exact absurd horder id
    | false =>
      obtain ⟨hcase, hdown, htaken, hbad⟩ := horder
      simp only [FtpEvent.command, FtpManager.ftpServerRestart] at hcase
      split at hcase
      · rename_i hcond
        have hrunning : s.pc ≠ .leaving ∧ s.pc ≠ .finished := by
          constructor
          · intro hpc
            simp [reloadTaken, hpc] at htaken
          · intro hpc
            simp [reloadTaken, hpc] at htaken
        refine Doomed.not_servesValid ?_
        simp only [ftpStep, FtpEvent.command, FtpManager.ftpServerRestart, if_pos hcond]
        exact
          { thread := (Bool.and_eq_true_iff.1 hcond).1
            shutdown := hdown
            running := hrunning
            restart := rfl
            reload := rfl
            result := Or.inl ⟨htaken, hbad⟩ }
      · exact absurd hcase Bool.false_ne_true
  | _ => exact absurd horder id

end FtpSystem

/-! ## Valid configurations -/

/-- `ftpsrv_init` is called with accepted configurations only, in every state of a run and when the
    worker goes on alone from it, exactly when no restart of the run is accepted while the worker
    is carrying out a reload whose file is not accepted. -/
theorem ftp_serves_valid_iff (files : Nat → ConfigFile) (storageAvailable : Bool)
    (threadResult : Int) (events : List FtpEvent) :
    Runs.Always (ftpStep files) (ServesValidWhenQuiet files)
        (ftpServerInitialize files storageAvailable threadResult) events ↔
      Runs.EachStep (ftpStep files) (fun s e => ¬ RestartOverFailingReload files s e)
        (ftpServerInitialize files storageAvailable threadResult) events := by
  have hbreak : ∀ s e, s.ServingInv files → ¬ ¬ RestartOverFailingReload files s e →
      ¬ ServesValidWhenQuiet files (ftpStep files s e) :=
    fun _ _ _ horder => FtpSystem.not_servesValid_of_restart (not_not.1 horder)
  exact Runs.always_iff_eachStep_unbounded
    (fun _ _ inv horder => FtpSystem.servingInv_step inv horder)
    (fun _ inv => inv.whenQuiet) hbreak
    (FtpSystem.servingInv_init files storageAvailable threadResult)

/-- The second load finds a line that is not accepted (an opening bracket); a restart is accepted
    while the worker is on its way to that load. -/
theorem restart_over_failing_reload_serves_invalid :
    ∃ (files : Nat → ConfigFile) (events : List FtpEvent),
      ¬ ServesValid files (Runs.run (ftpStep files) (ftpServerInitialize files true 0) events) := by
  have hinit : InitCall.mk (populateLibraryConfig ftpConfigDefaults) .invalidValue ∈
        (Runs.run (ftpStep fun n => if n = 0 then .missing else .readable [0x5B] true)
          (ftpServerInitialize (fun n => if n = 0 then .missing else .readable [0x5B] true) true 0)
          (.restart true :: .worker ⟨0, true, 0⟩ :: .restart false ::
            List.replicate 6 (.worker ⟨0, true, 0⟩))).inits := by
    decide
  exact ⟨_, _, fun hvalid => absurd (hvalid _ hinit).1.1 (by decide)⟩

end SysAgent
