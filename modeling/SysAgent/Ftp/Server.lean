import Mathlib
import SysAgent.Ftp.Config

set_option autoImplicit false

/-! # The FTP server manager (`ftp_server.c`)

Commands and the worker thread share `manager` under its mutex. Each function of the command side
is one critical section; `ftpWorker` is a thread with a program counter, and each of its steps is
one critical section together with the library calls before it. -/

namespace SysAgent

inductive FtpServerState
  | unavailable
  | stopped
  | starting
  | running
  | stopping
  | error
  deriving DecidableEq

structure FtpServerStatus where
  state : FtpServerState
  config : FtpConfig
  configResult : FtpConfigResult
  lastError : Int
  listenerUp : Bool
  bindAttempts : UInt32
  lastBindError : Int
  loopErrors : UInt32
  listenerDrops : UInt32
  lastLoopError : Int
  activeTransfers : UInt32

structure FtpManager where
  threadCreated : Bool
  shutdown : Bool
  desiredRunning : Bool
  restartRequested : Bool
  reloadRequested : Bool
  serverInitialized : Bool
  status : FtpServerStatus

def EINVAL : Int := 22
def EIO : Int := 5
def FTP_LOOP_ERROR_LIMIT : Nat := 3

namespace FtpManager

def setState (m : FtpManager) (state : FtpServerState) (error : Int) : FtpManager :=
  { m with status := { m.status with state := state, lastError := error } }

/-- The critical section of `loadConfig`. -/
def loadConfig (m : FtpManager) (loaded : FtpConfigResult × FtpConfig) : FtpManager :=
  let (result, config) := loaded
  let status := { m.status with config := config, configResult := result }
  if result ≠ .ok then
    { m with
      desiredRunning := false
      status := { status with state := .error, lastError := EINVAL } }
  else
    { m with
      desiredRunning := config.enabled
      status := { status with
        state := if config.enabled then .starting else .stopped
        lastError := 0 } }

/-! ## Commands

Each answers whether it was accepted. -/

def ftpServerStart (m : FtpManager) : Bool × FtpManager :=
  if m.threadCreated && m.status.configResult == .ok then
    (true, { m with
      desiredRunning := true
      status := { m.status with state := .starting, lastError := 0 } })
  else (false, m)

def ftpServerStop (m : FtpManager) : Bool × FtpManager :=
  if m.threadCreated then
    (true, { m with
      desiredRunning := false
      status := { m.status with state := if m.serverInitialized then .stopping else .stopped } })
  else (false, m)

def ftpServerRestart (m : FtpManager) (reloadConfig : Bool) : Bool × FtpManager :=
  if m.threadCreated && (reloadConfig || m.status.configResult == .ok) then
    (true, { m with
      restartRequested := !reloadConfig
      reloadRequested := reloadConfig
      status := { m.status with state := .stopping } })
  else (false, m)

/-- `ftpServerShutdown` before it waits for the thread. -/
def ftpServerShutdown (m : FtpManager) : FtpManager :=
  { m with shutdown := true }

end FtpManager

/-! ## The worker -/

/-- `struct FtpSrvConfig` of the library. -/
structure FtpSrvConfig where
  user : List UInt8
  pass : List UInt8
  port : UInt16
  anon : Bool
  timeout : UInt32
  useLocaltime : Bool
  deriving DecidableEq

def populateLibraryConfig (input : FtpConfig) : FtpSrvConfig :=
  { user := input.username, pass := input.password, port := input.port, anon := input.anonymous,
    timeout := input.timeout, useLocaltime := input.useLocaltime }

/-- The locals of one turn of the loop of `ftpWorker`. `configResult` is not one of them in the
    source: it is the result that `config` came with. -/
structure WorkerLocals where
  desired : Bool
  restart : Bool
  reload : Bool
  initialized : Bool
  config : FtpConfig
  configResult : FtpConfigResult

/-- Where the worker is: in front of which critical section. -/
inductive WorkerPc
  /-- The one that takes up the flags. -/
  | top
  /-- `setState(FtpServerStopping)` for a restart or reload. -/
  | stopForRequest
  /-- The one after the `ftpsrv_exit` of a restart or reload. -/
  | stoppedForRequest
  /-- The one of `loadConfig`. -/
  | loadConfig
  /-- The one that reads the loaded configuration back. -/
  | readBack
  /-- `desiredRunning = true` of a restart. -/
  | restart
  /-- `setState(FtpServerStopping)` of a server that is no longer wanted. -/
  | stopUnwanted
  /-- The one after its `ftpsrv_exit`. -/
  | stoppedUnwanted
  /-- `setState(FtpServerStarting)`. -/
  | starting
  /-- The one that counts the call of `ftpsrv_init`. -/
  | init
  /-- The ones after a failed and after a successful call. -/
  | initFailed
  | initDone
  /-- `ftpsrv_loop`; on an error, the one that counts it. -/
  | loop
  /-- The one that drops the listener. -/
  | drop
  /-- The last one, after `shutdown`. -/
  | leaving
  | finished
  deriving DecidableEq

/-- A call of `ftpsrv_init`: what it is given, and what `ftpConfigLoad` answered for that. -/
structure InitCall where
  config : FtpSrvConfig
  configResult : FtpConfigResult
  deriving DecidableEq

structure FtpSystem where
  manager : FtpManager
  pc : WorkerPc
  locals : WorkerLocals
  consecutiveLoopErrors : Nat
  /-- The number of loads so far. -/
  loads : Nat
  /-- The calls of `ftpsrv_init` so far. -/
  inits : List InitCall

/-- What the library answers: `ftpsrv_init`, `ftpsrv_loop`, and `errno`. -/
structure WorkerAnswers where
  init : Int
  loopOk : Bool
  errno : Int

def WorkerAnswers.error (io : WorkerAnswers) : Int :=
  if io.errno ≠ 0 then io.errno else EIO

namespace WorkerLocals

/-! The way from one critical section to the next, by the conditions in between. -/

def afterInit (l : WorkerLocals) : WorkerPc :=
  if l.initialized then .loop else .top

def afterUnwanted (l : WorkerLocals) : WorkerPc :=
  if l.desired && !l.initialized then .starting else l.afterInit

def afterRequest (l : WorkerLocals) : WorkerPc :=
  if !l.desired && l.initialized then .stopUnwanted else l.afterUnwanted

def afterTakeDown (l : WorkerLocals) : WorkerPc :=
  if l.reload then .loadConfig
  else if l.restart then .restart
  else l.afterRequest

def afterTop (l : WorkerLocals) : WorkerPc :=
  if (l.restart || l.reload) && l.initialized then .stopForRequest else l.afterTakeDown

end WorkerLocals

/-- The flags and the configuration, as the first critical section of a turn copies them. -/
def FtpManager.snapshot (m : FtpManager) : WorkerLocals :=
  { desired := m.desiredRunning, restart := m.restartRequested, reload := m.reloadRequested,
    initialized := m.serverInitialized, config := m.status.config,
    configResult := m.status.configResult }

/-- One step of `ftpWorker`. `files` is what the loads find, one after the other. -/
def ftpWorkerStep (files : Nat → ConfigFile) (s : FtpSystem) (io : WorkerAnswers) : FtpSystem :=
  let m := s.manager
  let l := s.locals
  match s.pc with
  | .top =>
    { s with
      manager := { m with restartRequested := false, reloadRequested := false }
      locals := m.snapshot
      pc := if m.shutdown then .leaving else m.snapshot.afterTop }
  | .stopForRequest => { s with manager := m.setState .stopping 0, pc := .stoppedForRequest }
  | .stoppedForRequest =>
    let l := { l with initialized := false }
    { s with
      manager := { m with serverInitialized := false, status.listenerUp := false }
      locals := l
      pc := l.afterTakeDown }
  | .loadConfig =>
    { s with
      manager := m.loadConfig (ftpConfigLoad (files s.loads))
      loads := s.loads + 1
      pc := .readBack }
  | .readBack =>
    let l := { l with
      desired := m.desiredRunning
      config := m.status.config
      configResult := m.status.configResult }
    { s with locals := l, pc := l.afterRequest }
  | .restart =>
    let l := { l with desired := true }
    { s with manager := { m with desiredRunning := true }, locals := l, pc := l.afterRequest }
  | .stopUnwanted => { s with manager := m.setState .stopping 0, pc := .stoppedUnwanted }
  | .stoppedUnwanted =>
    let l := { l with initialized := false }
    { s with
      manager := { m with
        serverInitialized := false
        status := { m.status with listenerUp := false, state := .stopped, activeTransfers := 0 } }
      locals := l
      pc := l.afterUnwanted }
  | .starting => { s with manager := m.setState .starting 0, pc := .init }
  | .init =>
    { s with
      manager := { m with status.bindAttempts := m.status.bindAttempts + 1 }
      inits := s.inits ++
        [{ config := populateLibraryConfig l.config, configResult := l.configResult }]
      pc := if io.init < 0 then .initFailed else .initDone }
  | .initFailed =>
    { s with
      manager := { m with
        status := { m.status with
          state := .error, lastError := io.error, lastBindError := io.error,
          listenerUp := false } }
      pc := l.afterInit }
  | .initDone =>
    let l := { l with initialized := true }
    { s with
      manager := { m with
        serverInitialized := true
        status := { m.status with
          state := .running, lastError := 0, lastBindError := 0, listenerUp := true } }
      locals := l
      pc := l.afterInit }
  | .loop =>
    if io.loopOk then { s with consecutiveLoopErrors := 0, pc := .top }
    else
      { s with
        consecutiveLoopErrors := s.consecutiveLoopErrors + 1
        manager := { m with
          status := { m.status with
            loopErrors := m.status.loopErrors + 1, lastLoopError := io.error } }
        pc := if FTP_LOOP_ERROR_LIMIT ≤ s.consecutiveLoopErrors + 1 then .drop else .top }
  | .drop =>
    { s with
      consecutiveLoopErrors := 0
      manager := { m with
        serverInitialized := false
        status := { m.status with
          state := .error, lastError := m.status.lastLoopError,
          lastBindError := m.status.lastLoopError, listenerUp := false, activeTransfers := 0,
          listenerDrops := m.status.listenerDrops + 1 } }
      pc := .top }
  | .leaving =>
    { s with
      manager := { m with serverInitialized := false, status.listenerUp := false }
      pc := .finished }
  | .finished => s

/-! ## Runs -/

inductive FtpEvent
  | start
  | stop
  | restart (reloadConfig : Bool)
  | shutdown
  | worker (io : WorkerAnswers)

/-- What a command does with the manager, and whether it is accepted. -/
def FtpEvent.command (m : FtpManager) : FtpEvent → Bool × FtpManager
  | .start => m.ftpServerStart
  | .stop => m.ftpServerStop
  | .restart reloadConfig => m.ftpServerRestart reloadConfig
  | .shutdown => (true, m.ftpServerShutdown)
  | .worker _ => (false, m)

def ftpStep (files : Nat → ConfigFile) (s : FtpSystem) : FtpEvent → FtpSystem
  | .worker io => if s.manager.threadCreated then ftpWorkerStep files s io else s
  | e => { s with manager := (e.command s.manager).2 }

/-- `manager` after `memset` and `ftpConfigDefaults`. -/
def FtpManager.zero : FtpManager :=
  { threadCreated := false, shutdown := false, desiredRunning := false,
    restartRequested := false, reloadRequested := false, serverInitialized := false,
    status :=
      { state := .unavailable, config := ftpConfigDefaults, configResult := .ok, lastError := 0,
        listenerUp := false, bindAttempts := 0, lastBindError := 0, loopErrors := 0,
        listenerDrops := 0, lastLoopError := 0, activeTransfers := 0 } }

/-- The manager that `ftpServerInitialize` leaves; `threadResult` is what `threadCreate` and
    `threadStart` answer. -/
def FtpManager.ftpServerInitialize (file : ConfigFile) (storageAvailable : Bool)
    (threadResult : Int) : FtpManager :=
  if !storageAvailable then { zero with status.configResult := .ioError }
  else
    let m := zero.loadConfig (ftpConfigLoad file)
    if threadResult = 0 then { m with threadCreated := true }
    else
      { m with
        desiredRunning := false
        status := { m.status with state := .error, lastError := threadResult } }

/-- The system after `ftpServerInitialize`. -/
def ftpServerInitialize (files : Nat → ConfigFile) (storageAvailable : Bool)
    (threadResult : Int) : FtpSystem :=
  let m := FtpManager.ftpServerInitialize (files 0) storageAvailable threadResult
  { manager := m, pc := .top, locals := m.snapshot, consecutiveLoopErrors := 0, loads := 1,
    inits := [] }

end SysAgent
