import Mathlib
import SysAgent.Lib.FieldLine
import SysAgent.Lib.Runs
import SysAgent.Debug.Sessions

set_option autoImplicit false

/-! # Status lines of the debug sessions (`main.c`, `sysagent.py`)

The lines that `debug watch`, `debug trace`, `debug multitrace` and their status commands print, as lists
of fields in the order of the `printf` calls, and `parse_response`, which reads them.

Two fields are text that a session sets: `stage`, always one of a few words, and for a watch or a trace
`hint`, a sentence that is set when an attach finds the debug handle in use.

The command thread is inside `debug watch` (or `trace`, `multitrace`) until the worker has armed or
ended, or it has given up and stopped it. A trace's worker empties the hint with its stage `cleanup`
before it ends, so no line ever shows that hint; a watch's worker has no such stage. -/

namespace SysAgent

open FieldLine

/-! ## Formats -/

def digitChars : List Char :=
  ['0', '1', '2', '3', '4', '5', '6', '7', '8', '9', 'A', 'B', 'C', 'D', 'E', 'F']

def digitChar (digit : Nat) : Char := digitChars.getD digit '0'

def formatBase (base n : Nat) : List Char :=
  if n = 0 then ['0'] else (Nat.digits base n).reverse.map digitChar

/-- `%u` and `%lu` -/
def dec (n : Nat) : List Char := formatBase 10 n

/-- `0x%X` and `0x%lX` -/
def hex (n : Nat) : List Char := '0' :: 'x' :: formatBase 16 n

/-- `%016lX` -/
def hex16 (n : UInt64) : List Char :=
  List.replicate (16 - (formatBase 16 n.toNat).length) '0' ++ formatBase 16 n.toNat

/-- `%d` of a bool -/
def flag (b : Bool) : List Char := if b then ['1'] else ['0']

/-- A loop that prints a comma before every item but the first. -/
def commaList (items : List (List Char)) : List Char := [','].intercalate items

def field (name : String) (value : List Char) : Field := (name.toList, value)

inductive SnapshotBase
  | gpr
  | sp
  | pc
  | lr
  deriving Inhabited

structure DebugTraceSnapshotSpec where
  base : SnapshotBase
  registerIndex : UInt8
  offset : Int
  size : UInt32
  deriving Inhabited

def printTraceSnapshotSpec (spec : DebugTraceSnapshotSpec) : List Char :=
  (match spec.base with
    | .gpr => 'x' :: dec spec.registerIndex.toNat
    | .sp => ['s', 'p']
    | .pc => ['p', 'c']
    | .lr => ['l', 'r']) ++
  (if 0 < spec.offset then '+' :: hex spec.offset.natAbs
    else if spec.offset < 0 then '-' :: hex spec.offset.natAbs
    else []) ++
  ':' :: hex spec.size.toNat

/-! ## Statuses -/

/-- The stages that the three modules set. -/
inductive DebugStage
  | none
  | pid
  | pmdmnt
  | debugActiveProcess
  | drainInitial
  | exitProcess
  | probeContext
  | probeData
  | probeInstruction
  | probeInstructionSlots
  | instructionSlots
  | targetSlots
  | setContextBp
  | setDataBp
  | armTrace
  | resume
  | durationReached
  | waitEvent
  | waitEventIndex
  | hitsReached
  | stepInstruction
  | continue
  | cleanup
  | watchActive
  | invalid
  | invalidSnapshot
  | invalidTarget
  | duplicateTarget
  | missingProcessTarget
  | ownedByOtherTracer
  | alreadyActive
  deriving Inhabited

def DebugStage.text : DebugStage → List Char
  | none => []
  | pid => "pid".toList
  | pmdmnt => "pmdmnt".toList
  | debugActiveProcess => "debugActiveProcess".toList
  | drainInitial => "drainInitial".toList
  | exitProcess => "exitProcess".toList
  | probeContext => "probeContext".toList
  | probeData => "probeData".toList
  | probeInstruction => "probeInstruction".toList
  | probeInstructionSlots => "probeInstructionSlots".toList
  | instructionSlots => "instructionSlots".toList
  | targetSlots => "targetSlots".toList
  | setContextBp => "setContextBp".toList
  | setDataBp => "setDataBp".toList
  | armTrace => "armTrace".toList
  | resume => "resume".toList
  | durationReached => "durationReached".toList
  | waitEvent => "waitEvent".toList
  | waitEventIndex => "waitEventIndex".toList
  | hitsReached => "hitsReached".toList
  | stepInstruction => "stepInstruction".toList
  | «continue» => "continue".toList
  | cleanup => "cleanup".toList
  | watchActive => "watchActive".toList
  | invalid => "invalid".toList
  | invalidSnapshot => "invalidSnapshot".toList
  | invalidTarget => "invalidTarget".toList
  | duplicateTarget => "duplicateTarget".toList
  | missingProcessTarget => "missingProcessTarget".toList
  | ownedByOtherTracer => "ownedByOtherTracer".toList
  | alreadyActive => "alreadyActive".toList

/-- What `setDebugHandleInUseHint` writes in `debug_trace.c`. -/
def traceHint : List Char :=
  ("debug handle still owned by another debugger (for example the " ++
    "standalone gdbstub); close it and retry").toList

/-- What it writes in `debug_watch.c`, cut to the 159 characters that fit. -/
def watchHint : List Char :=
  (("debug handle still owned by another debugger (e.g. gdbstub); " ++
    "gen1/dmnt:cht conflicts are auto-closed, so check that " ++
    "enable_standalone_gdbstub is disabled").toList).take 159

structure WatchStatus where
  active : Bool
  armed : Bool
  everArmed : Bool
  stale : Bool
  memoryBlocked : Bool
  processId : UInt64
  watchAddress : UInt64
  watchSize : UInt64
  maxHits : UInt32
  hitCount : UInt32
  ctxSlot : UInt32
  wpSlot : UInt32
  durationSeconds : UInt64
  ringSize : UInt32
  ringCount : UInt32
  filterEnabled : Bool
  lastPc : UInt64
  lastLr : UInt64
  lastSp : UInt64
  lastDataAddress : UInt64
  lastThreadId : UInt64
  lastError : UInt32
  stage : DebugStage
  hint : List Char
  deriving Inhabited

/-- The fields that the statuses of a trace and a multitrace share. -/
structure TracerStatus where
  active : Bool
  armed : Bool
  everArmed : Bool
  stale : Bool
  memoryBlocked : Bool
  targetCount : UInt32
  targetAddresses : Nat → UInt64
  targetHits : Nat → UInt32
  instructionSlots : Nat → UInt32
  maxHits : UInt32
  hitCount : UInt64
  durationSeconds : UInt64
  startedTick : UInt64
  durationStartTick : UInt64
  durationFromFirstHit : Bool
  ringSize : UInt32
  ringCount : UInt32
  argsCount : UInt32
  ignoredHits : UInt32
  snapshotCount : UInt32
  snapshots : Nat → DebugTraceSnapshotSpec
  targetSnapshotCounts : Nat → UInt32
  targetSnapshots : Nat → Nat → DebugTraceSnapshotSpec
  lastSequence : UInt64
  lastPc : UInt64
  lastLr : UInt64
  lastSp : UInt64
  lastThreadId : UInt64
  lastCore : UInt32
  lastError : UInt32
  stage : DebugStage
  deriving Inhabited

structure TraceStatus extends TracerStatus where
  dmntClosed : Bool
  processId : UInt64
  address : UInt64
  contextSlot : UInt32
  instructionSlot : UInt32
  overwritten : UInt64
  hint : List Char
  deriving Inhabited

structure MultiTraceStatus extends TracerStatus where
  processIds : Nat → UInt64
  contextSlots : Nat → UInt32
  deriving Inhabited

/-! ## The printed lines -/

structure Line where
  ok : Bool
  fields : List Field

def Line.status (line : Line) : List Char := if line.ok then ['O', 'K'] else ['E', 'R', 'R']

def Line.text (line : Line) : List Char := render line.status line.fields

/-- `ERR code=... name=value ...` -/
def errorLine (code : String) (fields : List Field) : Line where
  ok := false
  fields := field "code" code.toList :: fields

def durationFrom (fromFirstHit : Bool) : List Char :=
  if fromFirstHit then "first-hit".toList else "arm".toList

/-- Items printed for the indices below a count. -/
def indexed (count : Nat) (item : Nat → List Char) : List Char :=
  commaList ((List.range count).map item)

/-- `index:spec` for each snapshot. -/
def snapSpecs (count : Nat) (snapshots : Nat → DebugTraceSnapshotSpec) : List Char :=
  indexed count fun i => dec i ++ ':' :: printTraceSnapshotSpec (snapshots i)

/-- `target:index:spec` for each snapshot of each target, at most two for a target. -/
def targetSnapSpecs (status : TracerStatus) : List Char :=
  commaList ((List.range status.targetCount.toNat).flatMap fun target =>
    (List.range (min (status.targetSnapshotCounts target).toNat 2)).map fun i =>
      dec target ++ ':' :: dec i ++ ':' :: printTraceSnapshotSpec (status.targetSnapshots target i))

def watchBusyLine (status : WatchStatus) : Line :=
  errorLine "WATCH_BUSY" [field "lastError" (hex status.lastError.toNat)]

def watchHandleInUseLine (status : WatchStatus) : Line :=
  errorLine "DEBUG_HANDLE_IN_USE" [field "result" (hex status.lastError.toNat),
    field "stage" status.stage.text, field "hint" status.hint]

def watchTimeoutLine (status : WatchStatus) : Line :=
  errorLine "DEBUG_WATCH_START_TIMEOUT" [field "active" (flag status.active),
    field "stage" status.stage.text, field "result" (hex status.lastError.toNat)]

/-- The arguments of a `debug watch` command that it prints back. -/
structure WatchArguments where
  address : UInt64
  size : UInt64
  maxHits : UInt32
  duration : UInt64
  dmntClosed : Bool

def watchStartedLine (status : WatchStatus) (arguments : WatchArguments) : Line where
  ok := true
  fields := [field "state" "started".toList, field "active" (flag status.active),
    field "address" (hex16 arguments.address), field "size" (dec arguments.size.toNat),
    field "hits" (dec arguments.maxHits.toNat), field "duration" (dec arguments.duration.toNat),
    field "dmntClosed" (flag arguments.dmntClosed)]

def watchStatusLine (status : WatchStatus) : Line where
  ok := true
  fields := [field "active" (flag status.active), field "armed" (flag status.armed),
    field "everArmed" (flag status.everArmed), field "stale" (flag status.stale),
    field "memoryBlocked" (flag status.memoryBlocked), field "pid" (hex16 status.processId),
    field "address" (hex16 status.watchAddress), field "size" (dec status.watchSize.toNat),
    field "maxHits" (dec status.maxHits.toNat), field "hitCount" (dec status.hitCount.toNat),
    field "ctxSlot" (dec status.ctxSlot.toNat), field "wpSlot" (dec status.wpSlot.toNat),
    field "duration" (dec status.durationSeconds.toNat), field "ring" (dec status.ringSize.toNat),
    field "ringCount" (dec status.ringCount.toNat), field "filter" (flag status.filterEnabled),
    field "lastPc" (hex16 status.lastPc), field "lastLr" (hex16 status.lastLr),
    field "lastSp" (hex16 status.lastSp), field "lastData" (hex16 status.lastDataAddress),
    field "lastThread" (hex16 status.lastThreadId), field "stage" status.stage.text,
    field "lastError" (hex status.lastError.toNat), field "hint" status.hint]

def traceInvalidLine (status : TraceStatus) : Line :=
  errorLine "INVALID_ARGUMENTS" [field "result" (hex status.lastError.toNat)]

def traceBusyLine (status : TraceStatus) : Line :=
  errorLine "TRACE_BUSY" [field "result" (hex status.lastError.toNat),
    field "stage" status.stage.text]

def traceStartFailedLine (status : TraceStatus) : Line :=
  errorLine "DEBUG_TRACE_START_FAILED" [field "result" (hex status.lastError.toNat),
    field "stage" status.stage.text, field "hint" status.hint]

def traceTimeoutLine (status : TraceStatus) : Line :=
  errorLine "DEBUG_TRACE_START_TIMEOUT" [field "active" (flag status.active),
    field "stage" status.stage.text, field "result" (hex status.lastError.toNat)]

/-- The arguments of a trace command that it prints back. -/
structure TraceArguments where
  pid : UInt64
  argsCount : UInt32
  maxHits : UInt32
  ringSize : UInt32
  duration : UInt64
  durationFromFirstHit : Bool

def traceStartedLine (status : TraceStatus) (arguments : TraceArguments) : Line where
  ok := true
  fields := [field "state" "started".toList, field "active" (flag status.active),
    field "pid" (hex16 arguments.pid), field "address" (hex16 status.address),
    field "targetCount" (dec status.targetCount.toNat),
    field "targets" (indexed status.targetCount.toNat fun i =>
      dec i ++ ':' :: hex (status.targetAddresses i).toNat),
    field "args" (dec arguments.argsCount.toNat), field "hits" (dec arguments.maxHits.toNat),
    field "ring" (dec arguments.ringSize.toNat), field "duration" (dec arguments.duration.toNat),
    field "durationFrom" (durationFrom arguments.durationFromFirstHit),
    field "ctxSlot" (dec status.contextSlot.toNat),
    field "insnSlot" (dec status.instructionSlot.toNat),
    field "slots" (indexed status.targetCount.toNat fun i =>
      dec (status.instructionSlots i).toNat),
    field "snapshots" (dec status.snapshotCount.toNat),
    field "dmntClosed" (flag status.dmntClosed), field "lastError" (hex status.lastError.toNat),
    field "stage" status.stage.text]

def traceStatusLine (status : TraceStatus) : Line where
  ok := true
  fields := [field "active" (flag status.active), field "armed" (flag status.armed),
    field "everArmed" (flag status.everArmed), field "stale" (flag status.stale),
    field "memoryBlocked" (flag status.memoryBlocked),
    field "dmntClosed" (flag status.dmntClosed), field "pid" (hex16 status.processId),
    field "address" (hex16 status.address), field "targetCount" (dec status.targetCount.toNat),
    field "targets" (indexed status.targetCount.toNat fun i =>
      dec i ++ ':' :: hex (status.targetAddresses i).toNat),
    field "targetHits" (indexed status.targetCount.toNat fun i =>
      dec i ++ ':' :: dec (status.targetHits i).toNat),
    field "maxHits" (dec status.maxHits.toNat), field "hitCount" (dec status.hitCount.toNat),
    field "duration" (dec status.durationSeconds.toNat),
    field "durationFrom" (durationFrom status.durationFromFirstHit),
    field "startedTick" (dec status.startedTick.toNat),
    field "durationStartTick" (dec status.durationStartTick.toNat),
    field "ring" (dec status.ringSize.toNat), field "ringCount" (dec status.ringCount.toNat),
    field "overwritten" (dec status.overwritten.toNat),
    field "args" (dec status.argsCount.toNat), field "ctxSlot" (dec status.contextSlot.toNat),
    field "insnSlot" (dec status.instructionSlot.toNat),
    field "lastSeq" (dec status.lastSequence.toNat), field "lastPc" (hex16 status.lastPc),
    field "lastLr" (hex16 status.lastLr), field "lastSp" (hex16 status.lastSp),
    field "lastThread" (hex16 status.lastThreadId),
    field "lastCore" (dec status.lastCore.toNat),
    field "slots" (indexed status.targetCount.toNat fun i =>
      dec (status.instructionSlots i).toNat),
    field "ignoredHits" (dec status.ignoredHits.toNat),
    field "snapshots" (dec status.snapshotCount.toNat),
    field "snapSpecs" (snapSpecs status.snapshotCount.toNat status.snapshots),
    field "targetSnapCounts" (indexed status.targetCount.toNat fun target =>
      dec (status.targetSnapshotCounts target).toNat),
    field "targetSnapSpecs" (targetSnapSpecs status.toTracerStatus),
    field "stage" status.stage.text, field "lastError" (hex status.lastError.toNat),
    field "hint" status.hint]

def multiTraceBusyLine (status : MultiTraceStatus) : Line :=
  errorLine "MULTITRACE_BUSY" [field "result" (hex status.lastError.toNat),
    field "stage" status.stage.text]

def multiTraceStartFailedLine (status : MultiTraceStatus) : Line :=
  errorLine "MULTITRACE_START_FAILED" [field "active" (flag status.active),
    field "result" (hex status.lastError.toNat), field "stage" status.stage.text]

/-- `%u,%u` and `%u,%u,%u,%u` -/
def counts (values : List UInt32) : List Char := commaList (values.map fun n => dec n.toNat)

def targetProcesses : List Char := "0,1,0,1".toList

def multiTraceStartedLine (status : MultiTraceStatus) (arguments : TraceArguments) : Line where
  ok := true
  fields := [field "state" "started".toList, field "active" (flag status.active),
    field "pid0" (hex16 (status.processIds 0)), field "target0" (hex16 (status.targetAddresses 0)),
    field "pid1" (hex16 (status.processIds 1)), field "target1" (hex16 (status.targetAddresses 1)),
    field "targetCount" (dec status.targetCount.toNat),
    field "target2" (hex16 (status.targetAddresses 2)),
    field "target3" (hex16 (status.targetAddresses 3)),
    field "targetProcesses" targetProcesses, field "hits" (dec arguments.maxHits.toNat),
    field "ring" (dec arguments.ringSize.toNat), field "duration" (dec arguments.duration.toNat),
    field "durationFrom" (durationFrom arguments.durationFromFirstHit),
    field "args" (dec arguments.argsCount.toNat),
    field "snapshots" (dec status.snapshotCount.toNat),
    field "ctx" (counts [status.contextSlots 0, status.contextSlots 1]),
    field "slots" (counts [status.instructionSlots 0, status.instructionSlots 1,
      status.instructionSlots 2, status.instructionSlots 3])]

def multiTraceStatusLine (status : MultiTraceStatus) : Line where
  ok := true
  fields := [field "active" (flag status.active), field "armed" (flag status.armed),
    field "everArmed" (flag status.everArmed), field "stale" (flag status.stale),
    field "memoryBlocked" (flag status.memoryBlocked),
    field "pid0" (hex16 (status.processIds 0)), field "target0" (hex16 (status.targetAddresses 0)),
    field "pid1" (hex16 (status.processIds 1)), field "target1" (hex16 (status.targetAddresses 1)),
    field "hits" (counts [status.targetHits 0, status.targetHits 1]),
    field "targetCount" (dec status.targetCount.toNat),
    field "target2" (hex16 (status.targetAddresses 2)),
    field "target3" (hex16 (status.targetAddresses 3)),
    field "targetProcesses" targetProcesses,
    field "hits2" (counts [status.targetHits 2, status.targetHits 3]),
    field "hitCount" (dec status.hitCount.toNat), field "maxHits" (dec status.maxHits.toNat),
    field "ring" (dec status.ringSize.toNat), field "ringCount" (dec status.ringCount.toNat),
    field "duration" (dec status.durationSeconds.toNat),
    field "durationFrom" (durationFrom status.durationFromFirstHit),
    field "startedTick" (dec status.startedTick.toNat),
    field "durationStartTick" (dec status.durationStartTick.toNat),
    field "args" (dec status.argsCount.toNat), field "snapshots" (dec status.snapshotCount.toNat),
    field "snapSpecs" (snapSpecs (min status.snapshotCount.toNat 2) status.snapshots),
    field "targetSnapCounts" (indexed status.targetCount.toNat fun target =>
      dec (status.targetSnapshotCounts target).toNat),
    field "targetSnapSpecs" (targetSnapSpecs status.toTracerStatus),
    field "ignoredHits" (dec status.ignoredHits.toNat),
    field "ctx" (counts [status.contextSlots 0, status.contextSlots 1]),
    field "slots" (counts [status.instructionSlots 0, status.instructionSlots 1,
      status.instructionSlots 2, status.instructionSlots 3]),
    field "lastSeq" (dec status.lastSequence.toNat), field "lastPc" (hex16 status.lastPc),
    field "lastLr" (hex16 status.lastLr), field "lastSp" (hex16 status.lastSp),
    field "lastThread" (hex16 status.lastThreadId),
    field "lastCore" (dec status.lastCore.toNat), field "stage" status.stage.text,
    field "lastError" (hex status.lastError.toNat)]

/-- The refusals of the arguments of the six commands; `rc` is the result of a native call. -/
def argumentErrors (rc : UInt32) : List Line :=
  let result := field "result" (hex rc.toNat)
  [errorLine "INVALID_ARGUMENTS" [], errorLine "INVALID_SIZE" [], errorLine "INVALID_RING" [],
    errorLine "INVALID_HITS" [], errorLine "INVALID_DURATION" [], errorLine "INVALID_ARGS" [],
    errorLine "INVALID_PC_FILTER" [], errorLine "INVALID_SNAPSHOT" [], errorLine "INVALID_PID" [],
    errorLine "INVALID_ADDRESS" [], errorLine "DUPLICATE_TARGET" [],
    errorLine "INVALID_ARGUMENTS" [field "detail" "missing_value".toList],
    errorLine "INVALID_HITS" [field "detail" "unlimited_requires_ring".toList],
    errorLine "INVALID_SNAPSHOT" [field "detail" "target_out_of_range".toList],
    errorLine "INVALID_ADDRESS" [field "detail" "instruction_not_aligned".toList],
    errorLine "INVALID_TARGET_COUNT" [field "max" (dec 4)],
    errorLine "MAIN_BASE_UNAVAILABLE" [result], errorLine "NO_APP" [result],
    errorLine "INVALID_PID" [field "index" (dec 1)], errorLine "INVALID_PID" [field "index" (dec 2)],
    errorLine "INVALID_ADDRESS" [field "index" (dec 1), result],
    errorLine "INVALID_ADDRESS" [field "index" (dec 2), result],
    errorLine "INVALID_ADDRESS" [field "index" (dec 3), result],
    errorLine "INVALID_ADDRESS" [field "index" (dec 4), result]]

/-! ## The sessions -/

/-- The statuses of the three modules, but for the fields of `DebugSession`, which replace theirs. -/
structure DebugStatuses where
  watch : WatchStatus
  trace : TraceStatus
  multi : MultiTraceStatus
  deriving Inhabited

/-- What `setDebugHandleInUseHint` writes, in the two modules that have it. -/
def DebugModule.hint : DebugModule → Option (List Char)
  | watch => some watchHint
  | trace => some traceHint
  | multitrace => none

/-- Where a worker thread is. -/
inductive WorkerPlace
  | ended
  /-- On the way to an armed session. -/
  | attaching
  /-- The attach found the debug handle in use, and the hint is not set yet. -/
  | refused
  | armed
  /-- On the way to `cleanup`. -/
  | leaving
  /-- Behind the stage `cleanup` of a trace. -/
  | cleanup
  deriving DecidableEq

/-- The fields of a module's state that decide what its lines show. -/
structure DebugSession where
  place : WorkerPlace
  active : Bool
  everArmed : Bool
  lastError : UInt32
  stage : DebugStage
  hint : List Char

/-- What the command thread is waiting for. -/
inductive AwaitedCommand
  | none
  | starting (m : DebugModule)
  | stopping (m : DebugModule)
  deriving DecidableEq

structure DebugConsole where
  statuses : DebugStatuses
  sessions : DebugModule → DebugSession
  command : AwaitedCommand

/-- The sections of a worker that touch these fields. -/
inductive WorkerTurn
  /-- `svcDebugActiveProcess` answers `AlreadyExists`. -/
  | handleInUse
  | setHint
  | setError (stage : DebugStage) (rc : UInt32)
  | setStage (stage : DebugStage)
  | arm
  /-- The loop of an armed session ends without a stage, as after a stop. -/
  | leave
  | cleanup
  /-- The last section: the stage it leaves and the error it sets if there was none. -/
  | finish (stage : DebugStage) (rc : UInt32)

inductive StatusStep
  /-- Any change of the other fields. -/
  | update (statuses : DebugStatuses)
  /-- A start that is refused sets the stage and the error and leaves the hint. -/
  | refuse (m : DebugModule) (stage : DebugStage) (rc : UInt32)
  /-- A start that is accepted, with the result of `threadCreate` and `threadStart`. -/
  | start (m : DebugModule) (rc : UInt32)
  | stop (m : DebugModule)
  /-- The command thread has seen what it waits for. -/
  | waited
  /-- It has looked often enough, and stops the session. -/
  | giveUp
  | worker (m : DebugModule) (turn : WorkerTurn)

/-- `KERNELRESULT(AlreadyExists)` -/
def KERNELRESULT_AlreadyExists : UInt32 := 0xF401

namespace DebugSession

/-- As the initialisation leaves it. -/
def initial : DebugSession where
  place := .ended
  active := false
  everArmed := false
  lastError := 0
  stage := .none
  hint := []

/-- `setError`, on the way to `cleanup`. -/
def failed (s : DebugSession) (stage : DebugStage) (rc : UInt32) : DebugSession :=
  { s with place := .leaving, lastError := rc, stage := stage, hint := [] }

def turn (m : DebugModule) (s : DebugSession) : WorkerTurn → DebugSession
  | .handleInUse =>
    if s.place = .attaching then
      { s.failed .debugActiveProcess KERNELRESULT_AlreadyExists with
        place := if m.hint.isSome then .refused else .leaving }
    else s
  | .setHint =>
    if s.place = .refused then { s with place := .leaving, hint := m.hint.getD [] } else s
  | .setError stage rc =>
    if s.place = .attaching ∨ s.place = .armed then s.failed stage rc else s
  | .setStage stage =>
    if s.place = .attaching ∨ s.place = .armed then
      { s with place := .leaving, stage := stage, hint := [] }
    else s
  | .arm =>
    if s.place = .attaching then
      { s with place := .armed, everArmed := true, lastError := 0, stage := .none, hint := [] }
    else s
  | .leave => if s.place = .armed then { s with place := .leaving } else s
  | .cleanup =>
    if m = .trace ∧ s.place = .leaving then
      { s with place := .cleanup, stage := .cleanup, hint := [] }
    else s
  | .finish stage rc =>
    if s.place = if m = .trace then .cleanup else .leaving then
      { s with
        place := .ended
        active := false
        lastError := if s.lastError = 0 then rc else s.lastError
        stage := stage }
    else s

end DebugSession

namespace DebugConsole

/-- The state behind the initialisation. -/
def init (statuses : DebugStatuses) : DebugConsole where
  statuses := statuses
  sessions := fun _ => .initial
  command := .none

def withSession (s : DebugConsole) (m : DebugModule) (session : DebugSession) : DebugConsole :=
  { s with sessions := Function.update s.sessions m session }

@[simp] theorem withSession_self (s : DebugConsole) (m : DebugModule) (session : DebugSession) :
    (s.withSession m session).sessions m = session := Function.update_self ..

def step (s : DebugConsole) : StatusStep → DebugConsole
  | .update statuses => { s with statuses := statuses }
  | .refuse m stage rc =>
    if s.command = .none then
      s.withSession m { s.sessions m with stage := stage, lastError := rc }
    else s
  | .start m rc =>
    -- a start is refused while any of the three is active
    if s.command = .none ∧ (s.sessions .watch).active = false ∧
        (s.sessions .trace).active = false ∧ (s.sessions .multitrace).active = false then
      if rc = 0 then
        { s.withSession m { DebugSession.initial with place := .attaching, active := true } with
          command := .starting m }
      else s.withSession m { DebugSession.initial with lastError := rc }
    else s
  | .stop m => if s.command = .none then { s with command := .stopping m } else s
  | .waited =>
    match s.command with
    | .none => s
    | .starting m =>
      if (s.sessions m).everArmed = true ∨ (s.sessions m).active = false then
        { s with command := .none }
      else s
    | .stopping m => if (s.sessions m).place = .ended then { s with command := .none } else s
  | .giveUp =>
    match s.command with
    | .starting m =>
      if (s.sessions m).everArmed = false then { s with command := .stopping m } else s
    | _ => s
  | .worker m turn => s.withSession m ((s.sessions m).turn m turn)

/-- `debugWatchGetStatus` -/
def watchStatus (s : DebugConsole) : WatchStatus :=
  let session := s.sessions .watch
  { s.statuses.watch with
    active := session.active
    everArmed := session.everArmed
    memoryBlocked := session.active
    lastError := session.lastError
    stage := session.stage
    hint := session.hint }

/-- `debugTraceGetStatus` -/
def traceStatus (s : DebugConsole) : TraceStatus :=
  let session := s.sessions .trace
  { s.statuses.trace with
    active := session.active
    everArmed := session.everArmed
    memoryBlocked := session.active
    lastError := session.lastError
    stage := session.stage
    hint := session.hint }

/-- `debugMultiTraceGetStatus` -/
def multiTraceStatus (s : DebugConsole) : MultiTraceStatus :=
  let session := s.sessions .multitrace
  { s.statuses.multi with
    active := session.active
    everArmed := session.everArmed
    memoryBlocked := session.active
    lastError := session.lastError
    stage := session.stage }

/-- The session has ended before it was armed, with an error. -/
def startFailed (s : DebugConsole) (m : DebugModule) : Prop :=
  (s.sessions m).everArmed = false ∧ (s.sessions m).active = false ∧ (s.sessions m).lastError ≠ 0

end DebugConsole

/-- The lines the six commands can print in a state. -/
inductive Printed (s : DebugConsole) : Line → Prop
  | argumentError (hidle : s.command = .none) (rc : UInt32) (line : Line)
      (hmem : line ∈ argumentErrors rc) : Printed s line
  | watchBusy (hidle : s.command = .none) : Printed s (watchBusyLine s.watchStatus)
  | watchHandleInUse (hwaits : s.command = .starting .watch) (hfailed : s.startFailed .watch) :
      Printed s (watchHandleInUseLine s.watchStatus)
  | watchTimeout (hwaits : s.command = .starting .watch)
      (harmed : (s.sessions .watch).everArmed = false) (hfailed : ¬ s.startFailed .watch) :
      Printed s (watchTimeoutLine s.watchStatus)
  | watchStarted (hwaits : s.command = .starting .watch)
      (harmed : (s.sessions .watch).everArmed = true) (arguments : WatchArguments) :
      Printed s (watchStartedLine s.watchStatus arguments)
  | watchStatus (hidle : s.command = .none) : Printed s (watchStatusLine s.watchStatus)
  | traceInvalid (hidle : s.command = .none) : Printed s (traceInvalidLine s.traceStatus)
  | traceBusy (hidle : s.command = .none) : Printed s (traceBusyLine s.traceStatus)
  | traceStartFailed (hwaits : s.command = .starting .trace) (hfailed : s.startFailed .trace) :
      Printed s (traceStartFailedLine s.traceStatus)
  | traceTimeout (hwaits : s.command = .starting .trace)
      (harmed : (s.sessions .trace).everArmed = false) (hfailed : ¬ s.startFailed .trace) :
      Printed s (traceTimeoutLine s.traceStatus)
  | traceStarted (hwaits : s.command = .starting .trace)
      (harmed : (s.sessions .trace).everArmed = true) (arguments : TraceArguments) :
      Printed s (traceStartedLine s.traceStatus arguments)
  | traceStatus (hidle : s.command = .none) : Printed s (traceStatusLine s.traceStatus)
  | multiTraceBusy (hidle : s.command = .none) :
      Printed s (multiTraceBusyLine s.multiTraceStatus)
  | multiTraceStartFailed (hwaits : s.command = .starting .multitrace)
      (harmed : (s.sessions .multitrace).everArmed = false) :
      Printed s (multiTraceStartFailedLine s.multiTraceStatus)
  | multiTraceStarted (hwaits : s.command = .starting .multitrace)
      (harmed : (s.sessions .multitrace).everArmed = true) (arguments : TraceArguments) :
      Printed s (multiTraceStartedLine s.multiTraceStatus arguments)
  | multiTraceStatus (hidle : s.command = .none) :
      Printed s (multiTraceStatusLine s.multiTraceStatus)

/-- `parse_response` -/
def parseResponse (line : List Char) : Option (List Char × List Field) :=
  parse [['O', 'K'], ['E', 'R', 'R']] ['o', 'k'] line

/-- Every printed line is accepted, with exactly the printed fields. -/
def LinesParse (s : DebugConsole) : Prop :=
  ∀ line, Printed s line → parseResponse line.text = some (line.status, line.fields)

/-! ## Values without blanks -/

theorem digitChar_noBlank (digit : Nat) : isBlank (digitChar digit) = false := by
  have hall : NoBlank ('0' :: digitChars) := by decide
  refine hall _ ?_
  unfold digitChar
  rw [List.getD_eq_getElem?_getD]
  cases hget : digitChars[digit]? with
  | none => simp
  | some c => exact List.mem_cons_of_mem _ (List.mem_of_getElem? hget)

theorem noBlank_nil : NoBlank [] := by
  intro c hc
  cases hc

/-- A text that is written out is that of its characters, with no need to decode it. -/
theorem noBlank_ofList {value : List Char} (h : NoBlank value) :
    NoBlank (String.ofList value).toList := by
  rwa [String.toList_ofList]

theorem noBlank_cons {c : Char} {value : List Char} :
    NoBlank (c :: value) ↔ isBlank c = false ∧ NoBlank value := by
  simp [NoBlank]

theorem noBlank_append {front back : List Char} :
    NoBlank (front ++ back) ↔ NoBlank front ∧ NoBlank back := by
  simp only [NoBlank, List.mem_append]
  exact ⟨fun h => ⟨fun c hc => h c (Or.inl hc), fun c hc => h c (Or.inr hc)⟩,
    fun h c hc => hc.elim (h.1 c) (h.2 c)⟩

@[simp] theorem noBlank_formatBase (base n : Nat) : NoBlank (formatBase base n) := by
  unfold formatBase
  split
  · decide
  · intro c hc
    obtain ⟨digit, -, rfl⟩ := List.mem_map.1 hc
    exact digitChar_noBlank digit

@[simp] theorem noBlank_dec (n : Nat) : NoBlank (dec n) := noBlank_formatBase 10 n

@[simp] theorem noBlank_hex (n : Nat) : NoBlank (hex n) :=
  noBlank_cons.2 ⟨by decide, noBlank_cons.2 ⟨by decide, noBlank_formatBase 16 n⟩⟩

@[simp] theorem noBlank_hex16 (n : UInt64) : NoBlank (hex16 n) := by
  refine noBlank_append.2 ⟨?_, noBlank_formatBase 16 n.toNat⟩
  intro c hc
  rw [List.eq_of_mem_replicate hc]
  decide

@[simp] theorem noBlank_flag (b : Bool) : NoBlank (flag b) := by
  cases b
  · decide
  · decide

@[simp] theorem noBlank_durationFrom (b : Bool) : NoBlank (durationFrom b) := by
  cases b
  · decide
  · decide

@[simp] theorem noBlank_stage (stage : DebugStage) : NoBlank stage.text := by
  cases stage with
  | none => exact noBlank_nil
  | _ => exact noBlank_ofList (by decide)

theorem noBlank_targetProcesses : NoBlank targetProcesses := noBlank_ofList (by decide)

theorem noBlank_commaList {items : List (List Char)} (h : ∀ item ∈ items, NoBlank item) :
    NoBlank (commaList items) := by
  unfold commaList
  induction items with
  | nil => exact noBlank_nil
  | cons item items ih =>
    have hrest := ih fun other hmem => h other (List.mem_cons_of_mem _ hmem)
    cases items with
    | nil => simpa using h item (by simp)
    | cons next items =>
      rw [List.intercalate_cons_cons]
      exact noBlank_append.2 ⟨noBlank_append.2 ⟨h item (by simp), by decide⟩, hrest⟩

theorem noBlank_indexed {count : Nat} {item : Nat → List Char} (h : ∀ i, NoBlank (item i)) :
    NoBlank (indexed count item) := by
  refine noBlank_commaList fun value hmem => ?_
  obtain ⟨i, -, rfl⟩ := List.mem_map.1 hmem
  exact h i

@[simp] theorem noBlank_counts (values : List UInt32) : NoBlank (counts values) := by
  refine noBlank_commaList fun value hmem => ?_
  obtain ⟨n, -, rfl⟩ := List.mem_map.1 hmem
  exact noBlank_dec n.toNat

theorem noBlank_colon {front back : List Char} (hfront : NoBlank front) (hback : NoBlank back) :
    NoBlank (front ++ ':' :: back) :=
  noBlank_append.2 ⟨hfront, noBlank_cons.2 ⟨by decide, hback⟩⟩

theorem noBlank_spec (spec : DebugTraceSnapshotSpec) : NoBlank (printTraceSnapshotSpec spec) := by
  unfold printTraceSnapshotSpec
  refine noBlank_append.2 ⟨noBlank_append.2 ⟨?_, ?_⟩, noBlank_cons.2 ⟨by decide, noBlank_hex _⟩⟩
  · cases spec.base with
    | gpr => exact noBlank_cons.2 ⟨by decide, noBlank_dec _⟩
    | sp =>
      change NoBlank ['s', 'p']
      decide
    | pc =>
      change NoBlank ['p', 'c']
      decide
    | lr =>
      change NoBlank ['l', 'r']
      decide
  · split
    · exact noBlank_cons.2 ⟨by decide, noBlank_hex _⟩
    split
    · exact noBlank_cons.2 ⟨by decide, noBlank_hex _⟩
    · exact noBlank_nil

@[simp] theorem noBlank_indexedDec (count : Nat) (value : Nat → Nat) :
    NoBlank (indexed count fun i => dec (value i)) :=
  noBlank_indexed fun i => noBlank_dec (value i)

@[simp] theorem noBlank_indexedPair (count : Nat) (value : Nat → Nat) :
    NoBlank (indexed count fun i => dec i ++ ':' :: dec (value i)) :=
  noBlank_indexed fun i => noBlank_colon (noBlank_dec i) (noBlank_dec (value i))

@[simp] theorem noBlank_indexedAddress (count : Nat) (value : Nat → Nat) :
    NoBlank (indexed count fun i => dec i ++ ':' :: hex (value i)) :=
  noBlank_indexed fun i => noBlank_colon (noBlank_dec i) (noBlank_hex (value i))

@[simp] theorem noBlank_snapSpecs (count : Nat) (snapshots : Nat → DebugTraceSnapshotSpec) :
    NoBlank (snapSpecs count snapshots) :=
  noBlank_indexed fun i => noBlank_colon (noBlank_dec i) (noBlank_spec (snapshots i))

@[simp] theorem noBlank_targetSnapSpecs (status : TracerStatus) :
    NoBlank (targetSnapSpecs status) := by
  refine noBlank_commaList fun value hmem => ?_
  obtain ⟨target, -, hvalue⟩ := List.mem_flatMap.1 hmem
  obtain ⟨i, -, rfl⟩ := List.mem_map.1 hvalue
  rw [List.append_assoc, List.cons_append]
  exact noBlank_colon (noBlank_dec target) (noBlank_colon (noBlank_dec i) (noBlank_spec _))

/-! ## Lines -/

/-- Names that can stand in one line: each is read back, and they are different. -/
structure GoodNames (names : List String) : Prop where
  good : ∀ name ∈ names.map String.toList, GoodName ['o', 'k'] name
  nodup : (names.map String.toList).Nodup

/-- A line parses back if its names are good and different and no value has a blank. -/
theorem parseResponse_line {line : Line} (names : List String)
    (hfields : line.fields.map Prod.fst = names.map String.toList)
    (hnames : GoodNames names)
    (hvalues : ∀ value ∈ line.fields.map Prod.snd, NoBlank value) :
    parseResponse line.text = some (line.status, line.fields) := by
  have hstatus : line.status ∈ [['O', 'K'], ['E', 'R', 'R']] ∧ line.status ≠ [] ∧
      NoBlank line.status := by
    unfold Line.status
    cases line.ok
    · decide
    · decide
  refine parse_render hstatus.1 hstatus.2.1 hstatus.2.2 ?_ ?_ ?_
  · intro entry hmem
    refine hnames.good entry.1 ?_
    rw [← hfields]
    exact List.mem_map_of_mem hmem
  · intro entry hmem
    exact hvalues entry.2 (List.mem_map_of_mem hmem)
  · rw [hfields]
    exact hnames.nodup

def watchStartedNames : List String :=
  ["state", "active", "address", "size", "hits", "duration", "dmntClosed"]

def watchStatusNames : List String :=
  ["active", "armed", "everArmed", "stale", "memoryBlocked", "pid", "address", "size", "maxHits",
    "hitCount", "ctxSlot", "wpSlot", "duration", "ring", "ringCount", "filter", "lastPc", "lastLr",
    "lastSp", "lastData", "lastThread", "stage", "lastError", "hint"]

def traceStartedNames : List String :=
  ["state", "active", "pid", "address", "targetCount", "targets", "args", "hits", "ring",
    "duration", "durationFrom", "ctxSlot", "insnSlot", "slots", "snapshots", "dmntClosed",
    "lastError", "stage"]

def traceStatusNames : List String :=
  ["active", "armed", "everArmed", "stale", "memoryBlocked", "dmntClosed", "pid", "address",
    "targetCount", "targets", "targetHits", "maxHits", "hitCount", "duration", "durationFrom",
    "startedTick", "durationStartTick", "ring", "ringCount", "overwritten", "args", "ctxSlot",
    "insnSlot", "lastSeq", "lastPc", "lastLr", "lastSp", "lastThread", "lastCore", "slots",
    "ignoredHits", "snapshots", "snapSpecs", "targetSnapCounts", "targetSnapSpecs", "stage",
    "lastError", "hint"]

def multiTraceStartedNames : List String :=
  ["state", "active", "pid0", "target0", "pid1", "target1", "targetCount", "target2", "target3",
    "targetProcesses", "hits", "ring", "duration", "durationFrom", "args", "snapshots", "ctx",
    "slots"]

def multiTraceStatusNames : List String :=
  ["active", "armed", "everArmed", "stale", "memoryBlocked", "pid0", "target0", "pid1", "target1",
    "hits", "targetCount", "target2", "target3", "targetProcesses", "hits2", "hitCount", "maxHits",
    "ring", "ringCount", "duration", "durationFrom", "startedTick", "durationStartTick", "args",
    "snapshots", "snapSpecs", "targetSnapCounts", "targetSnapSpecs", "ignoredHits", "ctx", "slots",
    "lastSeq", "lastPc", "lastLr", "lastSp", "lastThread", "lastCore", "stage", "lastError"]

/-- The names in each kind of line. -/
def lineNames : List (List String) :=
  [watchStartedNames, watchStatusNames, traceStartedNames, traceStatusNames,
    multiTraceStartedNames, multiTraceStatusNames, ["code"], ["code", "detail"], ["code", "max"],
    ["code", "result"], ["code", "index"], ["code", "index", "result"], ["code", "lastError"],
    ["code", "result", "stage"], ["code", "result", "stage", "hint"],
    ["code", "active", "stage", "result"], ["code", "active", "result", "stage"]]

/-- The characters of names that are written out, in place of their encoding. -/
theorem goodNames_of_chars {names : List String} {chars : List (List Char)}
    (hchars : List.Forall₂ (fun name value => name = String.ofList value) names chars)
    (hgood : (∀ name ∈ chars, GoodName ['o', 'k'] name) ∧ chars.Nodup) : GoodNames names := by
  have hmap : names.map String.toList = chars := by
    clear hgood
    induction hchars with
    | nil => rfl
    | cons hname _ ih => rw [List.map_cons, hname, String.toList_ofList, ih]
  exact ⟨hmap ▸ hgood.1, hmap ▸ hgood.2⟩

theorem lineNames_good : ∀ names ∈ lineNames, GoodNames names := by
  simp only [lineNames, List.forall_mem_cons]
  and_intros
  all_goals first
    | exact fun _ hmem => nomatch hmem
    | exact goodNames_of_chars (by repeat constructor) (by decide)

/-- The refusals of arguments. -/
theorem parse_argumentErrors (rc : UInt32) (line : Line) (hmem : line ∈ argumentErrors rc) :
    parseResponse line.text = some (line.status, line.fields) := by
  have hshape : line.fields.map Prod.fst ∈ [["code"], ["code", "detail"], ["code", "max"],
      ["code", "result"], ["code", "index"], ["code", "index", "result"]].map
        (List.map String.toList) ∧ ∀ value ∈ line.fields.map Prod.snd, NoBlank value := by
    have hall : ∀ entry ∈ argumentErrors rc, entry.fields.map Prod.fst ∈ [["code"],
        ["code", "detail"], ["code", "max"], ["code", "result"], ["code", "index"],
        ["code", "index", "result"]].map (List.map String.toList) ∧
        ∀ value ∈ entry.fields.map Prod.snd, NoBlank value := by
      simp only [argumentErrors, errorLine, field, List.forall_mem_cons, List.map_cons,
        List.map_nil, noBlank_hex, noBlank_dec, List.not_mem_nil, false_implies, implies_true,
        and_true]
      simp only [List.mem_cons, List.cons.injEq, reduceCtorEq, and_false, and_self, false_or,
        true_or, or_true, true_and]
      and_intros
      all_goals exact noBlank_ofList (by decide)
    exact hall line hmem
  obtain ⟨hnames, hvalues⟩ := hshape
  obtain ⟨names, hmem, hfields⟩ := List.mem_map.1 hnames
  have hline : names ∈ lineNames := by
    refine List.mem_of_mem_drop (i := 6) (List.mem_of_mem_take (i := 6) ?_)
    exact hmem
  exact parseResponse_line names hfields.symm (lineNames_good names hline) hvalues

/-! ## Which states print only lines that parse back -/

theorem parse_watchStatus {status : WatchStatus} (hhint : status.hint = []) :
    parseResponse (watchStatusLine status).text =
      some ((watchStatusLine status).status, (watchStatusLine status).fields) := by
  refine parseResponse_line watchStatusNames rfl (lineNames_good _ (by simp [lineNames])) ?_
  simp only [watchStatusLine, field, List.map_cons, List.map_nil, List.forall_mem_cons]
  simp [hhint, noBlank_nil]

theorem parse_traceStatus {status : TraceStatus} (hhint : status.hint = []) :
    parseResponse (traceStatusLine status).text =
      some ((traceStatusLine status).status, (traceStatusLine status).fields) := by
  refine parseResponse_line traceStatusNames rfl (lineNames_good _ (by simp [lineNames])) ?_
  simp only [traceStatusLine, field, List.map_cons, List.map_nil, List.forall_mem_cons]
  simp [hhint, noBlank_nil]

theorem parse_multiTraceStatus (status : MultiTraceStatus) :
    parseResponse (multiTraceStatusLine status).text =
      some ((multiTraceStatusLine status).status, (multiTraceStatusLine status).fields) := by
  refine parseResponse_line multiTraceStatusNames rfl (lineNames_good _ (by simp [lineNames])) ?_
  simp only [multiTraceStatusLine, field, List.map_cons, List.map_nil, List.forall_mem_cons]
  simp [noBlank_targetProcesses]

theorem parse_started :
    (∀ (status : WatchStatus) (arguments : WatchArguments),
      parseResponse (watchStartedLine status arguments).text =
        some ((watchStartedLine status arguments).status,
          (watchStartedLine status arguments).fields)) ∧
    (∀ (status : TraceStatus) (arguments : TraceArguments),
      parseResponse (traceStartedLine status arguments).text =
        some ((traceStartedLine status arguments).status,
          (traceStartedLine status arguments).fields)) ∧
    ∀ (status : MultiTraceStatus) (arguments : TraceArguments),
      parseResponse (multiTraceStartedLine status arguments).text =
        some ((multiTraceStartedLine status arguments).status,
          (multiTraceStartedLine status arguments).fields) := by
  have hstarted : NoBlank "started".toList := noBlank_ofList (by decide)
  refine ⟨fun status arguments => ?_, fun status arguments => ?_, fun status arguments => ?_⟩
  · refine parseResponse_line watchStartedNames rfl (lineNames_good _ (by simp [lineNames])) ?_
    simp only [watchStartedLine, field, List.map_cons, List.map_nil, List.forall_mem_cons, hstarted]
    simp
  · refine parseResponse_line traceStartedNames rfl (lineNames_good _ (by simp [lineNames])) ?_
    simp only [traceStartedLine, field, List.map_cons, List.map_nil, List.forall_mem_cons, hstarted]
    simp
  · refine parseResponse_line multiTraceStartedNames rfl
      (lineNames_good _ (by simp [lineNames])) ?_
    simp only [multiTraceStartedLine, field, List.map_cons, List.map_nil, List.forall_mem_cons,
      hstarted]
    simp [noBlank_targetProcesses]

/-- An error line with further names. -/
theorem parse_errorLine {code : String} {fields : List Field} (names : List String)
    (hfields : fields.map Prod.fst = names.map String.toList)
    (hnames : "code" :: names ∈ lineNames) (hcode : NoBlank code.toList)
    (hvalues : ∀ value ∈ fields.map Prod.snd, NoBlank value) :
    parseResponse (errorLine code fields).text =
      some ((errorLine code fields).status, (errorLine code fields).fields) := by
  refine parseResponse_line ("code" :: names) ?_ (lineNames_good _ hnames) ?_
  · simp only [errorLine, field, List.map_cons, hfields]
  · intro value hmem
    rcases List.mem_cons.1 hmem with rfl | hrest
    · exact hcode
    · exact hvalues value hrest

/-- Where no printable line shows a hint, every line parses back. -/
theorem linesParse_of_noHints {s : DebugConsole} (hwatch : s.watchStatus.hint = [])
    (hidle : s.command = .none → s.traceStatus.hint = [])
    (hended : (s.sessions .trace).active = false → s.traceStatus.hint = []) : LinesParse s := by
  intro line hprinted
  cases hprinted with
  | argumentError _ rc line hmem => exact parse_argumentErrors rc line hmem
  | watchBusy =>
    exact parse_errorLine ["lastError"] rfl (by simp [lineNames]) (noBlank_ofList (by decide))
      (by simp [field])
  | watchHandleInUse =>
    exact parse_errorLine ["result", "stage", "hint"] rfl (by simp [lineNames])
      (noBlank_ofList (by decide)) (by simp [field, hwatch, noBlank_nil])
  | watchTimeout =>
    exact parse_errorLine ["active", "stage", "result"] rfl (by simp [lineNames])
      (noBlank_ofList (by decide)) (by simp [field])
  | watchStarted _ _ arguments => exact parse_started.1 s.watchStatus arguments
  | watchStatus => exact parse_watchStatus hwatch
  | traceInvalid =>
    exact parse_errorLine ["result"] rfl (by simp [lineNames]) (noBlank_ofList (by decide))
      (by simp [field])
  | traceBusy =>
    exact parse_errorLine ["result", "stage"] rfl (by simp [lineNames]) (noBlank_ofList (by decide))
      (by simp [field])
  | traceStartFailed _ hfailed =>
    exact parse_errorLine ["result", "stage", "hint"] rfl (by simp [lineNames])
      (noBlank_ofList (by decide)) (by simp [field, hended hfailed.2.1, noBlank_nil])
  | traceTimeout =>
    exact parse_errorLine ["active", "stage", "result"] rfl (by simp [lineNames])
      (noBlank_ofList (by decide)) (by simp [field])
  | traceStarted _ _ arguments => exact parse_started.2.1 s.traceStatus arguments
  | traceStatus hnone => exact parse_traceStatus (hidle hnone)
  | multiTraceBusy =>
    exact parse_errorLine ["result", "stage"] rfl (by simp [lineNames]) (noBlank_ofList (by decide))
      (by simp [field])
  | multiTraceStartFailed =>
    exact parse_errorLine ["active", "result", "stage"] rfl (by simp [lineNames])
      (noBlank_ofList (by decide)) (by simp [field])
  | multiTraceStarted _ _ arguments => exact parse_started.2.2 s.multiTraceStatus arguments
  | multiTraceStatus => exact parse_multiTraceStatus s.multiTraceStatus

/-- A hint of several words spoils a line that ends with it. -/
theorem parse_hint_eq_none {line : Line} {before : List Field} {first rest word : List Char}
    (hfields : line.fields = before ++ [field "hint" (first ++ ' ' :: rest)])
    (hword : word ∈ words rest) (hequals : '=' ∉ word) : parseResponse line.text = none := by
  have htext : line.text = (line.status ++ (before.flatMap fun entry => ' ' :: token entry) ++
      ' ' :: "hint=".toList ++ first) ++ ' ' :: (rest ++ ['\n']) := by
    unfold Line.text render
    rw [hfields]
    simp [token, field]
  have hstatus : words (line.status ++ (before.flatMap fun entry => ' ' :: token entry) ++
      ' ' :: "hint=".toList ++ first) ≠ [] := by
    obtain ⟨more, hmore⟩ : ∃ more, line.status ++
        (before.flatMap fun entry => ' ' :: token entry) ++ ' ' :: "hint=".toList ++ first =
        line.status ++ ' ' :: more := by
      cases before with
      | nil => exact ⟨"hint=".toList ++ first, by simp⟩
      | cons entry before =>
        exact ⟨token entry ++ (before.flatMap fun other => ' ' :: token other) ++
          ' ' :: "hint=".toList ++ first, by simp⟩
    have hword : line.status ≠ [] ∧ NoBlank line.status := by
      unfold Line.status
      cases line.ok
      · decide
      · decide
    rw [hmore, words_append (by decide), words_word hword.1 hword.2]
    exact List.cons_ne_nil _ _
  rw [htext]
  unfold parseResponse
  refine parse_eq_none hstatus ?_ hequals
  rw [words_append (by decide)]
  exact List.mem_append_left _ hword

/-- The hint of a watch has a later word with no `=` in it. -/
theorem words_watchHint : ∃ first rest, watchHint = first ++ ' ' :: rest ∧
    ['h', 'a', 'n', 'd', 'l', 'e'] ∈ words rest := by
  obtain ⟨more, hmore⟩ : ∃ more, watchHint =
      ['d', 'e', 'b', 'u', 'g'] ++ ' ' :: (['h', 'a', 'n', 'd', 'l', 'e'] ++ ' ' :: more) := by
    have hfront : "debug handle still owned by another debugger (e.g. gdbstub); ".toList = _ :=
      String.toList_ofList
    unfold watchHint
    rw [String.toList_append, String.toList_append, hfront]
    exact ⟨_, rfl⟩
  refine ⟨_, _, hmore, ?_⟩
  rw [words_append (by decide), words_word (by decide) (by decide)]
  exact List.mem_cons_self

theorem not_linesParse_watch {s : DebugConsole} (hidle : s.command = .none)
    (h : s.watchStatus.hint = watchHint) : ¬ LinesParse s := by
  intro hparse
  obtain ⟨first, rest, hhint, hword⟩ := words_watchHint
  have hfields : (watchStatusLine s.watchStatus).fields =
      (watchStatusLine s.watchStatus).fields.dropLast ++ [field "hint" (first ++ ' ' :: rest)] := by
    rw [← hhint, ← h]
    rfl
  have hequals : '=' ∉ ['h', 'a', 'n', 'd', 'l', 'e'] := by decide
  have hnone := parse_hint_eq_none hfields hword hequals
  rw [hparse _ (.watchStatus hidle)] at hnone
  cases hnone

/-! ## Runs -/

/-- The attach of a watch does not find the debug handle in use. -/
def HandleFree (s : DebugConsole) (e : StatusStep) : Prop :=
  e = .worker .watch .handleInUse → (s.sessions .watch).place ≠ .attaching

/-- The steps by which what has begun goes on: no command, and no attach that is refused. -/
def WorkerGoesOn : StatusStep → Prop
  | .waited => True
  | .worker _ .handleInUse => False
  | .worker _ _ => True
  | _ => False

/-- What one session keeps: a hint is a trace's, from the refused attach to `cleanup`. -/
structure SessionHinted (m : DebugModule) (s : DebugSession) : Prop where
  active : s.place ≠ .ended → s.active = true
  unarmed : s.place = .attaching ∨ s.place = .refused → s.everArmed = false
  refused : s.place = .refused → m = .trace
  hint : s.hint ≠ [] → m = .trace ∧ s.place = .leaving ∧ s.everArmed = false

/-- The sessions, and the command thread inside the start of every session that is not armed. -/
structure StatusInv (s : DebugConsole) : Prop where
  session : ∀ m, SessionHinted m (s.sessions m)
  waiting : ∀ m, (s.sessions m).place ≠ .ended → (s.sessions m).everArmed = false →
    s.command = .starting m ∨ s.command = .stopping m

/-- While the command thread is free, whatever runs is armed. -/
theorem StatusInv.armed_of_idle {s : DebugConsole} (h : StatusInv s) (hidle : s.command = .none)
    {m : DebugModule} (hplace : (s.sessions m).place ≠ .ended) :
    (s.sessions m).everArmed ≠ false := by
  intro harmed
  rcases h.waiting m hplace harmed with hwaits | hwaits
  · exact absurd (hidle ▸ hwaits) (by simp)
  · exact absurd (hidle ▸ hwaits) (by simp)

theorem StatusInv.linesParse {s : DebugConsole} (h : StatusInv s) : LinesParse s := by
  have hempty : ∀ m, m ≠ .trace → (s.sessions m).hint = [] := fun m hm =>
    by_contra fun hne => hm ((h.session m).hint hne).1
  refine linesParse_of_noHints (hempty .watch (by decide)) (fun hidle => ?_) fun hended => ?_
  · by_contra hne
    obtain ⟨-, hplace, harmed⟩ := (h.session .trace).hint hne
    exact h.armed_of_idle hidle (by rw [hplace]; decide) harmed
  · by_contra hne
    obtain ⟨-, hplace, -⟩ := (h.session .trace).hint hne
    have hactive := (h.session .trace).active (by rw [hplace]; decide)
    rw [hended] at hactive
    cases hactive

theorem sessionHinted_initial (m : DebugModule) : SessionHinted m .initial :=
  ⟨fun h => absurd rfl h, fun _ => rfl, by rintro ⟨⟩, fun h => absurd rfl h⟩

/-- A worker on its way to `cleanup`, without a hint. -/
theorem sessionHinted_leaving {m : DebugModule} {s : DebugSession} (hactive : s.active = true)
    (hplace : s.place = .leaving) (hhint : s.hint = []) : SessionHinted m s :=
  ⟨fun _ => hactive, fun h => absurd (hplace ▸ h) (by decide),
    fun h => absurd (hplace ▸ h) (by decide), fun h => absurd hhint h⟩

theorem sessionHinted_turn {m : DebugModule} {s : DebugSession} (h : SessionHinted m s)
    {turn : WorkerTurn} (hfree : m = .watch → turn = .handleInUse → s.place ≠ .attaching) :
    SessionHinted m (s.turn m turn) := by
  have hactive : ∀ place, place ≠ .ended → s.place = place → s.active = true := fun place hne heq =>
    h.active (by rw [heq]; exact hne)
  cases turn with
  | handleInUse =>
    unfold DebugSession.turn
    by_cases hplace : s.place = .attaching
    · simp only [if_pos hplace]
      cases m with
      | watch => exact absurd hplace (hfree rfl rfl)
      | trace =>
        exact ⟨fun _ => hactive _ (by decide) hplace, fun _ => h.unarmed (.inl hplace),
          fun _ => rfl, fun hne => absurd rfl hne⟩
      | multitrace => exact sessionHinted_leaving (hactive _ (by decide) hplace) rfl rfl
    · simp only [if_neg hplace]
      exact h
  | setHint =>
    unfold DebugSession.turn
    by_cases hplace : s.place = .refused
    · simp only [if_pos hplace]
      exact ⟨fun _ => hactive _ (by decide) hplace, by rintro (⟨⟨⟩⟩ | ⟨⟨⟩⟩), by rintro ⟨⟩,
        fun _ => ⟨h.refused hplace, rfl, h.unarmed (.inr hplace)⟩⟩
    · simp only [if_neg hplace]
      exact h
  | setError stage rc =>
    unfold DebugSession.turn
    by_cases hplace : s.place = .attaching ∨ s.place = .armed
    · simp only [if_pos hplace]
      exact sessionHinted_leaving
        (hplace.elim (hactive _ (by decide)) (hactive _ (by decide))) rfl rfl
    · simp only [if_neg hplace]
      exact h
  | setStage stage =>
    unfold DebugSession.turn
    by_cases hplace : s.place = .attaching ∨ s.place = .armed
    · simp only [if_pos hplace]
      exact sessionHinted_leaving
        (hplace.elim (hactive _ (by decide)) (hactive _ (by decide))) rfl rfl
    · simp only [if_neg hplace]
      exact h
  | arm =>
    unfold DebugSession.turn
    by_cases hplace : s.place = .attaching
    · simp only [if_pos hplace]
      exact ⟨fun _ => hactive _ (by decide) hplace, by rintro (⟨⟨⟩⟩ | ⟨⟨⟩⟩), by rintro ⟨⟩,
        fun hne => absurd rfl hne⟩
    · simp only [if_neg hplace]
      exact h
  | leave =>
    unfold DebugSession.turn
    by_cases hplace : s.place = .armed
    · simp only [if_pos hplace]
      refine sessionHinted_leaving (hactive _ (by decide) hplace) rfl (by_contra fun hne => ?_)
      have hleaving := (h.hint hne).2.1
      rw [hplace] at hleaving
      cases hleaving
    · simp only [if_neg hplace]
      exact h
  | cleanup =>
    unfold DebugSession.turn
    by_cases hplace : m = .trace ∧ s.place = .leaving
    · simp only [if_pos hplace]
      exact ⟨fun _ => hactive _ (by decide) hplace.2, by rintro (⟨⟨⟩⟩ | ⟨⟨⟩⟩), by rintro ⟨⟩,
        fun hne => absurd rfl hne⟩
    · simp only [if_neg hplace]
      exact h
  | finish stage rc =>
    unfold DebugSession.turn
    by_cases hplace : s.place = if m = .trace then .cleanup else .leaving
    · simp only [if_pos hplace]
      refine ⟨fun hne => absurd rfl hne, by rintro (⟨⟨⟩⟩ | ⟨⟨⟩⟩), by rintro ⟨⟩, fun hne => ?_⟩
      -- the place of a trace's last section is behind the stage that empties the hint
      obtain ⟨rfl, hleaving, -⟩ := h.hint hne
      rw [if_pos rfl, hleaving] at hplace
      cases hplace
    · simp only [if_neg hplace]
      exact h

/-- A worker that runs unarmed behind its turn ran unarmed before it. -/
theorem turn_unarmed (m : DebugModule) (s : DebugSession) (turn : WorkerTurn)
    (hplace : (s.turn m turn).place ≠ .ended) (harmed : (s.turn m turn).everArmed = false) :
    s.place ≠ .ended ∧ s.everArmed = false := by
  cases turn with
  | finish stage rc =>
    dsimp only [DebugSession.turn] at hplace harmed
    by_cases hlast : s.place = if m = .trace then .cleanup else .leaving
    · rw [if_pos hlast] at hplace
      exact absurd rfl hplace
    · rw [if_neg hlast] at hplace harmed
      exact ⟨hplace, harmed⟩
  | arm =>
    dsimp only [DebugSession.turn] at hplace harmed
    by_cases hattaching : s.place = .attaching
    · rw [if_pos hattaching] at harmed
      cases harmed
    · rw [if_neg hattaching] at hplace harmed
      exact ⟨hplace, harmed⟩
  | _ =>
    dsimp only [DebugSession.turn, DebugSession.failed] at hplace harmed
    split at hplace
    · rename_i hguard
      rw [if_pos hguard] at harmed
      refine ⟨fun hended => ?_, harmed⟩
      simp [hended] at hguard
    · rename_i hguard
      rw [if_neg hguard] at harmed
      exact ⟨hplace, harmed⟩

theorem StatusInv.turn {s : DebugConsole} (h : StatusInv s) {m : DebugModule} {turn : WorkerTurn}
    (hfree : m = .watch → turn = .handleInUse → (s.sessions m).place ≠ .attaching) :
    StatusInv (s.withSession m ((s.sessions m).turn m turn)) := by
  refine ⟨fun k => ?_, fun k hplace harmed => ?_⟩
  · by_cases hk : k = m
    · subst hk
      simp only [DebugConsole.withSession, Function.update_self]
      exact sessionHinted_turn (h.session k) hfree
    · simp only [DebugConsole.withSession, Function.update_of_ne hk]
      exact h.session k
  · by_cases hk : k = m
    · subst hk
      simp only [DebugConsole.withSession, Function.update_self] at hplace harmed
      obtain ⟨hplace', harmed'⟩ := turn_unarmed k _ turn hplace harmed
      exact h.waiting k hplace' harmed'
    · simp only [DebugConsole.withSession, Function.update_of_ne hk] at hplace harmed
      exact h.waiting k hplace harmed

theorem statusInv_init (statuses : DebugStatuses) : StatusInv (.init statuses) :=
  ⟨fun m => sessionHinted_initial m, fun _ h => absurd rfl h⟩

/-- A change of a session that is not running. -/
theorem StatusInv.withEnded {s : DebugConsole} (h : StatusInv s) {m : DebugModule}
    {session : DebugSession} (hsession : SessionHinted m session)
    (hended : session.place = .ended ∨ session.place = (s.sessions m).place ∧
      session.everArmed = (s.sessions m).everArmed) : StatusInv (s.withSession m session) := by
  refine ⟨fun k => ?_, fun k hplace harmed => ?_⟩
  · by_cases hk : k = m
    · subst hk
      simpa only [DebugConsole.withSession, Function.update_self] using hsession
    · simpa only [DebugConsole.withSession, Function.update_of_ne hk] using h.session k
  · by_cases hk : k = m
    · subst hk
      simp only [DebugConsole.withSession, Function.update_self] at hplace harmed
      rcases hended with hended | ⟨hsame, harmedSame⟩
      · exact absurd hended hplace
      · exact h.waiting k (hsame ▸ hplace) (harmedSame ▸ harmed)
    · simp only [DebugConsole.withSession, Function.update_of_ne hk] at hplace harmed
      exact h.waiting k hplace harmed

theorem statusInv_start {s : DebugConsole} (h : StatusInv s) (m : DebugModule)
    (hidle : s.command = .none) :
    StatusInv { s.withSession m { DebugSession.initial with place := .attaching, active := true }
      with command := .starting m } := by
  refine ⟨fun k => ?_, fun k hplace harmed => ?_⟩
  · by_cases hk : k = m
    · subst hk
      simp only [DebugConsole.withSession, Function.update_self]
      exact ⟨fun _ => rfl, fun _ => rfl, by rintro ⟨⟩, fun hne => absurd rfl hne⟩
    · simpa only [DebugConsole.withSession, Function.update_of_ne hk] using h.session k
  · by_cases hk : k = m
    · exact .inl (by rw [hk])
    · simp only [DebugConsole.withSession, Function.update_of_ne hk] at hplace harmed
      exact absurd harmed (h.armed_of_idle hidle hplace)

/-- The command thread stops waiting. -/
theorem statusInv_waited {s : DebugConsole} (h : StatusInv s) : StatusInv (s.step .waited) := by
  dsimp only [DebugConsole.step]
  cases hcommand : s.command with
  | none => exact h
  | starting m =>
    dsimp only
    split
    · rename_i hover
      refine ⟨h.session, fun k hplace harmed => ?_⟩
      have hwaits := h.waiting k hplace harmed
      rw [hcommand] at hwaits
      obtain rfl : m = k := by simpa using hwaits
      rcases hover with hover | hover
      · exact absurd (hover.symm.trans harmed) (by decide)
      · exact absurd (hover.symm.trans ((h.session m).active hplace)) (by decide)
    · exact h
  | stopping m =>
    dsimp only
    split
    · rename_i hended
      refine ⟨h.session, fun k hplace harmed => ?_⟩
      have hwaits := h.waiting k hplace harmed
      rw [hcommand] at hwaits
      obtain rfl : m = k := by simpa using hwaits
      exact absurd hended hplace
    · exact h

theorem statusInv_step (s : DebugConsole) (e : StatusStep) (h : StatusInv s)
    (hfree : HandleFree s e) : StatusInv (s.step e) := by
  cases e with
  | update statuses => exact ⟨h.session, h.waiting⟩
  | refuse m stage rc =>
    dsimp only [DebugConsole.step]
    split
    · have hsession := h.session m
      exact h.withEnded ⟨hsession.active, hsession.unarmed, hsession.refused, hsession.hint⟩
        (.inr ⟨rfl, rfl⟩)
    · exact h
  | start m rc =>
    dsimp only [DebugConsole.step]
    split
    · rename_i hidle
      split
      · exact statusInv_start h m hidle.1
      · exact h.withEnded ⟨fun hne => absurd rfl hne, fun _ => rfl, by rintro ⟨⟩,
          fun hne => absurd rfl hne⟩ (.inl rfl)
    · exact h
  | stop m =>
    dsimp only [DebugConsole.step]
    split
    · rename_i hidle
      exact ⟨h.session, fun k hplace harmed => absurd harmed (h.armed_of_idle hidle hplace)⟩
    · exact h
  | waited => exact statusInv_waited h
  | giveUp =>
    dsimp only [DebugConsole.step]
    cases hcommand : s.command with
    | starting m =>
      dsimp only
      split
      · refine ⟨h.session, fun k hplace harmed => .inr ?_⟩
        have hwaits := h.waiting k hplace harmed
        rw [hcommand] at hwaits
        exact congrArg AwaitedCommand.stopping (by simpa using hwaits)
      · exact h
    | _ => exact h
  | worker m turn =>
    exact h.turn fun hm hturn => hm ▸ hfree (by rw [hm, hturn])

theorem setHint_watch (s : DebugSession) (hplace : s.place = .refused) :
    s.turn .watch .setHint = { s with place := .leaving, hint := watchHint } := by
  have hhint : DebugModule.watch.hint = some watchHint := rfl
  rw [DebugSession.turn, if_pos hplace, hhint, Option.getD_some]

theorem finish_watch (s : DebugSession) (hplace : s.place = .leaving) (stage : DebugStage)
    (rc : UInt32) : s.turn .watch (.finish stage rc) =
      { s with
        place := .ended
        active := false
        lastError := if s.lastError = 0 then rc else s.lastError
        stage := stage } :=
  if_pos hplace

/-- What is under way behind a refused attach of a watch, while its command is waited for. -/
theorem hint_shown {s : DebugConsole} (hplace : (s.sessions .watch).place = .refused)
    (hwaits : s.command = .starting .watch ∨ s.command = .stopping .watch) :
    ¬ LinesParse (Runs.run DebugConsole.step s [.worker .watch .setHint,
      .worker .watch (.finish .debugActiveProcess 0), .waited]) := by
  obtain ⟨session, hsession, hhint, hended⟩ : ∃ session,
      ((s.sessions .watch).turn .watch .setHint).turn .watch (.finish .debugActiveProcess 0) =
        session ∧ session.hint = watchHint ∧ session.place = .ended ∧ session.active = false := by
    refine ⟨_, rfl, ?_⟩
    rw [setHint_watch _ hplace, finish_watch _ rfl]
    simp only [and_self]
  have hturns : DebugConsole.step (DebugConsole.step s (.worker .watch .setHint))
        (.worker .watch (.finish .debugActiveProcess 0)) =
      (s.withSession .watch ((s.sessions .watch).turn .watch .setHint)).withSession .watch
        session := by
    simp only [DebugConsole.step, DebugConsole.withSession_self, hsession]
  rw [Runs.run_cons, Runs.run_cons, Runs.run_cons, Runs.run_nil, hturns]
  refine not_linesParse_watch ?_ ?_
  · rcases hwaits with hwaits | hwaits
    · simp [DebugConsole.step, DebugConsole.withSession, hwaits, hended]
    · simp [DebugConsole.step, DebugConsole.withSession, hwaits, hended]
  · rcases hwaits with hwaits | hwaits
    · simp [DebugConsole.step, DebugConsole.withSession, DebugConsole.watchStatus, hwaits, hended,
        hhint]
    · simp [DebugConsole.step, DebugConsole.withSession, DebugConsole.watchStatus, hwaits, hended,
        hhint]

/-- The attach of a watch that is refused leads, by what is under way alone, to a status that shows
    the hint. -/
theorem not_linesParse_of_refused (s : DebugConsole) (e : StatusStep) (h : StatusInv s)
    (hfree : ¬ HandleFree s e) : ∃ more, (∀ b ∈ more, WorkerGoesOn b) ∧
      ¬ LinesParse (Runs.run DebugConsole.step s (e :: more)) := by
  obtain ⟨rfl, hplace⟩ := Classical.not_imp.1 hfree
  have hplace := not_not.1 hplace
  have harmed := (h.session .watch).unarmed (.inl hplace)
  have hwaits := h.waiting .watch (by rw [hplace]; decide) harmed
  refine ⟨[.worker .watch .setHint, .worker .watch (.finish .debugActiveProcess 0), .waited],
    by simp [WorkerGoesOn], ?_⟩
  rw [Runs.run_cons]
  refine hint_shown ?_ hwaits
  rw [DebugConsole.step, DebugConsole.withSession_self, DebugSession.turn, if_pos hplace]
  rfl

/-- In every run, all lines that can be printed in its states, and in those that what is under way
    leads to, parse back iff no attach of a watch finds the debug handle in use. -/
theorem status_lines_parse_iff (statuses : DebugStatuses) (events : List StatusStep) :
    (∀ before, before <+: events → ∀ more, (∀ e ∈ more, WorkerGoesOn e) →
        LinesParse (Runs.run DebugConsole.step (.init statuses) (before ++ more))) ↔
      Runs.EachStep DebugConsole.step HandleFree (.init statuses) events := by
  refine Runs.forall_reached_iff statusInv_step (fun _ h => h.linesParse) (fun s e hgoes => ?_)
    not_linesParse_of_refused (statusInv_init statuses)
  rintro rfl
  exact hgoes.elim

/-- A trace whose attach finds the debug handle in use, and a watch behind it that arms. -/
def refusedTrace : List StatusStep :=
  [.start .trace 0, .worker .trace .handleInUse, .worker .trace .setHint,
    .worker .trace .cleanup, .worker .trace (.finish .debugActiveProcess 0), .waited,
    .start .watch 0, .worker .watch .arm, .waited]

theorem status_lines_parse_refused_trace : ∀ before, before <+: refusedTrace →
    LinesParse (Runs.run DebugConsole.step (.init default) before) := by
  have hfree : Runs.EachStep DebugConsole.step HandleFree (.init default) refusedTrace := by
    simp [refusedTrace, Runs.eachStep_cons, Runs.eachStep_nil, HandleFree]
  intro before hbefore
  have hparse := (status_lines_parse_iff default refusedTrace).2 hfree before hbefore [] (by simp)
  rwa [List.append_nil] at hparse

/-- A watch whose attach finds the debug handle in use. -/
theorem status_lines_with_hint :
    ¬ LinesParse (Runs.run DebugConsole.step (.init default)
      [.start .watch 0, .worker .watch .handleInUse, .worker .watch .setHint,
        .worker .watch (.finish .debugActiveProcess 0), .waited]) := by
  rw [Runs.run_cons, Runs.run_cons]
  exact hint_shown (by decide) (Or.inl (by decide))

end SysAgent
