import SysAgent.Lib.Runs
import SysAgent.Search.Refinement
import SysAgent.Search.SessionRequests
import SysAgent.Search.Sessions

set_option autoImplicit false

/-! # An unknown search, step by step (`unknown_search.c`)

The manager, the files of the session, the command thread and the worker. Commands run one at a
time; what a command does between two locks and under the second is one step. Of the worker, a turn
of a loop is one step: it takes the lock once to look for a cancellation, and what else it does
under the lock is to count. All that the outside answers stands in the labels. `remove` does not
fail, and nothing else touches the directory.

`last` is a ghost: what the last pass that ended as done had left. -/

namespace SysAgent.UnknownSearch

/-! ## The state -/

inductive SearchOperation
  | begin
  | refine (mode : SearchCompareMode)
  deriving DecidableEq

/-- `SearchStatus` under a session id, with what the manager keeps about the process. -/
structure Session where
  sessionId : UInt64
  request : BeginRequest
  operation : SearchOperation
  pause : Bool
  state : SearchPhase
  failure : Option SearchFailure
  error : UInt32
  committed : Bool
  resumable : Bool
  generation : UInt64
  scanned : UInt64
  totalMatches : UInt64
  storedMatches : UInt64
  candidates : UInt64
  readErrors : UInt64
  diskBytes : UInt64

/-- `unknownManager`; a status that is all zero is none. -/
structure Manager where
  storageAvailable : Bool
  exitRequested : Bool
  cancelRequested : Bool
  nextSessionId : UInt64
  exactValue : UInt64
  session : Option Session

def Manager.sessionId (m : Manager) : UInt64 :=
  match m.session with
  | none => 0
  | some x => x.sessionId

/-- `cancelled`. -/
def Manager.cancelled (m : Manager) : Bool :=
  m.cancelRequested || m.exitRequested

/-- Where the command thread is: between the two locks of a begin or of a refinement. -/
inductive Command
  | idle
  | beginQueue (a : BeginArguments) (parsed : ParsedBegin a.size)
  | refineQueue (sessionId : UInt64) (a : RefineArguments) (width : Nat)

/-- The variables of `runBegin` in its loops; in the inner one it has a mapping. -/
structure BeginPass where
  request : BeginRequest
  cursor : Nat
  mappingEnd : Option Nat
  raw : Nat → UInt8
  writer : SearchStoreWriter SessionFile
  pinned : Bool

/-- The variables of `runRefine` in its loop. -/
structure RefinePass where
  expected : SearchStoreMetadata
  mode : SearchCompareMode
  exactValue : UInt64
  previousCandidates : UInt64
  reader : SearchStoreReader
  previous : List UInt8
  oldMask : List UInt8
  writer : SearchStoreWriter SessionFile
  pinned : Bool

/-- The variables of either at `done`: a refinement has the candidates it began with, and the writer
    is there once it has been opened. -/
structure PassEnd where
  previousCandidates : Option UInt64
  writer : Option (SearchStoreWriter SessionFile)
  pinned : Bool
  failure : Option SearchFailure
  error : UInt32

/-- What is passed to `finish`. -/
structure PassResult where
  state : SearchPhase
  error : UInt32
  failure : Option SearchFailure
  committed : Bool

/-- Where the worker is. What it reads of the status outside of the lock does not change while it
    runs. An access outside of a buffer is `faulted`. -/
inductive Worker
  | idle
  | opening (session : Session) (exactValue : UInt64)
  | reading (pass : BeginPass)
  | comparing (pass : RefinePass)
  | ending (pass : PassEnd)
  | counting (refining : Bool) (candidates : UInt64)
  | restoring (candidates : UInt64) (result : PassResult)
  | finishing (result : PassResult)
  | faulted

structure Committed where
  content : Option (List UInt8)
  generation : UInt64
  candidates : UInt64

structure State where
  manager : Manager
  dir : Directory SessionFile
  command : Command
  worker : Worker
  last : Option Committed

/-- After `unknownSearchInitialize`, which empties the directory. -/
def initial (storageAvailable : Bool) : State where
  manager :=
    { storageAvailable := storageAvailable
      exitRequested := false
      cancelRequested := false
      nextSessionId := 0x8000000000000001
      exactValue := 0
      session := none }
  dir := fun _ => none
  command := .idle
  worker := .idle
  last := none

/-! ## Commands -/

/-- The status that `unknownSearchBegin` sets up. -/
def newSession (sessionId : UInt64) (request : BeginRequest) (pause : Bool) : Session where
  sessionId := sessionId
  request := request
  operation := .begin
  pause := pause
  state := .queued
  failure := none
  error := 0
  committed := false
  resumable := false
  generation := 0
  scanned := 0
  totalMatches := 0
  storedMatches := 0
  candidates := 0
  readErrors := 0
  diskBytes := 0

/-- What `unknownSearchRefine` changes in it. -/
def Session.queueRefine (x : Session) (a : RefineArguments) : Session :=
  { x with
    operation := .refine a.mode
    pause := a.pause
    state := .queued
    failure := none
    scanned := 0
    totalMatches := 0
    storedMatches := 0 }

namespace State

/-- `unknownSearchBegin` up to the end of its first lock. -/
def beginCheck (a : BeginArguments) (s : State) : State :=
  match parseBegin a with
  | .error _ => s
  | .ok parsed =>
    if s.manager.storageAvailable = false ∨ s.manager.sessionId ≠ 0 then s
    else { s with command := .beginQueue a parsed }

/-- The rest of it. -/
def beginQueue (a : BeginArguments) (parsed : ParsedBegin a.size) (world : BeginWorld) (s : State) :
    State :=
  match requestBegin a parsed world with
  | .error _ => { s with command := .idle }
  | .ok request =>
    if s.manager.sessionId ≠ 0 then { s with command := .idle }
    else
      { s with
        manager := { s.manager with
          cancelRequested := false
          nextSessionId := s.manager.nextSessionId + 1
          session := some (newSession s.manager.nextSessionId request a.pause) }
        command := .idle
        last := none }

/-- `unknownSearchRefine` up to the end of its first lock. -/
def refineCheck (sessionId : UInt64) (a : RefineArguments) (s : State) : State :=
  match s.manager.session with
  | none => s
  | some x =>
    if x.sessionId ≠ sessionId ∨ x.committed = false ∨ x.resumable = false then s
    else if x.state.isActive then s
    else { s with command := .refineQueue sessionId a x.request.width }

/-- The rest of it. -/
def refineQueue (sessionId : UInt64) (a : RefineArguments) (width : Nat) (world : RefineWorld)
    (s : State) : State :=
  match requestRefine a width world s.dir, s.manager.session with
  | .ok exactValue, some x =>
    if x.sessionId ≠ sessionId ∨ x.state.isActive then { s with command := .idle }
    else
      { s with
        manager := { s.manager with
          cancelRequested := false
          exactValue := exactValue
          session := some (x.queueRefine a) }
        command := .idle }
  | _, _ => { s with command := .idle }

def unknownSearchCancel (sessionId : UInt64) (s : State) : State :=
  match s.manager.session with
  | none => s
  | some x =>
    if (sessionId ≠ 0 ∧ x.sessionId = sessionId) ∧ x.state.isActive then
      { s with manager := { s.manager with cancelRequested := true } }
    else s

def unknownSearchClose (sessionId : UInt64) (s : State) : State :=
  match s.manager.session with
  | none => s
  | some x =>
    if (sessionId ≠ 0 ∧ x.sessionId = sessionId) ∧ ¬ x.state.isActive then
      { s with
        manager := { s.manager with session := none }
        dir := ((s.dir.remove .temporary).remove .backup).remove .current
        last := none }
    else s

def unknownSearchShutdown (s : State) : State :=
  { s with manager := { s.manager with exitRequested := true, cancelRequested := true } }

end State

/-! ## The worker -/

/-- `MAKERESULT(Module_Libnx, description)`. -/
def libnxResult (description : UInt32) : UInt32 :=
  (345 : UInt32) ||| description <<< 9

def LibnxError_OutOfMemory : UInt32 := 2
def LibnxError_NotFound : UInt32 := 9

/-- `openPinned` and `processMemoryPause`. -/
structure PauseAnswers where
  openPinned : UInt32
  pause : UInt32

/-- `beginPause`: whether the process is pinned. -/
def beginPause (pause : Bool) (answers : PauseAnswers) : Except (SearchFailure × UInt32) Bool :=
  if pause = false then .ok false
  else if answers.openPinned ≠ 0 then .error (.processChanged, answers.openPinned)
  else if answers.pause ≠ 0 then .error (.pauseFailed, answers.pause)
  else .ok true

/-- What is answered before the loops; `raw`, `previous` and `oldMask` are what the allocated
    buffers hold. -/
structure OpenAnswers where
  buffersAllocated : Bool
  reader : Bool
  writer : WriterOpenAnswers
  pause : PauseAnswers
  raw : Nat → UInt8
  previous : Vector UInt8 valuesBuffer
  oldMask : Vector UInt8 maskBuffer

/-- What is answered in one turn of a loop; `reader` is for the reads of the session file and
    `readMemory` the result of the read that fills `memory`. -/
structure TurnAnswers where
  processIsCurrent : Bool
  queryMemory : Except UInt32 MemoryInfo
  reader : Bool
  readMemory : UInt32
  memory : Nat → UInt8
  addBlock : AddBlockAnswers

structure EndAnswers where
  resume : UInt32
  finish : FinishAnswers
  commit : CommitAnswers

structure WorkerAnswers where
  opening : OpenAnswers
  turn : TurnAnswers
  ending : EndAnswers
  /-- `stat` on the session file. -/
  stat : Bool

/-- What a turn counts. -/
inductive Progress
  | none
  | readError
  | scanned (amount candidates : UInt64)

def Session.progress (x : Session) : Progress → Session
  | .none => x
  | .readError => { x with readErrors := x.readErrors + 1 }
  -- `updateProgress`
  | .scanned amount candidates =>
    { x with
      scanned := x.scanned + amount
      totalMatches := candidates
      storedMatches := candidates
      candidates := candidates }

/-- `restoreCommittedCounts`. -/
def Session.restoreCommittedCounts (x : Session) (candidates : UInt64) : Session :=
  { x with totalMatches := candidates, storedMatches := candidates, candidates := candidates }

/-- The counts of a generation that is committed. -/
def Session.countGeneration (x : Session) (refining : Bool) (candidates : UInt64) : Session :=
  { x with
    generation := if refining then x.generation + 1 else 0
    candidates := candidates
    totalMatches := candidates
    storedMatches := candidates }

/-- `finish`; `size` is what `stat` finds. -/
def Session.finish (x : Session) (result : PassResult) (size : Option Nat) : Session :=
  { x with
    state := result.state
    error := result.error
    failure := result.failure
    committed := result.committed
    resumable := result.committed && result.failure ≠ some .processChanged &&
      result.failure ≠ some .corruptSession
    diskBytes :=
      if result.committed then
        match size with
        | none => x.diskBytes
        | some n => UInt64.ofNat n
      else x.diskBytes }

/-! ### A first pass -/

def BeginPass.stop (pass : BeginPass) (failure : Option SearchFailure) (error : UInt32) : Worker :=
  .ending
    { previousCandidates := none
      writer := some pass.writer
      pinned := pass.pinned
      failure := failure
      error := error }

/-- `runBegin` before its loops. -/
def openBegin (answers : OpenAnswers) (x : Session) (dir : Directory SessionFile) :
    Directory SessionFile × Worker :=
  let refuse (error : UInt32) : Worker :=
    .ending
      { previousCandidates := none, writer := none, pinned := false, failure := some .ioError,
        error := error }
  if answers.buffersAllocated = false then (dir, refuse (libnxResult LibnxError_OutOfMemory))
  else
    match searchStoreWriterOpen answers.writer dir .temporary (makeStoreMetadata x.request 0) with
    | (false, dir, _) => (dir, refuse 0)
    | (true, dir, writer) =>
      let pass : BeginPass :=
        { request := x.request, cursor := x.request.start, mappingEnd := none, raw := answers.raw,
          writer := writer, pinned := false }
      match beginPause x.pause answers.pause with
      | .error (failure, error) => (dir, pass.stop (some failure) error)
      | .ok pinned => (dir, .reading { pass with pinned := pinned })

/-- A turn of the outer loop. -/
def outerTurn (answers : TurnAnswers) (cancelled : Bool) (pass : BeginPass) : Progress × Worker :=
  if pass.cursor < pass.request.finish ∧ cancelled = false then
    if answers.processIsCurrent = false then
      (.none, pass.stop (some .processChanged) (libnxResult LibnxError_NotFound))
    else
      match answers.queryMemory with
      | .error error => (.none, pass.stop (some .processChanged) error)
      | .ok info =>
        let plan := searchPlanMapping pass.cursor pass.request.finish info.addr info.size
          info.readable
        match plan.action with
        | .invalid => (.none, pass.stop (some .corruptSession) 0)
        | .skip =>
          (.scanned (UInt64.ofNat (plan.finish - pass.cursor)) pass.writer.header.candidateCount,
            .reading { pass with cursor := plan.finish })
        | .read => (.none, .reading { pass with mappingEnd := some plan.finish })
  else (.none, pass.stop none 0)

/-- A turn of the inner loop. -/
def innerTurn (answers : TurnAnswers) (cancelled : Bool) (pass : BeginPass) (mappingEnd : Nat) :
    Progress × Worker :=
  if pass.cursor < mappingEnd ∧ cancelled = false then
    let r := pass.request
    let amount := min r.maximumSpan (mappingEnd - pass.cursor)
    let readSize :=
      if amount + r.width - 1 ≤ mappingEnd - pass.cursor then amount + r.width - 1 else amount
    if answers.readMemory ≠ 0 then (.readError, pass.stop (some .ioError) answers.readMemory)
    else
      let raw := fun i => if i < readSize then answers.memory (pass.cursor + i) else pass.raw i
      match chunkBlock r raw mappingEnd pass.cursor amount with
      | none =>
        (.scanned (UInt64.ofNat amount) pass.writer.header.candidateCount,
          .reading { pass with cursor := pass.cursor + amount, raw := raw })
      | some call =>
        match searchStoreWriterAddBlock answers.addBlock pass.writer call.base call.slotCount
            call.values call.mask with
        | (false, writer) => (.none, { pass with writer := writer }.stop (some .ioError) 0)
        | (true, writer) =>
          (.scanned (UInt64.ofNat amount) writer.header.candidateCount,
            .reading
              { pass with cursor := pass.cursor + amount, raw := raw, writer := writer })
  else (.none, .reading { pass with mappingEnd := none })

/-! ### A later pass -/

def RefinePass.stop (pass : RefinePass) (failure : Option SearchFailure) (error : UInt32) :
    Worker :=
  .ending
    { previousCandidates := some pass.previousCandidates
      writer := some pass.writer
      pinned := pass.pinned
      failure := failure
      error := error }

/-- `runRefine` before its loop. -/
def openRefine (answers : OpenAnswers) (x : Session) (mode : SearchCompareMode)
    (exactValue : UInt64) (dir : Directory SessionFile) : Directory SessionFile × Worker :=
  let refuse (failure : SearchFailure) : Worker :=
    .ending
      { previousCandidates := some x.candidates, writer := none, pinned := false,
        failure := some failure, error := 0 }
  match searchStoreReaderOpen answers.reader dir .current with
  | .refused => (dir, refuse .corruptSession)
  | .fault => (dir, .faulted)
  | .ok reader =>
    let expected := makeStoreMetadata x.request x.generation
    if reader.header.metadata ≠ expected then (dir, refuse .processChanged)
    else
      match searchStoreWriterOpen answers.writer dir .temporary
          { expected with generation := expected.generation + 1 } with
      | (false, dir, _) => (dir, refuse .ioError)
      | (true, dir, writer) =>
        let pass : RefinePass :=
          { expected := expected, mode := mode, exactValue := exactValue,
            previousCandidates := x.candidates, reader := reader,
            previous := answers.previous.toList, oldMask := answers.oldMask.toList,
            writer := writer, pinned := false }
        if answers.buffersAllocated = false then
          (dir, pass.stop (some .ioError) (libnxResult LibnxError_OutOfMemory))
        else
          match beginPause x.pause answers.pause with
          | .error (failure, error) => (dir, pass.stop (some failure) error)
          | .ok pinned => (dir, .comparing { pass with pinned := pinned })

/-- A turn of the loop. -/
def refineTurn (answers : TurnAnswers) (cancelled : Bool) (pass : RefinePass) :
    Progress × Worker :=
  if cancelled = false ∧ pass.reader.nextBlock < pass.reader.header.blockCount then
    if answers.processIsCurrent = false then
      (.none, pass.stop (some .processChanged) (libnxResult LibnxError_NotFound))
    else
      match searchStoreReaderNext answers.reader pass.reader pass.previous pass.oldMask with
      | .refused => (.none, pass.stop (some .corruptSession) 0)
      | .fault => (.none, .faulted)
      | .ok (block, reader) =>
        let span := blockSpan pass.expected block.header.slotCount
        if span > valuesBuffer then (.none, pass.stop (some .corruptSession) 0)
        else if answers.readMemory ≠ 0 then
          (.readError, pass.stop (some .ioError) answers.readMemory)
        else if hmask : block.header.slotCount.toNat ≤ 8 * maskBytes block.header.slotCount then
          if hslots : block.header.slotCount = 0 then (.none, pass.stop (some .ioError) 0)
          else
            let call := refinedCall pass.expected pass.mode pass.exactValue answers.memory block
              hslots hmask
            match searchStoreWriterAddBlock answers.addBlock pass.writer call.base call.slotCount
                call.values call.mask with
            | (false, writer) => (.none, { pass with writer := writer }.stop (some .ioError) 0)
            | (true, writer) =>
              (.scanned (UInt64.ofNat span) writer.header.candidateCount,
                .comparing
                  { pass with
                    reader := reader, previous := block.values, oldMask := block.mask,
                    writer := writer })
        else (.none, .faulted)
  else (.none, pass.stop none 0)

/-! ### The end of a pass -/

/-- A pass that leaves the session as it was. -/
def PassEnd.conclude (pass : PassEnd) (state : SearchPhase) (error : UInt32)
    (failure : Option SearchFailure) : Worker :=
  match pass.previousCandidates with
  | none => .finishing { state := state, error := error, failure := failure, committed := false }
  | some candidates =>
    .restoring candidates { state := state, error := error, failure := failure, committed := true }

/-- `endPause`. -/
def endPause (answers : EndAnswers) (pass : PassEnd) : PassEnd :=
  if pass.pinned ∧ answers.resume ≠ 0 then
    { pass with failure := some .pauseFailed, error := answers.resume }
  else pass

/-- `searchStoreWriterAbort`, if the writer has been opened. -/
def PassEnd.abort (pass : PassEnd) (dir : Directory SessionFile) : Directory SessionFile :=
  match pass.writer with
  | none => dir
  | some writer => (searchStoreWriterAbort dir writer).1

/-- `searchStoreWriterFinish` and `searchStoreCommit`. -/
def commitPass (answers : EndAnswers) (dir : Directory SessionFile) (pass : PassEnd) :
    Directory SessionFile × Worker :=
  match pass.writer with
  | none => (dir, .faulted)
  | some writer =>
    match searchStoreWriterFinish answers.finish dir writer with
    | (false, dir, writer) =>
      ((searchStoreWriterAbort dir writer).1, pass.conclude .error 0 (some .ioError))
    | (true, dir, writer) =>
      match searchStoreCommit answers.commit dir .temporary .current .backup
          pass.previousCandidates.isSome with
      | (false, dir) =>
        ((searchStoreWriterAbort dir writer).1, pass.conclude .error 0 (some .ioError))
      | (true, dir) =>
        (dir, .counting pass.previousCandidates.isSome writer.header.candidateCount)

/-- What follows `done`, up to the first lock behind it. -/
def endPass (answers : EndAnswers) (cancelled : Bool) (dir : Directory SessionFile)
    (pass : PassEnd) : Directory SessionFile × Worker :=
  let pass := endPause answers pass
  if cancelled then (pass.abort dir, pass.conclude .cancelled 0 none)
  else if pass.failure ≠ none ∨ pass.error ≠ 0 then
    (pass.abort dir, pass.conclude .error pass.error pass.failure)
  else commitPass answers dir pass

namespace State

def updateSession (f : Session → Session) (s : State) : State :=
  { s with manager := { s.manager with session := s.manager.session.map f } }

/-- `unknownSearchRunQueued` takes a job. -/
def take (s : State) : State :=
  match s.manager.session with
  | none => s
  | some x =>
    if x.state = .queued then
      let running := { x with state := .running }
      { s with
        manager := { s.manager with session := some running }
        worker := .opening running s.manager.exactValue }
    else s

/-- The section of `finish`. -/
def finishSection (result : PassResult) (stat : Bool) (s : State) : State :=
  let size := if stat then (s.dir .current).map List.length else none
  let s' := s.updateSession fun x => x.finish result size
  { s' with
    worker := .idle
    last :=
      if result.state = .done then
        s.manager.session.map fun x =>
          { content := s.dir .current, generation := x.generation, candidates := x.candidates }
      else s.last }

def turn (s : State) (next : Progress × Worker) : State :=
  { s.updateSession fun x => x.progress next.1 with worker := next.2 }

def goto (s : State) (next : Directory SessionFile × Worker) : State :=
  { s with dir := next.1, worker := next.2 }

def workerStep (answers : WorkerAnswers) (s : State) : State :=
  match s.worker with
  | .idle => s.take
  | .opening x exactValue =>
    match x.operation with
    | .begin => s.goto (openBegin answers.opening x s.dir)
    | .refine mode => s.goto (openRefine answers.opening x mode exactValue s.dir)
  | .reading pass =>
    match pass.mappingEnd with
    | none => s.turn (outerTurn answers.turn s.manager.cancelled pass)
    | some mappingEnd => s.turn (innerTurn answers.turn s.manager.cancelled pass mappingEnd)
  | .comparing pass => s.turn (refineTurn answers.turn s.manager.cancelled pass)
  | .ending pass => s.goto (endPass answers.ending s.manager.cancelled s.dir pass)
  | .counting refining candidates =>
    { s.updateSession fun x => x.countGeneration refining candidates with
      worker :=
        .finishing { state := .done, error := 0, failure := none, committed := true } }
  | .restoring candidates result =>
    { s.updateSession fun x => x.restoreCommittedCounts candidates with
      worker := .finishing result }
  | .finishing result => s.finishSection result answers.stat
  | .faulted => s

end State

/-! ## Steps -/

inductive Step
  | begin (a : BeginArguments)
  | refine (sessionId : UInt64) (a : RefineArguments)
  /-- The command thread goes on with a begin, or with a refinement. -/
  | beginQueue (world : BeginWorld)
  | refineQueue (world : RefineWorld)
  | cancel (sessionId : UInt64)
  | close (sessionId : UInt64)
  | shutdown
  | worker (answers : WorkerAnswers)

def step (s : State) : Step → State
  | .begin a =>
    match s.command with
    | .idle => s.beginCheck a
    | _ => s
  | .refine sessionId a =>
    match s.command with
    | .idle => s.refineCheck sessionId a
    | _ => s
  | .beginQueue world =>
    match s.command with
    | .beginQueue a parsed => s.beginQueue a parsed world
    | _ => s
  | .refineQueue world =>
    match s.command with
    | .refineQueue sessionId a width => s.refineQueue sessionId a width world
    | _ => s
  | .cancel sessionId =>
    match s.command with
    | .idle => s.unknownSearchCancel sessionId
    | _ => s
  | .close sessionId =>
    match s.command with
    | .idle => s.unknownSearchClose sessionId
    | _ => s
  | .shutdown => s.unknownSearchShutdown
  | .worker answers => s.workerStep answers

end SysAgent.UnknownSearch
