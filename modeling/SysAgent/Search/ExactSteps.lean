import SysAgent.Lib.Runs
import SysAgent.Search.ExactRequests
import SysAgent.Search.Sessions

set_option autoImplicit false

/-! # An exact search, step by step (`search.c`)

The manager, the commands and the worker. The worker takes the lock twice in a turn of a loop: to
look for a cancellation, and to write what the turn has found. A turn is one step: what a command
reads between the two it would read before the turn, and what it writes there it would write behind
it. `world` is all that the outside answers while the search of a session runs; nothing is asked twice
at one cursor. -/

namespace SysAgent.ExactSearch

/-! ## The state -/

structure SearchWorld where
  memory : Nat → UInt8
  bufferAllocated : Bool
  processIsCurrent : Nat → Bool
  queryMapping : Nat → Except UInt32 MemoryInfo
  readFails : Nat → Bool

/-- Where a run sees a cancellation. -/
structure Cancels where
  beforeQuery : Nat → Bool
  beforeRead : Nat → Bool
  atEnd : Bool

def Cancels.never : Cancels where
  beforeQuery := fun _ => false
  beforeRead := fun _ => false
  atEnd := false

/-- What a run meets: the world, and the cancellations. -/
def SearchWorld.answers (world : SearchWorld) (cancels : Cancels) : SearchAnswers where
  memory := world.memory
  bufferAllocated := world.bufferAllocated
  cancelBeforeQuery := cancels.beforeQuery
  cancelBeforeRead := cancels.beforeRead
  cancelAtEnd := cancels.atEnd
  processIsCurrent := world.processIsCurrent
  queryMapping := world.queryMapping
  readFails := world.readFails

/-- The status under a session id, with the pattern and the alignment of the manager. -/
structure Session where
  sessionId : UInt64
  request : SearchRequest
  world : SearchWorld
  status : SearchProgress

/-- `manager`; a status that is all zero is none. -/
structure Manager where
  threadStarted : Bool
  exitRequested : Bool
  cancelRequested : Bool
  nextSessionId : UInt64
  session : Option Session

/-- Where the worker is: `taken` has seen the search queued, `ending` is behind the loops, and
    `finishing` has an end to write. -/
inductive Worker
  | look
  | taken
  | mapping (cursor : Nat)
  | chunk (mappingEnd cursor : Nat) (carry : List UInt8)
  | ending (failure : SearchError)
  | finishing (state : SearchState) (error : SearchError)
  | exited

structure State where
  manager : Manager
  worker : Worker

/-- After `searchInitialize`. -/
def initial (threadCreated threadStarted : Bool) : State where
  manager :=
    { threadStarted := threadCreated && threadStarted
      exitRequested := false
      cancelRequested := false
      nextSessionId := 1
      session := none }
  worker := .look

def isActive : SearchState → Bool
  | .queued => true
  | .running => true
  | _ => false

def Manager.sessionId (m : Manager) : UInt64 :=
  match m.session with
  | none => 0
  | some x => x.sessionId

/-- Half of `searchIsActive`. -/
def Manager.active (m : Manager) : Bool :=
  match m.session with
  | none => false
  | some x => isActive x.status.state

/-- `shouldCancel`. -/
def Manager.shouldCancel (m : Manager) : Bool :=
  m.cancelRequested || m.exitRequested

/-! ## Commands -/

def newStatus (state : SearchState) : SearchProgress where
  state := state
  error := .none
  scanned := 0
  totalMatches := 0
  storedMatches := 0
  readErrors := 0
  truncated := false
  results := []

namespace State

/-- `queueSearch`; `otherSession` is `unknownSearchHasSession`, and `allocated` says whether there is
    memory for the results. -/
def queueSearch (otherSession allocated : Bool) (request : SearchRequest) (world : SearchWorld)
    (s : State) : SearchStartResult × State :=
  if s.manager.threadStarted = false then (.unavailable, s)
  else if otherSession then (.busy, s)
  else if s.manager.active then (.busy, s)
  else if allocated = false then (.noMemory, s)
  else
    let session : Session :=
      { sessionId := s.manager.nextSessionId
        request := request
        world := world
        status := newStatus .queued }
    (.ok,
      { s with
        manager := { s.manager with
          cancelRequested := false
          nextSessionId := SearchSystem.nextExactId s.manager.nextSessionId
          session := some session } })

def searchCancel (sessionId : UInt64) (s : State) : State :=
  if (sessionId ≠ 0 ∧ s.manager.sessionId = sessionId) ∧ s.manager.active then
    { s with manager := { s.manager with cancelRequested := true } }
  else s

def searchClose (sessionId : UInt64) (s : State) : State :=
  if (sessionId ≠ 0 ∧ s.manager.sessionId = sessionId) ∧ ¬ s.manager.active then
    { s with manager := { s.manager with session := none } }
  else s

def searchShutdown (s : State) : State :=
  { s with manager := { s.manager with exitRequested := true, cancelRequested := true } }

end State

/-! ## The worker -/

/-- A turn of the outer loop. -/
def mappingTurn (x : Session) (cancelled : Bool) (cursor : Nat) : SearchProgress × Worker :=
  if cursor < x.request.finish ∧ cancelled = false then
    if x.world.processIsCurrent cursor = false then (x.status, .ending .notFound)
    else
      match x.world.queryMapping cursor with
      | .error result => (x.status, .ending (.query result))
      | .ok info =>
        let plan := searchPlanMapping cursor x.request.finish info.addr info.size info.readable
        match plan.action with
        | .invalid => (x.status, .ending .badInput)
        | .skip =>
          ({ x.status with scanned := x.status.scanned + (plan.finish - cursor) },
            .mapping plan.finish)
        | .read => (x.status, .chunk plan.finish cursor [])
  else (x.status, .ending .none)

/-- A turn of the inner loop. -/
def chunkTurn (x : Session) (cancelled : Bool) (mappingEnd cursor : Nat) (carry : List UInt8) :
    SearchProgress × Worker :=
  if cursor < mappingEnd ∧ cancelled = false then
    let amount := min SEARCH_CHUNK_SIZE (mappingEnd - cursor)
    if x.world.readFails cursor then
      ({ x.status with
          readErrors := x.status.readErrors + 1
          scanned := x.status.scanned + amount },
        .chunk mappingEnd (cursor + amount) [])
    else
      let combined := carry ++ Scan.window x.world.memory cursor amount
      let bufferAddress := cursor - carry.length
      let status := (searchExactBufferAligned combined x.request.pattern bufferAddress
        x.request.alignment).foldl recordMatch x.status
      let overlap := if x.request.pattern.length > 1 then x.request.pattern.length - 1 else 0
      let carrySize := if combined.length < overlap then combined.length else overlap
      ({ status with scanned := status.scanned + amount },
        .chunk mappingEnd (cursor + amount) (combined.drop (combined.length - carrySize)))
  else (x.status, .mapping cursor)

/-- A turn of the worker with a session. -/
def sessionTurn (m : Manager) (x : Session) : Worker → SearchProgress × Worker
  | .look =>
    if m.exitRequested then (x.status, .exited)
    else if x.status.state = .queued then (x.status, .taken)
    else (x.status, .look)
  | .taken =>
    if x.world.bufferAllocated = false then (x.status, .finishing .error .outOfMemory)
    else ({ x.status with state := .running }, .mapping x.request.start)
  | .mapping cursor => mappingTurn x m.shouldCancel cursor
  | .chunk mappingEnd cursor carry => chunkTurn x m.shouldCancel mappingEnd cursor carry
  | .ending failure =>
    if m.shouldCancel then (x.status, .finishing .cancelled .none)
    else if failure ≠ .none then (x.status, .finishing .error failure)
    else (x.status, .finishing .done .none)
  | .finishing state error => ({ x.status with state := state, error := error }, .look)
  | .exited => (x.status, .exited)

/-- A step of the worker; without a session it finds nothing queued. -/
def State.workerStep (s : State) : State :=
  match s.manager.session with
  | none =>
    match s.worker with
    | .look => if s.manager.exitRequested then { s with worker := .exited } else s
    | _ => s
  | some x =>
    let next := sessionTurn s.manager x s.worker
    { manager := { s.manager with session := some { x with status := next.1 } }
      worker := next.2 }

/-! ## Steps -/

inductive Step
  | start (otherSession allocated : Bool) (request : SearchRequest) (world : SearchWorld)
  | cancel (sessionId : UInt64)
  | close (sessionId : UInt64)
  | shutdown
  | worker

def step (s : State) : Step → State
  | .start otherSession allocated request world =>
    (s.queueSearch otherSession allocated request world).2
  | .cancel sessionId => s.searchCancel sessionId
  | .close sessionId => s.searchClose sessionId
  | .shutdown => s.searchShutdown
  | .worker => s.workerStep

end SysAgent.ExactSearch
