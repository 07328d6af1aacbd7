import Mathlib
import SysAgent.Lib.Runs

set_option autoImplicit false

/-! # Pairing IPC messages (`decode_trace_ipc` in `sysagent.py`)

The decoded messages of all documents are read in order. A request at an entry target is put into
`pending_requests`, under its session, thread and pair, and, if it has a correlation key, into
`pending_keyed` as well. A response at a return target takes the oldest request with its key, or
else the oldest one of its thread.

Both dictionaries are one list here, in the order of arrival: a list of the source is the part of
it with the key. A record is identified by its index in `records`. -/

namespace SysAgent

/-- A correlation that `_pair_correlation` accepts, with its defaults. -/
structure PairCorrelation where
  request : String
  response : String
  thread : Bool
  /-- `fallback` is `thread-fifo`. -/
  fallback : Bool

structure ProfilePair where
  entryId : String
  returnId : String
  correlation : Option PairCorrelation

inductive CmifMode
  | request
  | response
  deriving DecidableEq

/-- A decoded snapshot. `thread` is absent when the event has no such field; `value` is
    `_correlation_value` of the event and its decoded message. -/
structure IpcRecord where
  targetId : Option String
  thread : Option String
  mode : CmifMode
  operation : Option String
  value : String → Option String

structure TraceDocument where
  sessionId : String
  pairs : List ProfilePair
  records : List IpcRecord

/-- A record with its session and the pair of its target. -/
structure IpcMessage where
  sessionId : String
  pair : Option ProfilePair
  record : IpcRecord

/-- `pair_for_target`: a later pair replaces an earlier one, and an empty id is not entered. -/
def pairForTarget (pairs : List ProfilePair) (target : String) : Option ProfilePair :=
  pairs.reverse.find? fun pair => target != "" && (pair.entryId == target || pair.returnId == target)

/-- The records of the documents in the order in which they are processed. -/
def ipcMessages (documents : List TraceDocument) : List IpcMessage :=
  documents.flatMap fun document => document.records.map fun record =>
    ⟨document.sessionId, pairForTarget document.pairs (record.targetId.getD "None"), record⟩

structure FifoKey where
  sessionId : String
  thread : String
  entryId : String
  returnId : String
  deriving DecidableEq

/-- The thread is part of the key if the correlation says so. -/
structure CorrelationKey where
  sessionId : String
  entryId : String
  returnId : String
  thread : Option String
  value : String
  deriving DecidableEq

namespace IpcMessage

variable (message : IpcMessage) (pair : ProfilePair)

/-- `str(event.get("thread", "0"))`. -/
def threadKey : String := message.record.thread.getD "0"

/-- `str(request.get("thread", "0"))`: a record always has the field, so an absent thread reads
    `None` here. -/
def recordThreadKey : String := message.record.thread.getD "None"

/-- The pair of a request at its entry target that does not close a domain. -/
def requestPair : Option ProfilePair :=
  message.pair.filter fun pair => message.record.targetId == some pair.entryId &&
    message.record.mode == .request && message.record.operation != some "close-domain-object"

/-- The pair of a response at its return target. -/
def responsePair : Option ProfilePair :=
  message.pair.filter fun pair => message.record.targetId == some pair.returnId &&
    message.record.mode == .response

def fifoKey : FifoKey := ⟨message.sessionId, message.threadKey, pair.entryId, pair.returnId⟩

def requestValue : Option String :=
  pair.correlation.bind fun correlation => message.record.value correlation.request

def responseValue : Option String :=
  pair.correlation.bind fun correlation => message.record.value correlation.response

/-- The key under which a value is listed. -/
def keyOf (value : Option String) : Option CorrelationKey :=
  pair.correlation.bind fun correlation => value.map fun value =>
    ⟨message.sessionId, pair.entryId, pair.returnId,
      if correlation.thread then some message.threadKey else none, value⟩

def requestKey : Option CorrelationKey :=
  message.requestPair.bind fun pair => message.keyOf pair (message.requestValue pair)

def responseKey : Option CorrelationKey :=
  message.responsePair.bind fun pair => message.keyOf pair (message.responseValue pair)

end IpcMessage

/-- A request record in a pending list. -/
structure PendingRequest where
  index : Nat
  message : IpcMessage
  pair : ProfilePair

def PendingRequest.fifoKey (request : PendingRequest) : FifoKey :=
  request.message.fifoKey request.pair

def PendingRequest.correlationKey (request : PendingRequest) : Option CorrelationKey :=
  request.message.keyOf request.pair (request.message.requestValue request.pair)

inductive CorrelationMethod
  | profileKey
  | threadFifo
  | threadFifoFallback
  deriving DecidableEq

structure IpcTransaction where
  request : Nat
  response : Nat
  outstandingAtResponse : Nat
  method : CorrelationMethod

/-- `correlationAmbiguous`. -/
def IpcTransaction.ambiguous (transaction : IpcTransaction) : Bool :=
  decide (1 < transaction.outstandingAtResponse)

structure TraceIpc where
  records : List IpcMessage
  pendingRequests : List PendingRequest
  pendingKeyed : List PendingRequest
  transactions : List IpcTransaction
  unmatchedResponses : Nat

namespace TraceIpc

def initial : TraceIpc := ⟨[], [], [], [], 0⟩

/-- The sum of the lengths of the lists in `pending_requests`. -/
def unmatchedRequests (s : TraceIpc) : Nat := s.pendingRequests.length

/-- The list under a key of `pending_requests`. -/
def fifoRequests (s : TraceIpc) (key : FifoKey) : List PendingRequest :=
  s.pendingRequests.filter fun request => request.fifoKey = key

/-- The list under a key of `pending_keyed`. -/
def keyedRequests (s : TraceIpc) (key : CorrelationKey) : List PendingRequest :=
  s.pendingKeyed.filter fun request => request.correlationKey = some key

def popFifo (s : TraceIpc) (key : FifoKey) : List PendingRequest :=
  s.pendingRequests.eraseP fun request => request.fifoKey = key

def popKeyed (s : TraceIpc) (key : CorrelationKey) : List PendingRequest :=
  s.pendingKeyed.eraseP fun request => request.correlationKey = some key

/-- `_remove_pending_request` on the list under a key. -/
def removePendingRequest (s : TraceIpc) (key : FifoKey) (request : PendingRequest) :
    List PendingRequest :=
  s.pendingRequests.eraseP fun candidate =>
    candidate.fifoKey = key ∧ candidate.index = request.index

def addRequest (s : TraceIpc) (message : IpcMessage) (pair : ProfilePair) : TraceIpc :=
  let request : PendingRequest := ⟨s.records.length, message, pair⟩
  { s with
    pendingRequests := s.pendingRequests ++ [request]
    pendingKeyed :=
      if request.correlationKey.isSome then s.pendingKeyed ++ [request] else s.pendingKeyed }

/-- A response without a request under its key. -/
def matchFifo (s : TraceIpc) (message : IpcMessage) (pair : ProfilePair) : TraceIpc :=
  let key := message.fifoKey pair
  let fallback := pair.correlation.all fun correlation => correlation.fallback
  match s.fifoRequests key with
  | [] => { s with unmatchedResponses := s.unmatchedResponses + 1 }
  | request :: rest =>
    if fallback then
      { s with
        pendingRequests := s.popFifo key
        transactions := s.transactions ++ [{
          request := request.index
          response := s.records.length
          outstandingAtResponse := rest.length + 1
          method := if pair.correlation.isSome then .threadFifoFallback else .threadFifo }] }
    else { s with unmatchedResponses := s.unmatchedResponses + 1 }

/-- A response that takes the first request under its key. -/
def matchKeyed (s : TraceIpc) (message : IpcMessage) (pair : ProfilePair) (key : CorrelationKey)
    (request : PendingRequest) (rest : List PendingRequest) : TraceIpc :=
  { s with
    pendingKeyed := s.popKeyed key
    pendingRequests := s.removePendingRequest
      ⟨message.sessionId, request.message.recordThreadKey, pair.entryId, pair.returnId⟩ request
    transactions := s.transactions ++ [{
      request := request.index
      response := s.records.length
      outstandingAtResponse := rest.length + 1
      method := .profileKey }] }

def addResponse (s : TraceIpc) (message : IpcMessage) (pair : ProfilePair) : TraceIpc :=
  match message.keyOf pair (message.responseValue pair) with
  | none => s.matchFifo message pair
  | some key =>
    match s.keyedRequests key with
    | [] => s.matchFifo message pair
    | request :: rest => s.matchKeyed message pair key request rest

def pairUp (s : TraceIpc) (message : IpcMessage) : TraceIpc :=
  match message.requestPair with
  | some pair => s.addRequest message pair
  | none =>
    match message.responsePair with
    | some pair => s.addResponse message pair
    | none => s

def step (s : TraceIpc) (message : IpcMessage) : TraceIpc :=
  { s.pairUp message with records := s.records ++ [message] }

def decodeTraceIpc (documents : List TraceDocument) : TraceIpc :=
  Runs.run step initial (ipcMessages documents)

/-! ## What a transaction is -/

/-- The requests before a record that have a key and are in no transaction yet. -/
def outstanding (records : List IpcMessage) (transactions : List IpcTransaction)
    (key : CorrelationKey) (response : Nat) : List Nat :=
  (List.range response).filter fun i =>
    decide ((records[i]?.bind IpcMessage.requestKey) = some key) &&
      !transactions.any fun earlier => earlier.request == i && decide (earlier.response < response)

/-- The two records of a transaction belong together. -/
structure Matches (transaction : IpcTransaction) (request response : IpcMessage) : Prop where
  precedes : transaction.request < transaction.response
  pairs : ∃ p q, request.requestPair = some p ∧ response.responsePair = some q ∧
    request.sessionId = response.sessionId ∧ p.entryId = q.entryId ∧ p.returnId = q.returnId ∧
    (transaction.method = .profileKey → ∃ value,
      request.requestValue p = some value ∧ response.responseValue q = some value) ∧
    (request.threadKey = response.threadKey ∨
      ∃ correlation, q.correlation = some correlation ∧ correlation.thread = false)

/-- The pairing law. -/
structure PairedOnce (s : TraceIpc) : Prop where
  requestsOnce : (s.transactions.map IpcTransaction.request).Nodup
  responsesOnce : (s.transactions.map IpcTransaction.response).Nodup
  matched : ∀ transaction ∈ s.transactions, ∃ request response,
    s.records[transaction.request]? = some request ∧
    s.records[transaction.response]? = some response ∧ Matches transaction request response
  requestCount : s.transactions.length + s.unmatchedRequests =
    s.records.countP fun message => message.requestPair.isSome
  responseCount : s.transactions.length + s.unmatchedResponses =
    s.records.countP fun message => message.responsePair.isSome
  ambiguous : ∀ transaction ∈ s.transactions, transaction.method = .profileKey →
    ∀ response key, s.records[transaction.response]? = some response →
      response.responseKey = some key → (transaction.ambiguous = true ↔
        1 < (outstanding s.records s.transactions key transaction.response).length)

def Unmatched (s : TraceIpc) (request : PendingRequest) : Prop :=
  ∀ transaction ∈ s.transactions, transaction.request ≠ request.index

instance (s : TraceIpc) (request : PendingRequest) : Decidable (s.Unmatched request) :=
  inferInstanceAs
    (Decidable (∀ transaction ∈ s.transactions, transaction.request ≠ request.index))

/-- When requests are listed under the key of a response, the first is still unmatched and its event
    has a thread, and if there are more, another one is still unmatched. -/
def ListedUnmatched (s : TraceIpc) (message : IpcMessage) : Prop :=
  ∀ key first rest, message.responseKey = some key →
    s.keyedRequests key = first :: rest →
      s.Unmatched first ∧ first.message.record.thread.isSome ∧
        (rest ≠ [] → ∃ other ∈ rest, s.Unmatched other)

end TraceIpc

end SysAgent
