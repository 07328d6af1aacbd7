import Mathlib
import SysAgent.Client.TracePairing
import SysAgent.Lib.StableSort

set_option autoImplicit false

/-! # Merging traces (`decode_trace_ipc` in `sysagent.py`)

Pending requests are kept under keys that start with the session. `TraceIpc.append` puts the state
of later documents behind that of earlier ones, and a message of a session that the earlier
documents do not have is a step of the later part. -/

namespace SysAgent

namespace PendingRequest

/-- The request after the records of earlier documents. -/
def shift (request : PendingRequest) (count : Nat) : PendingRequest :=
  { request with index := count + request.index }

variable (request : PendingRequest) (count : Nat)

@[simp] theorem shift_index : (request.shift count).index = count + request.index := rfl
@[simp] theorem shift_message : (request.shift count).message = request.message := rfl
@[simp] theorem shift_fifoKey : (request.shift count).fifoKey = request.fifoKey := rfl
@[simp] theorem shift_correlationKey :
    (request.shift count).correlationKey = request.correlationKey := rfl

end PendingRequest

def IpcTransaction.shift (transaction : IpcTransaction) (count : Nat) : IpcTransaction :=
  { transaction with
    request := count + transaction.request
    response := count + transaction.response }

namespace TraceIpc

/-- The state of earlier documents and, behind it, that of later ones. -/
def append (base later : TraceIpc) : TraceIpc where
  records := base.records ++ later.records
  pendingRequests := base.pendingRequests ++
    later.pendingRequests.map fun request => request.shift base.records.length
  pendingKeyed := base.pendingKeyed ++
    later.pendingKeyed.map fun request => request.shift base.records.length
  transactions := base.transactions ++
    later.transactions.map fun transaction => transaction.shift base.records.length
  unmatchedResponses := base.unmatchedResponses + later.unmatchedResponses

@[simp]
theorem append_initial (base : TraceIpc) : base.append initial = base := by
  simp [append, initial]

/-- No message of the state is of the session. -/
def Fresh (base : TraceIpc) (sessionId : String) : Prop :=
  ∀ message ∈ base.records, message.sessionId ≠ sessionId

section Fresh

variable {base later : TraceIpc} {sessionId : String}

theorem fifoKey_ne (hfresh : base.Fresh sessionId) {request : PendingRequest}
    (hrecorded : Recorded base.records request) {key : FifoKey} (hkey : key.sessionId = sessionId) :
    request.fifoKey ≠ key := by
  rintro rfl
  exact hfresh _ (List.mem_of_getElem? hrecorded.1) hkey

theorem correlationKey_ne (hfresh : base.Fresh sessionId) {request : PendingRequest}
    (hrecorded : Recorded base.records request) {key : CorrelationKey}
    (hkey : key.sessionId = sessionId) : request.correlationKey ≠ some key := by
  intro hsame
  obtain ⟨correlation, _, hsame⟩ := Option.bind_eq_some_iff.1 hsame
  obtain ⟨value, _, rfl⟩ := Option.map_eq_some_iff.1 hsame
  exact hfresh _ (List.mem_of_getElem? hrecorded.1) hkey

variable (inv : RecordedInv base) (hfresh : base.Fresh sessionId)
include inv hfresh

theorem append_fifoRequests {key : FifoKey} (hkey : key.sessionId = sessionId) :
    (base.append later).fifoRequests key =
      (later.fifoRequests key).map fun request => request.shift base.records.length := by
  have hnone : base.pendingRequests.filter (fun request => request.fifoKey = key) = [] := by
    rw [List.filter_eq_nil_iff]
    intro request hmem
    simpa using fifoKey_ne hfresh (inv.pendingRecorded request hmem) hkey
  rw [fifoRequests, append, List.filter_append, hnone, List.nil_append, List.filter_map]
  rfl

theorem append_keyedRequests {key : CorrelationKey} (hkey : key.sessionId = sessionId) :
    (base.append later).keyedRequests key =
      (later.keyedRequests key).map fun request => request.shift base.records.length := by
  have hnone :
      base.pendingKeyed.filter (fun request => request.correlationKey = some key) = [] := by
    rw [List.filter_eq_nil_iff]
    intro request hmem
    simpa using correlationKey_ne hfresh (inv.keyedRecorded request hmem) hkey
  rw [keyedRequests, append, List.filter_append, hnone, List.nil_append, List.filter_map]
  rfl

theorem append_popFifo {key : FifoKey} (hkey : key.sessionId = sessionId) :
    (base.append later).popFifo key = base.pendingRequests ++
      (later.popFifo key).map fun request => request.shift base.records.length := by
  rw [popFifo, append, List.eraseP_append_right, List.eraseP_map]
  · rfl
  · intro request hmem
    simpa using fifoKey_ne hfresh (inv.pendingRecorded request hmem) hkey

theorem append_popKeyed {key : CorrelationKey} (hkey : key.sessionId = sessionId) :
    (base.append later).popKeyed key = base.pendingKeyed ++
      (later.popKeyed key).map fun request => request.shift base.records.length := by
  rw [popKeyed, append, List.eraseP_append_right, List.eraseP_map]
  · rfl
  · intro request hmem
    simpa using correlationKey_ne hfresh (inv.keyedRecorded request hmem) hkey

theorem append_removePendingRequest {key : FifoKey} (hkey : key.sessionId = sessionId)
    (request : PendingRequest) :
    (base.append later).removePendingRequest key (request.shift base.records.length) =
      base.pendingRequests ++ (later.removePendingRequest key request).map
        fun request => request.shift base.records.length := by
  rw [removePendingRequest, append, List.eraseP_append_right, List.eraseP_map]
  · congr 3
    funext candidate
    simp
  · intro candidate hmem
    have hne := fifoKey_ne hfresh (inv.pendingRecorded candidate hmem) hkey
    simp [hne]

end Fresh

section Step

variable {base later : TraceIpc} {message : IpcMessage}

theorem append_addRequest (pair : ProfilePair) :
    (base.append later).addRequest message pair = base.append (later.addRequest message pair) := by
  have hrequest : (⟨(base.append later).records.length, message, pair⟩ : PendingRequest) =
      (⟨later.records.length, message, pair⟩ : PendingRequest).shift base.records.length := by
    simp [append, PendingRequest.shift]
  unfold addRequest
  rw [hrequest]
  simp only [PendingRequest.shift_correlationKey]
  split
  case isTrue hkey => simp [append, hkey]
  case isFalse hkey => simp [append, hkey]

variable (inv : RecordedInv base) (hfresh : base.Fresh message.sessionId)
include inv hfresh

theorem append_matchFifo (pair : ProfilePair) :
    (base.append later).matchFifo message pair = base.append (later.matchFifo message pair) := by
  have hkey : (message.fifoKey pair).sessionId = message.sessionId := rfl
  unfold matchFifo
  simp only [append_fifoRequests inv hfresh hkey, append_popFifo inv hfresh hkey]
  cases later.fifoRequests (message.fifoKey pair) with
  | nil => simp [append, Nat.add_assoc]
  | cons request rest =>
    simp only [List.map_cons]
    split
    · simp [append, IpcTransaction.shift]
    · simp [append, Nat.add_assoc]

theorem append_addResponse (pair : ProfilePair) :
    (base.append later).addResponse message pair =
      base.append (later.addResponse message pair) := by
  unfold addResponse
  cases hvalue : message.keyOf pair (message.responseValue pair) with
  | none => exact append_matchFifo inv hfresh pair
  | some key =>
    have hkey : key.sessionId = message.sessionId := by
      obtain ⟨correlation, _, hsame⟩ := Option.bind_eq_some_iff.1 hvalue
      obtain ⟨value, _, rfl⟩ := Option.map_eq_some_iff.1 hsame
      rfl
    simp only [append_keyedRequests inv hfresh hkey]
    cases later.keyedRequests key with
    | nil => exact append_matchFifo inv hfresh pair
    | cons request rest =>
      simp only [List.map_cons, matchKeyed, PendingRequest.shift_message,
        append_popKeyed inv hfresh hkey]
      rw [append_removePendingRequest inv hfresh rfl]
      simp [append, IpcTransaction.shift]

/-- A message of a fresh session is a step of the later part. -/
theorem append_step : (base.append later).step message = base.append (later.step message) := by
  have hpair : (base.append later).pairUp message = base.append (later.pairUp message) := by
    unfold pairUp
    split
    · exact append_addRequest _
    · split
      · exact append_addResponse inv hfresh _
      · rfl
  unfold step
  rw [hpair]
  simp [append]

end Step

theorem append_run {base : TraceIpc} (inv : RecordedInv base) {messages : List IpcMessage}
    (hfresh : ∀ message ∈ messages, base.Fresh message.sessionId) (later : TraceIpc) :
    Runs.run step (base.append later) messages = base.append (Runs.run step later messages) := by
  induction messages generalizing later with
  | nil => rfl
  | cons message messages ih =>
    rw [Runs.run_cons, Runs.run_cons, append_step inv (hfresh message (by simp)),
      ih fun other hmem => hfresh other (by simp [hmem])]

theorem step_records (s : TraceIpc) (message : IpcMessage) :
    (s.step message).records = s.records ++ [message] := rfl

theorem run_records (s : TraceIpc) (messages : List IpcMessage) :
    (Runs.run step s messages).records = s.records ++ messages := by
  induction messages generalizing s with
  | nil => simp
  | cons message messages ih => rw [Runs.run_cons, ih, step_records, List.append_assoc]; rfl

theorem recordedInv_run (messages : List IpcMessage) :
    RecordedInv (Runs.run step initial messages) := by
  induction messages using List.reverseRecOn with
  | nil => exact recordedInv_initial
  | append_singleton messages message ih =>
    rw [Runs.run_concat]
    exact recordedInv_step _ _ ih

/-- Decoding is a homomorphism on documents of different sessions. -/
theorem decodeTraceIpc_append {earlier later : List TraceDocument}
    (hsessions : ∀ left ∈ earlier, ∀ right ∈ later, left.sessionId ≠ right.sessionId) :
    decodeTraceIpc (earlier ++ later) = (decodeTraceIpc earlier).append (decodeTraceIpc later) := by
  have hsession : ∀ {documents : List TraceDocument} {message : IpcMessage},
      message ∈ ipcMessages documents →
        ∃ document ∈ documents, message.sessionId = document.sessionId := by
    intro documents message hmem
    obtain ⟨document, hdocument, hmessage⟩ := List.mem_flatMap.1 hmem
    obtain ⟨record, _, rfl⟩ := List.mem_map.1 hmessage
    exact ⟨document, hdocument, rfl⟩
  unfold decodeTraceIpc
  rw [ipcMessages, List.flatMap_append, Runs.run_append]
  rw [← append_run (recordedInv_run _) ?_ initial, append_initial]
  · rfl
  · intro message hmem other hother
    obtain ⟨right, hright, hmessage⟩ := hsession hmem
    rw [run_records] at hother
    obtain ⟨left, hleft, hsame⟩ := hsession (by simpa [initial] using hother)
    rw [hmessage, hsame]
    exact hsessions left hleft right hright

end TraceIpc

/-! ## Documents with their events -/

/-- `seqText` is `str` of the field `seq`; `seq` and `tick` are what `parse_int` reads, absent when
    it reads nothing, and `thread` is absent when the event has no such field. `data` is `snap0Data`
    or `snap1Data`, absent when it is empty. -/
structure TimelineEvent where
  seqText : String
  seq : Option Int
  tick : Option Int
  thread : Option String
  target : String
  snapshots : Nat
  data : Nat → Option String

/-- The event has a tick and a sequence number to be sorted by. -/
def TimelineEvent.placed (event : TimelineEvent) : Bool := event.tick.isSome && event.seq.isSome

/-- What is used of a target's metadata: its id, the pid of its process and the kinds of its
    snapshots. -/
structure TimelineTarget where
  id : Option String
  pid : String
  snapshotKinds : List (Option String)

/-- A trace document; its targets and pairs are those of the profile, if one is given. -/
structure SessionDocument where
  sessionId : String
  bootEpochUnixMs : Option Int
  pairs : List ProfilePair
  targets : List (String × TimelineTarget)
  events : List TimelineEvent

/-- `decode_hipc_cmif` of the bytes of a snapshot, and what is read from a decoded message.
    `domainObject` is the `objectId` of the domain header, none if it is 0; `commandId` and `result`
    are those of the header, and `createdObject` is `created_object_id` of a request and its
    response. -/
structure MessageDecoder (Message : Type) where
  decode : String → Option Message
  mode : Message → CmifMode
  operation : Message → Option String
  domainObject : Message → Option Nat
  commandId : Message → Option Nat
  result : Message → String
  createdObject : Message → Message → Option Nat
  value : TimelineEvent → Message → String → Option String

structure TimelineRecord (Message : Type) where
  sessionId : String
  event : TimelineEvent
  targetId : Option String
  snapshot : Nat
  message : Message

/-- `request` and `response` are the records of the indices in the pairing. -/
structure TimelineTransaction (Message : Type) where
  request : Option (TimelineRecord Message)
  response : Option (TimelineRecord Message)
  outstandingAtResponse : Nat
  method : CorrelationMethod

/-- A `create-domain-object` or a `close-domain-object` event, of the record that it was seen at. -/
structure DomainEvent where
  create : Bool
  sessionId : String
  event : TimelineEvent
  targetId : Option String
  objectId : Nat

def DomainEvent.sortKey (seen : DomainEvent) : ℤ ×ₗ ℤ :=
  toLex (seen.event.tick.getD 0, seen.event.seq.getD 0)

section Decode

variable {Message : Type} (decoder : MessageDecoder Message)

/-- `indexes`: the index asked for, the snapshots of kind `ipc`, or all. -/
def snapshotIndexes (snapshotIndex : Option Nat) (kinds : List (Option String)) (count : Nat) :
    List Nat :=
  match snapshotIndex with
  | some index => [index]
  | none =>
    match kinds.zipIdx.filterMap fun (kind, index) =>
        if kind = some "ipc" then some index else none with
    | [] => List.range count
    | indexes => indexes

/-- One snapshot of an event: an error for an index other than 0 and 1, and `some none` for one
    that is skipped. -/
def decodeSnapshot (document : SessionDocument) (event : TimelineEvent) (index : Nat) :
    Option (Option (TimelineRecord Message)) :=
  if index < 2 then
    some (((event.data index).bind decoder.decode).map fun message =>
      { sessionId := document.sessionId, event
        targetId := (document.targets.lookup event.target).bind TimelineTarget.id
        snapshot := index, message })
  else none

/-- The snapshots of a document, in order. -/
def decodeSnapshots (snapshotIndex : Option Nat) (document : SessionDocument) :
    Option (List (Option (TimelineRecord Message))) :=
  (document.events.flatMap fun event =>
    (snapshotIndexes snapshotIndex
      (((document.targets.lookup event.target).map TimelineTarget.snapshotKinds).getD [])
      event.snapshots).map fun index => (event, index)).mapM
    fun (event, index) => decodeSnapshot decoder document event index

/-- The document as the pairing sees it. -/
def pairingDocument (document : SessionDocument)
    (snapshots : List (Option (TimelineRecord Message))) : TraceDocument where
  sessionId := document.sessionId
  pairs := document.pairs
  records := snapshots.reduceOption.map fun record => {
    targetId := record.targetId
    thread := record.event.thread
    mode := decoder.mode record.message
    operation := decoder.operation record.message
    value := decoder.value record.event record.message }

/-- The records and the pairing of some documents. -/
structure PairedRecords (Message : Type) where
  records : List (TimelineRecord Message)
  skipped : Nat
  pairing : TraceIpc

namespace PairedRecords

variable {decoder} (paired : PairedRecords Message)

def transaction (transaction : IpcTransaction) : TimelineTransaction Message where
  request := paired.records[transaction.request]?
  response := paired.records[transaction.response]?
  outstandingAtResponse := transaction.outstandingAtResponse
  method := transaction.method

def transactions : List (TimelineTransaction Message) :=
  paired.pairing.transactions.map paired.transaction

end PairedRecords

def pairRecords (snapshotIndex : Option Nat) (documents : List SessionDocument) :
    Option (PairedRecords Message) :=
  (documents.mapM fun document =>
    (decodeSnapshots decoder snapshotIndex document).map fun snapshots => (document, snapshots)).map
    fun decoded => {
      records := decoded.flatMap fun entry => entry.2.reduceOption
      skipped := (decoded.map fun entry => entry.2.countP Option.isNone).sum
      pairing := TraceIpc.decodeTraceIpc
        (decoded.map fun entry => pairingDocument decoder entry.1 entry.2) }

/-- The event of a request that closes an object. -/
def closeEvent (record : TimelineRecord Message) : Option DomainEvent :=
  if decoder.mode record.message = .request
      ∧ decoder.operation record.message = some "close-domain-object" then
    (decoder.domainObject record.message).map fun objectId =>
      { create := false, sessionId := record.sessionId, event := record.event
        targetId := record.targetId, objectId }
  else none

/-- The event of a response that created an object. -/
def createEvent (transaction : TimelineTransaction Message) : Option DomainEvent := do
  let request ← transaction.request
  let response ← transaction.response
  let objectId ← decoder.createdObject request.message response.message
  some {
    create := true, sessionId := response.sessionId, event := response.event
    targetId := response.targetId, objectId }

/-- What the walk sees of a domain object: a request to it or one that closes it, a response that
    created it or that answers a request to it; `other` is any other message with its id. -/
inductive ObservationKind
  | request (commandId : Option Nat)
  | close
  | created
  | response (result : String)
  | other
  deriving DecidableEq

structure Observation where
  objectId : Nat
  kind : ObservationKind
  tick : Option Int

def recordObservations (record : TimelineRecord Message) : List Observation :=
  (decoder.domainObject record.message).toList.map fun objectId =>
    { objectId
      kind :=
        if decoder.mode record.message = .request then
          if decoder.operation record.message = some "close-domain-object" then .close
          else .request (decoder.commandId record.message)
        else .other
      tick := record.event.tick }

/-- The object that the response created, then the one that the request was to. -/
def transactionObservations (transaction : TimelineTransaction Message) : List Observation :=
  match transaction.request, transaction.response with
  | some request, some response =>
    ((decoder.createdObject request.message response.message).toList.map fun objectId =>
      { objectId, kind := .created, tick := response.event.tick }) ++
    (decoder.domainObject request.message).toList.map fun objectId =>
      { objectId, kind := .response (decoder.result response.message), tick := response.event.tick }
  | _, _ => []

/-- `commands` counts the requests with a command id, `results` the responses with a result. -/
@[ext]
structure DomainObject where
  objectId : Nat
  firstTick : Option Int
  lastTick : Option Int
  createCount : Nat
  closeCount : Nat
  requestCount : Nat
  responseCount : Nat
  commands : Nat → Nat
  results : String → Nat
  createdTick : Option Int
  closedTick : Option Int

/-- The record that `_domain_object_record` enters for a new object. -/
def domainObjectRecord (objectId : Nat) (tick : Option Int) : DomainObject where
  objectId
  firstTick := tick
  lastTick := tick
  createCount := 0
  closeCount := 0
  requestCount := 0
  responseCount := 0
  commands _ := 0
  results _ := 0
  createdTick := none
  closedTick := none

namespace DomainObject

/-- A creation leaves `lastTick` as it is. -/
def see (object : DomainObject) (observation : Observation) : DomainObject :=
  match observation.kind with
  | .request commandId =>
    { object with
      lastTick := observation.tick
      requestCount := object.requestCount + 1
      commands := fun id => object.commands id + if commandId = some id then 1 else 0 }
  | .close =>
    { object with
      lastTick := observation.tick
      closeCount := object.closeCount + 1
      closedTick := observation.tick }
  | .created =>
    { object with
      createCount := object.createCount + 1
      createdTick := observation.tick }
  | .response result =>
    { object with
      lastTick := observation.tick
      responseCount := object.responseCount + 1
      results := fun other => object.results other + if result = other then 1 else 0 }
  | .other => { object with lastTick := observation.tick }

def reported (object : DomainObject) : Bool :=
  object.closeCount != 0 || object.createCount != 0 || object.requestCount != 0

end DomainObject

/-- The objects in the order in which they were entered. -/
def observe (objects : List DomainObject) (observation : Observation) : List DomainObject :=
  if objects.any fun object => object.objectId = observation.objectId then
    objects.map fun object =>
      if object.objectId = observation.objectId then object.see observation else object
  else objects ++ [(domainObjectRecord observation.objectId observation.tick).see observation]

/-- `domain_objects_out`. -/
def domainObjectsOut (observations : List Observation) : List DomainObject :=
  StableSort.sort DomainObject.objectId
    ((Runs.run observe [] observations).filter DomainObject.reported)

namespace PairedRecords

variable {α : Type}

/-- What the walk gives at one record: for the record, then for the transaction it completes. -/
def updatesAt (own : TimelineRecord Message → List α)
    (completed : TimelineTransaction Message → List α) (paired : PairedRecords Message)
    (index : Nat) : List α :=
  paired.records[index]?.toList.flatMap own ++
    (paired.pairing.transactions.filter fun transaction => transaction.response = index).flatMap
      fun transaction => completed (paired.transaction transaction)

def updates (own : TimelineRecord Message → List α)
    (completed : TimelineTransaction Message → List α) (paired : PairedRecords Message) :
    List α :=
  (List.range paired.records.length).flatMap (paired.updatesAt own completed)

def domainEvents (paired : PairedRecords Message) : List DomainEvent :=
  paired.updates (fun record => (closeEvent decoder record).toList)
    fun transaction => (createEvent decoder transaction).toList

def observations (paired : PairedRecords Message) : List Observation :=
  paired.updates (recordObservations decoder) (transactionObservations decoder)

end PairedRecords

structure IpcReport (Message : Type) where
  records : List (TimelineRecord Message)
  transactions : List (TimelineTransaction Message)
  domainEvents : List DomainEvent
  domainObjects : List DomainObject
  skippedSnapshots : Nat
  unmatchedRequests : Nat
  unmatchedResponses : Nat

/-- `correlationAmbiguous`. -/
def TimelineTransaction.ambiguous (transaction : TimelineTransaction Message) : Bool :=
  decide (1 < transaction.outstandingAtResponse)

def IpcReport.ambiguousTransactions (report : IpcReport Message) : Nat :=
  report.transactions.countP TimelineTransaction.ambiguous

/-- `decode_trace_ipc`; the domain events are sorted, which fails for one without a tick. -/
def decodeDocuments (snapshotIndex : Option Nat) (documents : List SessionDocument) :
    Option (IpcReport Message) :=
  (pairRecords decoder snapshotIndex documents).bind fun paired =>
    let domainEvents := paired.domainEvents decoder
    if domainEvents.all fun event => event.event.placed then
      some {
        records := paired.records
        transactions := paired.transactions
        domainEvents := StableSort.sort DomainEvent.sortKey domainEvents
        domainObjects := domainObjectsOut (paired.observations decoder)
        skippedSnapshots := paired.skipped
        unmatchedRequests := paired.pairing.unmatchedRequests
        unmatchedResponses := paired.pairing.unmatchedResponses }
    else none

end Decode

/-! ## Decoding several documents -/

section Merge

variable {Message : Type} {decoder : MessageDecoder Message} {snapshotIndex : Option Nat}

namespace PairedRecords

/-- The records of earlier documents and, behind them, those of later ones. -/
def append (earlier later : PairedRecords Message) : PairedRecords Message where
  records := earlier.records ++ later.records
  skipped := earlier.skipped + later.skipped
  pairing := earlier.pairing.append later.pairing

/-- The pairing is that of the records. -/
structure Inv (paired : PairedRecords Message) : Prop where
  length : paired.pairing.records.length = paired.records.length
  pairing : TraceIpc.RecordedInv paired.pairing

theorem append_transaction_earlier {earlier : PairedRecords Message} (inv : earlier.Inv)
    (later : PairedRecords Message) {transaction : IpcTransaction}
    (hmem : transaction ∈ earlier.pairing.transactions) :
    (earlier.append later).transaction transaction = earlier.transaction transaction := by
  obtain ⟨request, response, hrequest, hresponse, _⟩ := inv.pairing.matched transaction hmem
  have hrequest' := (List.getElem?_eq_some_iff.1 hrequest).1
  have hresponse' := (List.getElem?_eq_some_iff.1 hresponse).1
  rw [inv.length] at hrequest' hresponse'
  unfold PairedRecords.transaction append
  simp only
  rw [List.getElem?_append_left hrequest', List.getElem?_append_left hresponse']

theorem append_transaction_later {earlier : PairedRecords Message} (inv : earlier.Inv)
    (later : PairedRecords Message) (transaction : IpcTransaction) :
    (earlier.append later).transaction (transaction.shift earlier.pairing.records.length) =
      later.transaction transaction := by
  unfold PairedRecords.transaction append IpcTransaction.shift
  simp only
  rw [inv.length, List.getElem?_append_right (Nat.le_add_right _ _),
    List.getElem?_append_right (Nat.le_add_right _ _), Nat.add_sub_cancel_left,
    Nat.add_sub_cancel_left]

theorem append_transactions {earlier : PairedRecords Message} (inv : earlier.Inv)
    (later : PairedRecords Message) :
    (earlier.append later).transactions = earlier.transactions ++ later.transactions := by
  have hpairing : (earlier.append later).pairing.transactions = earlier.pairing.transactions ++
      later.pairing.transactions.map fun transaction =>
        transaction.shift earlier.pairing.records.length := rfl
  unfold transactions
  rw [hpairing, List.map_append, List.map_map]
  congr 1
  · refine List.map_congr_left ?_
    intro transaction hmem
    exact append_transaction_earlier inv later hmem
  · refine List.map_congr_left ?_
    intro transaction _
    exact append_transaction_later inv later transaction

section Updates

variable {α : Type} {own : TimelineRecord Message → List α}
  {completed : TimelineTransaction Message → List α}

theorem append_updatesAt_earlier {earlier : PairedRecords Message} (inv : earlier.Inv)
    (later : PairedRecords Message) {index : Nat} (hindex : index < earlier.records.length) :
    (earlier.append later).updatesAt own completed index =
      earlier.updatesAt own completed index := by
  have hpairing : (earlier.append later).pairing.transactions = earlier.pairing.transactions ++
      later.pairing.transactions.map fun transaction =>
        transaction.shift earlier.pairing.records.length := rfl
  have hrecords : (earlier.append later).records[index]? = earlier.records[index]? :=
    List.getElem?_append_left hindex
  have hnone : (later.pairing.transactions.map fun transaction =>
      transaction.shift earlier.pairing.records.length).filter
        (fun transaction => transaction.response = index) = [] := by
    rw [List.filter_eq_nil_iff]
    intro transaction hmem hat
    obtain ⟨shifted, _, rfl⟩ := List.mem_map.1 hmem
    have hresponse : earlier.pairing.records.length + shifted.response = index :=
      of_decide_eq_true hat
    rw [inv.length] at hresponse
    omega
  unfold updatesAt
  rw [hrecords, hpairing, List.filter_append, hnone, List.append_nil]
  congr 1
  refine List.flatMap_congr ?_
  intro transaction hmem
  rw [append_transaction_earlier inv later (List.mem_filter.1 hmem).1]

theorem append_updatesAt_later {earlier : PairedRecords Message} (inv : earlier.Inv)
    (later : PairedRecords Message) (index : Nat) :
    (earlier.append later).updatesAt own completed (earlier.records.length + index) =
      later.updatesAt own completed index := by
  have hpairing : (earlier.append later).pairing.transactions = earlier.pairing.transactions ++
      later.pairing.transactions.map fun transaction =>
        transaction.shift earlier.pairing.records.length := rfl
  have hrecords : (earlier.append later).records[earlier.records.length + index]? =
      later.records[index]? := by
    rw [append, List.getElem?_append_right (Nat.le_add_right _ _), Nat.add_sub_cancel_left]
  have hnone : earlier.pairing.transactions.filter (fun transaction =>
      transaction.response = earlier.records.length + index) = [] := by
    rw [List.filter_eq_nil_iff]
    intro transaction hmem hat
    have hresponse : transaction.response = earlier.records.length + index :=
      of_decide_eq_true hat
    have hlt := inv.pairing.response_lt hmem
    rw [inv.length] at hlt
    omega
  unfold updatesAt
  rw [hrecords, hpairing, List.filter_append, hnone, List.nil_append, List.filter_map,
    List.flatMap_map]
  congr 1
  have hfilter : (fun transaction : IpcTransaction =>
      decide (transaction.response = earlier.records.length + index)) ∘
        (fun transaction : IpcTransaction => transaction.shift earlier.pairing.records.length) =
      fun transaction : IpcTransaction => decide (transaction.response = index) := by
    funext transaction
    simp [IpcTransaction.shift, inv.length]
  rw [hfilter]
  refine List.flatMap_congr ?_
  intro transaction _
  exact congrArg completed (append_transaction_later inv later transaction)

theorem append_updates {earlier : PairedRecords Message} (inv : earlier.Inv)
    (later : PairedRecords Message) :
    (earlier.append later).updates own completed =
      earlier.updates own completed ++ later.updates own completed := by
  have hlength : (earlier.append later).records.length =
      earlier.records.length + later.records.length := List.length_append
  unfold updates
  rw [hlength, List.range_add, List.flatMap_append, List.flatMap_map]
  congr 1
  · refine List.flatMap_congr ?_
    intro index hmem
    exact append_updatesAt_earlier inv later (List.mem_range.1 hmem)
  · refine List.flatMap_congr ?_
    intro index _
    exact append_updatesAt_later inv later index

end Updates

end PairedRecords

/-- What a successful `mapM` yields, it yields for an element. -/
theorem exists_of_mem_mapM {α β : Type} {read : α → Option β} {l : List α} {values : List β}
    (h : l.mapM read = some values) {value : β} (hmem : value ∈ values) :
    ∃ a ∈ l, read a = some value := by
  induction l generalizing values with
  | nil =>
    cases h
    cases hmem
  | cons a l ih =>
    rw [List.mapM_cons] at h
    obtain ⟨first, hfirst, h⟩ := Option.bind_eq_some_iff.1 h
    obtain ⟨rest, hrest, h⟩ := Option.bind_eq_some_iff.1 h
    cases h
    rcases List.mem_cons.1 hmem with rfl | hmem
    · exact ⟨a, List.mem_cons_self, hfirst⟩
    · obtain ⟨b, hb, hvalue⟩ := ih hrest hmem
      exact ⟨b, List.mem_cons_of_mem _ hb, hvalue⟩

theorem mapM_perm {α β : Type} {read : α → Option β} {l l' : List α} (hperm : l.Perm l')
    {values : List β} (h : l.mapM read = some values) :
    ∃ values', l'.mapM read = some values' ∧ values.Perm values' := by
  induction hperm generalizing values with
  | nil => exact ⟨values, h, List.Perm.refl _⟩
  | cons a hperm ih =>
    rw [List.mapM_cons] at h
    obtain ⟨first, hfirst, h⟩ := Option.bind_eq_some_iff.1 h
    obtain ⟨rest, hrest, h⟩ := Option.bind_eq_some_iff.1 h
    cases h
    obtain ⟨rest', hrest', hperm⟩ := ih hrest
    refine ⟨first :: rest', ?_, hperm.cons first⟩
    rw [List.mapM_cons, hfirst, hrest']
    rfl
  | swap a b l =>
    rw [List.mapM_cons, List.mapM_cons] at h
    obtain ⟨first, hfirst, h⟩ := Option.bind_eq_some_iff.1 h
    obtain ⟨tail, htail, h⟩ := Option.bind_eq_some_iff.1 h
    obtain ⟨second, hsecond, htail⟩ := Option.bind_eq_some_iff.1 htail
    obtain ⟨rest, hrest, htail⟩ := Option.bind_eq_some_iff.1 htail
    cases h
    cases htail
    refine ⟨second :: first :: rest, ?_, List.Perm.swap second first rest⟩
    rw [List.mapM_cons, List.mapM_cons, hsecond, hfirst, hrest]
    rfl
  | trans _ _ ihFirst ihSecond =>
    obtain ⟨middle, hmiddle, hfirst⟩ := ihFirst h
    obtain ⟨last, hlast, hsecond⟩ := ihSecond hmiddle
    exact ⟨last, hlast, hfirst.trans hsecond⟩

theorem decoded_documents {β : Type} {read : SessionDocument → Option β}
    {documents : List SessionDocument} {decoded : List (SessionDocument × β)}
    (h : (documents.mapM fun document => (read document).map fun value => (document, value)) =
      some decoded) : decoded.map Prod.fst = documents := by
  induction documents generalizing decoded with
  | nil =>
    cases h
    rfl
  | cons document documents ih =>
    rw [List.mapM_cons] at h
    obtain ⟨first, hfirst, h⟩ := Option.bind_eq_some_iff.1 h
    obtain ⟨rest, hrest, h⟩ := Option.bind_eq_some_iff.1 h
    obtain ⟨value, _, rfl⟩ := Option.map_eq_some_iff.1 hfirst
    cases h
    rw [List.map_cons, ih hrest]

/-- The records of a document are of its session and of its events. -/
theorem decodeSnapshots_origin {document : SessionDocument}
    {snapshots : List (Option (TimelineRecord Message))}
    (h : decodeSnapshots decoder snapshotIndex document = some snapshots)
    {record : TimelineRecord Message} (hmem : some record ∈ snapshots) :
    record.sessionId = document.sessionId ∧ record.event ∈ document.events := by
  obtain ⟨⟨event, index⟩, hpair, hdecode⟩ := exists_of_mem_mapM h hmem
  obtain ⟨origin, horigin, hpair⟩ := List.mem_flatMap.1 hpair
  obtain ⟨_, _, hpair⟩ := List.mem_map.1 hpair
  cases hpair
  replace hdecode : decodeSnapshot decoder document event index = some (some record) := hdecode
  obtain ⟨-, hdecode⟩ := Option.ite_none_right_eq_some.1 hdecode
  obtain ⟨message, _, hrecord⟩ := Option.map_eq_some_iff.1 (Option.some.inj hdecode)
  subst hrecord
  exact ⟨rfl, horigin⟩

theorem pairRecords_origin {document : SessionDocument} {paired : PairedRecords Message}
    (h : pairRecords decoder snapshotIndex [document] = some paired)
    {record : TimelineRecord Message}
    (hmem : record ∈ paired.records) :
    record.sessionId = document.sessionId ∧ record.event ∈ document.events := by
  obtain ⟨decoded, hdecoded, rfl⟩ := Option.map_eq_some_iff.1 h
  obtain ⟨entry, hentry, hrecord⟩ := List.mem_flatMap.1 hmem
  obtain ⟨origin, horigin, hdecode⟩ := exists_of_mem_mapM hdecoded hentry
  obtain ⟨snapshots, hsnapshots, rfl⟩ := Option.map_eq_some_iff.1 hdecode
  obtain rfl := List.mem_singleton.1 horigin
  exact decodeSnapshots_origin hsnapshots (List.reduceOption_mem_iff.1 hrecord)

theorem pairRecords_inv {documents : List SessionDocument} {paired : PairedRecords Message}
    (h : pairRecords decoder snapshotIndex documents = some paired) : paired.Inv := by
  obtain ⟨decoded, hdecoded, rfl⟩ := Option.map_eq_some_iff.1 h
  refine ⟨?_, TraceIpc.recordedInv_run _⟩
  have hrecords : (TraceIpc.decodeTraceIpc (decoded.map fun entry =>
      pairingDocument decoder entry.1 entry.2)).records =
        ipcMessages (decoded.map fun entry => pairingDocument decoder entry.1 entry.2) :=
    TraceIpc.run_records TraceIpc.initial _
  simp only [hrecords]
  clear hrecords h hdecoded
  induction decoded with
  | nil => rfl
  | cons entry decoded ih =>
    have hcons : ipcMessages ((entry :: decoded).map fun entry =>
        pairingDocument decoder entry.1 entry.2) =
          ipcMessages [pairingDocument decoder entry.1 entry.2] ++
            ipcMessages (decoded.map fun entry => pairingDocument decoder entry.1 entry.2) := by
      rw [List.map_cons, ipcMessages, List.flatMap_cons, ipcMessages, List.flatMap_singleton]
      rfl
    rw [hcons, List.length_append, ih, List.flatMap_cons, List.length_append]
    simp [ipcMessages, pairingDocument]

theorem pairRecords_append {earlier later : List SessionDocument}
    {first rest : PairedRecords Message}
    (hsessions : ∀ left ∈ earlier, ∀ right ∈ later, left.sessionId ≠ right.sessionId)
    (hfirst : pairRecords decoder snapshotIndex earlier = some first)
    (hrest : pairRecords decoder snapshotIndex later = some rest) :
    pairRecords decoder snapshotIndex (earlier ++ later) = some (first.append rest) := by
  obtain ⟨before, hbefore, rfl⟩ := Option.map_eq_some_iff.1 hfirst
  obtain ⟨after, hafter, rfl⟩ := Option.map_eq_some_iff.1 hrest
  have hdocuments : ∀ {documents : List SessionDocument} {decoded : List _} {document},
      (documents.mapM fun document => (decodeSnapshots decoder snapshotIndex document).map
        fun snapshots => (document, snapshots)) = some decoded →
      document ∈ decoded.map (fun entry => pairingDocument decoder entry.1 entry.2) →
      ∃ origin ∈ documents, document.sessionId = origin.sessionId := by
    intro documents decoded document hdecoded hmem
    obtain ⟨entry, hentry, rfl⟩ := List.mem_map.1 hmem
    exact ⟨entry.1, decoded_documents hdecoded ▸ List.mem_map_of_mem hentry, rfl⟩
  have hpairing := @TraceIpc.decodeTraceIpc_append
    (before.map fun entry => pairingDocument decoder entry.1 entry.2)
    (after.map fun entry => pairingDocument decoder entry.1 entry.2) (by
      intro left hleft right hright
      obtain ⟨leftOrigin, hleftOrigin, hleftSession⟩ := hdocuments hbefore hleft
      obtain ⟨rightOrigin, hrightOrigin, hrightSession⟩ := hdocuments hafter hright
      rw [hleftSession, hrightSession]
      exact hsessions _ hleftOrigin _ hrightOrigin)
  unfold pairRecords
  rw [List.mapM_append, hbefore, hafter]
  simp only [Option.bind_eq_bind, Option.bind_some, Option.pure_def, Option.map_some,
    List.flatMap_append, List.map_append, List.sum_append]
  rw [hpairing]
  rfl

/-- Documents that are decoded together are decoded in any parts. -/
theorem pairRecords_parts {earlier later : List SessionDocument} {paired : PairedRecords Message}
    (h : pairRecords decoder snapshotIndex (earlier ++ later) = some paired) :
    ∃ first rest, pairRecords decoder snapshotIndex earlier = some first ∧
      pairRecords decoder snapshotIndex later = some rest := by
  obtain ⟨decoded, hdecoded, -⟩ := Option.map_eq_some_iff.1 h
  rw [List.mapM_append] at hdecoded
  obtain ⟨before, hbefore, hdecoded⟩ := Option.bind_eq_some_iff.1 hdecoded
  obtain ⟨after, hafter, -⟩ := Option.bind_eq_some_iff.1 hdecoded
  unfold pairRecords
  rw [hbefore, hafter]
  exact ⟨_, _, rfl, rfl⟩

/-- The report on some documents, from the reports on each. -/
structure ReportsTogether (report : IpcReport Message) (reports : List (IpcReport Message)) :
    Prop where
  records : report.records = reports.flatMap IpcReport.records
  transactions : report.transactions = reports.flatMap IpcReport.transactions
  skipped : report.skippedSnapshots = (reports.map IpcReport.skippedSnapshots).sum
  unmatchedRequests : report.unmatchedRequests = (reports.map IpcReport.unmatchedRequests).sum
  unmatchedResponses : report.unmatchedResponses = (reports.map IpcReport.unmatchedResponses).sum
  ambiguous : report.ambiguousTransactions = (reports.map IpcReport.ambiguousTransactions).sum

theorem decodeDocuments_cons {document : SessionDocument} {documents : List SessionDocument}
    {first rest : IpcReport Message} {reports : List (IpcReport Message)}
    (hsession : ∀ other ∈ documents, document.sessionId ≠ other.sessionId)
    (hfirst : decodeDocuments decoder snapshotIndex [document] = some first)
    (hrest : decodeDocuments decoder snapshotIndex documents = some rest)
    (htogether : ReportsTogether rest reports) :
    ∃ report, decodeDocuments decoder snapshotIndex (document :: documents) = some report ∧
      ReportsTogether report (first :: reports) := by
  obtain ⟨pairedFirst, hpairedFirst, hfirst⟩ := Option.bind_eq_some_iff.1 hfirst
  obtain ⟨pairedRest, hpairedRest, hrest⟩ := Option.bind_eq_some_iff.1 hrest
  obtain ⟨hticksFirst, hfirst⟩ := (Option.ite_none_right_eq_some).1 hfirst
  obtain ⟨hticksRest, hrest⟩ := (Option.ite_none_right_eq_some).1 hrest
  have inv := pairRecords_inv hpairedFirst
  have hpaired := @pairRecords_append Message decoder snapshotIndex [document] documents _ _ (by
    intro left hleft right hright
    rw [List.mem_singleton.1 hleft]
    exact hsession right hright) hpairedFirst hpairedRest
  have hevents : (pairedFirst.append pairedRest).domainEvents decoder =
      pairedFirst.domainEvents decoder ++ pairedRest.domainEvents decoder :=
    PairedRecords.append_updates inv pairedRest
  have hticks : ((pairedFirst.append pairedRest).domainEvents decoder).all
      (fun event => event.event.placed) = true := by
    rw [hevents, List.all_append, hticksFirst, hticksRest]
    rfl
  unfold decodeDocuments
  rw [← List.singleton_append, hpaired, Option.bind_some]
  simp only [hticks, if_true]
  refine ⟨_, rfl, ?_⟩
  have htransactions := PairedRecords.append_transactions inv pairedRest
  cases hfirst
  cases hrest
  refine {
    records := by rw [List.flatMap_cons, ← htogether.records]; rfl
    transactions := by rw [List.flatMap_cons, ← htogether.transactions]; exact htransactions
    skipped := by rw [List.map_cons, List.sum_cons, ← htogether.skipped]; rfl
    unmatchedRequests := ?_
    unmatchedResponses := by
      rw [List.map_cons, List.sum_cons, ← htogether.unmatchedResponses]; rfl
    ambiguous := ?_ }
  · rw [List.map_cons, List.sum_cons, ← htogether.unmatchedRequests]
    simp [TraceIpc.unmatchedRequests, PairedRecords.append, TraceIpc.append]
  · rw [List.map_cons, List.sum_cons, ← htogether.ambiguous]
    unfold IpcReport.ambiguousTransactions
    rw [htransactions, List.countP_append]

/-- Decoding a list of documents is decoding each of them. -/
theorem decodeDocuments_together {documents : List SessionDocument}
    {reports : List (IpcReport Message)}
    (hdistinct : (documents.map SessionDocument.sessionId).Nodup)
    (h : (documents.mapM fun document => decodeDocuments decoder snapshotIndex [document]) =
      some reports) :
    ∃ report, decodeDocuments decoder snapshotIndex documents = some report ∧
      ReportsTogether report reports := by
  induction documents generalizing reports with
  | nil =>
    cases h
    exact ⟨_, rfl, ⟨rfl, rfl, rfl, rfl, rfl, rfl⟩⟩
  | cons document documents ih =>
    rw [List.mapM_cons] at h
    obtain ⟨first, hfirst, h⟩ := Option.bind_eq_some_iff.1 h
    obtain ⟨rest, hrest, h⟩ := Option.bind_eq_some_iff.1 h
    cases h
    rw [List.map_cons] at hdistinct
    obtain ⟨hfresh, hdistinct⟩ := List.nodup_cons.1 hdistinct
    obtain ⟨report, hreport, htogether⟩ := ih hdistinct hrest
    refine decodeDocuments_cons ?_ hfirst hreport htogether
    intro other hmem hsame
    exact hfresh (hsame ▸ List.mem_map_of_mem hmem)

/-- Documents that are decoded together are decoded on their own. -/
theorem decodeDocuments_singles {documents : List SessionDocument} {report : IpcReport Message}
    (hdistinct : (documents.map SessionDocument.sessionId).Nodup)
    (h : decodeDocuments decoder snapshotIndex documents = some report) :
    ∃ reports, (documents.mapM fun document =>
      decodeDocuments decoder snapshotIndex [document]) = some reports := by
  induction documents generalizing report with
  | nil => exact ⟨[], rfl⟩
  | cons document documents ih =>
    rw [List.map_cons] at hdistinct
    obtain ⟨hfresh, hdistinct⟩ := List.nodup_cons.1 hdistinct
    obtain ⟨paired, hpaired, hreport⟩ := Option.bind_eq_some_iff.1 h
    obtain ⟨hplaced, -⟩ := Option.ite_none_right_eq_some.1 hreport
    rw [← List.singleton_append] at hpaired
    obtain ⟨first, rest, hfirst, hrest⟩ := pairRecords_parts hpaired
    have happend := @pairRecords_append Message decoder snapshotIndex [document] documents _ _ (by
      intro left hleft right hright hsame
      rw [List.mem_singleton.1 hleft] at hsame
      exact hfresh (hsame ▸ List.mem_map_of_mem hright)) hfirst hrest
    obtain rfl : first.append rest = paired := Option.some.inj (happend.symm.trans hpaired)
    have hevents : (first.append rest).domainEvents decoder =
        first.domainEvents decoder ++ rest.domainEvents decoder :=
      PairedRecords.append_updates (pairRecords_inv hfirst) rest
    rw [hevents, List.all_append, Bool.and_eq_true] at hplaced
    have hsingle : ∃ single, decodeDocuments decoder snapshotIndex [document] = some single := by
      unfold decodeDocuments
      rw [hfirst, Option.bind_some]
      simp only [hplaced.1, if_true]
      exact ⟨_, rfl⟩
    have htail : ∃ later, decodeDocuments decoder snapshotIndex documents = some later := by
      unfold decodeDocuments
      rw [hrest, Option.bind_some]
      simp only [hplaced.2, if_true]
      exact ⟨_, rfl⟩
    obtain ⟨single, hsingle⟩ := hsingle
    obtain ⟨later, htail⟩ := htail
    obtain ⟨reports, hreports⟩ := ih hdistinct htail
    rw [List.mapM_cons, hsingle, hreports]
    exact ⟨_, rfl⟩

end Merge

end SysAgent
