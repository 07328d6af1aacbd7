import Mathlib
import SysAgent.Lib.StableSort
import SysAgent.Client.TraceMerge

set_option autoImplicit false

/-! # The merged timeline (`build_trace_timeline` in `sysagent.py`)

The entries of each document are put one behind the other and sorted. The session id is the last
part of the sort key, so entries of two documents never tie, and the order of the documents does not
show. An event without a `tick` is not caught by the default of `event.get("tick", "0")`, because
the entry has the field with the value `None`. -/

namespace SysAgent

/-- `TRACE_BOOT_EPOCH_TOLERANCE_MS`. -/
def traceBootEpochToleranceMs : Int := 2000

inductive TimelineEntry (Message : Type) where
  | event (sessionId : String) (event : TimelineEvent) (targetId : Option String) (pid : String)
      (ipc : List (TimelineRecord Message))
  | transaction (sessionId : String) (transaction : TimelineTransaction Message)
  | domainEvent (domainEvent : DomainEvent)

namespace TimelineEntry

variable {Message : Type}

/-- The event that the entry has its tick and its sequence number from. -/
def origin : TimelineEntry Message → Option TimelineEvent
  | event _ recorded _ _ _ => some recorded
  | transaction _ paired => paired.request.map TimelineRecord.event
  | domainEvent seen => some seen.event

def tick (entry : TimelineEntry Message) : Option Int := entry.origin.bind TimelineEvent.tick

def seq (entry : TimelineEntry Message) : Option Int := entry.origin.bind TimelineEvent.seq

def sessionId : TimelineEntry Message → String
  | event sessionId _ _ _ _ => sessionId
  | transaction sessionId _ => sessionId
  | domainEvent seen => seen.sessionId

def isEvent : TimelineEntry Message → Bool
  | event .. => true
  | transaction .. => false
  | domainEvent _ => false

def isDomainEvent : TimelineEntry Message → Bool
  | event .. => false
  | transaction .. => false
  | domainEvent _ => true

/-- The transaction of the entry. -/
def transaction? : TimelineEntry Message → Option (TimelineTransaction Message)
  | event .. => none
  | transaction _ paired => some paired
  | domainEvent _ => none

/-- The pid of the process that the event of the entry is of. -/
def pid? : TimelineEntry Message → Option String
  | event _ _ _ pid _ => some pid
  | transaction .. => none
  | domainEvent _ => none

/-- `parse_int` reads the tick and the sequence number. -/
def placed (entry : TimelineEntry Message) : Bool := entry.tick.isSome && entry.seq.isSome

def sortKey (entry : TimelineEntry Message) : ℤ ×ₗ ℕ ×ₗ ℤ ×ₗ String :=
  toLex (entry.tick.getD 0, toLex (if entry.isEvent then 0 else 1,
    toLex (entry.seq.getD 0, entry.sessionId)))

end TimelineEntry

inductive TimelineError
  | decoding
  | differentBoots
  | unplacedEntry
  deriving DecidableEq

/-- A correlation kind is a method and whether the transaction is ambiguous. -/
structure TraceTimeline (Message : Type) where
  bootEpochUnixMs : Option Int
  timeline : List (TimelineEntry Message)
  sessionCount : Nat
  eventCount : Nat
  ipcCount : Nat
  transactionCount : Nat
  ambiguousTransactions : Nat
  correlationMethods : CorrelationMethod × Bool → Nat
  domainEventCount : Nat
  processCounts : String → Nat
  tickFirst : Option Int
  tickLast : Option Int

section Build

variable {Message : Type} (decoder : MessageDecoder Message)

def bootEpochs (documents : List SessionDocument) : List Int :=
  documents.filterMap SessionDocument.bootEpochUnixMs

/-- `max(boot_epochs) - min(boot_epochs) > TRACE_BOOT_EPOCH_TOLERANCE_MS`. -/
def bootsDiffer (documents : List SessionDocument) : Bool :=
  match (bootEpochs documents).max?, (bootEpochs documents).min? with
  | some last, some first => decide (traceBootEpochToleranceMs < last - first)
  | _, _ => false

def SessionDocument.pidOf (document : SessionDocument) (event : TimelineEvent) : String :=
  ((document.targets.lookup event.target).map TimelineTarget.pid).getD "unknown"

/-- The entries of the events, each with the records of its session and sequence number. -/
def eventEntries (document : SessionDocument) (report : IpcReport Message) :
    List (TimelineEntry Message) :=
  document.events.map fun event =>
    .event document.sessionId event ((document.targets.lookup event.target).bind TimelineTarget.id)
      (document.pidOf event) (report.records.filter fun record =>
        record.sessionId = document.sessionId ∧ record.event.seqText = event.seqText)

/-- What the loop over the documents appends for one of them. -/
def documentEntries (decoded : SessionDocument × IpcReport Message) :
    List (TimelineEntry Message) :=
  decoded.2.transactions.map (.transaction decoded.1.sessionId) ++
    decoded.2.domainEvents.map .domainEvent ++ eventEntries decoded.1 decoded.2

/-- A document and the report on it. -/
def decodeSingle (document : SessionDocument) : Option (SessionDocument × IpcReport Message) :=
  (decodeDocuments decoder none [document]).map fun report => (document, report)

def TimelineTransaction.correlation (transaction : TimelineTransaction Message) :
    CorrelationMethod × Bool := (transaction.method, transaction.ambiguous)

/-- The counters of the loop and the sorted timeline. -/
def timelineOf (documents : List SessionDocument)
    (decoded : List (SessionDocument × IpcReport Message)) : TraceTimeline Message :=
  let timeline := StableSort.sort TimelineEntry.sortKey (decoded.flatMap documentEntries)
  { bootEpochUnixMs := (bootEpochs documents).min?
    timeline
    sessionCount := documents.length
    eventCount := timeline.countP TimelineEntry.isEvent
    ipcCount := (decoded.map fun entry => entry.2.records.length).sum
    transactionCount := (decoded.map fun entry => entry.2.transactions.length).sum
    ambiguousTransactions := (decoded.map fun entry => entry.2.ambiguousTransactions).sum
    correlationMethods := fun method => (decoded.map fun entry =>
      entry.2.transactions.countP fun transaction => transaction.correlation = method).sum
    domainEventCount := (decoded.map fun entry => entry.2.domainEvents.length).sum
    processCounts := fun pid => (decoded.map fun entry =>
      entry.1.events.countP fun event => entry.1.pidOf event = pid).sum
    tickFirst := (timeline.filterMap TimelineEntry.tick).min?
    tickLast := (timeline.filterMap TimelineEntry.tick).max? }

def buildTraceTimeline (documents : List SessionDocument) :
    Except TimelineError (TraceTimeline Message) :=
  match documents.mapM (decodeSingle decoder) with
  | none => .error .decoding
  | some decoded =>
    if bootsDiffer documents then .error .differentBoots
    else if (decoded.flatMap documentEntries).all TimelineEntry.placed then
      .ok (timelineOf documents decoded)
    else .error .unplacedEntry

end Build

/-! ## Boots -/

/-- Two recorded boot epochs differ by more than the tolerance. -/
def DifferentBoots (documents : List SessionDocument) : Prop :=
  ∃ first ∈ bootEpochs documents, ∃ last ∈ bootEpochs documents,
    traceBootEpochToleranceMs < last - first

theorem bootsDiffer_iff (documents : List SessionDocument) :
    bootsDiffer documents = true ↔ DifferentBoots documents := by
  unfold bootsDiffer DifferentBoots
  generalize bootEpochs documents = epochs
  cases hlast : epochs.max? with
  | none =>
    have hnil : epochs = [] := List.max?_eq_none_iff.1 hlast
    simp [hnil]
  | some last =>
    obtain ⟨hlastMem, hlastMax⟩ := List.max?_eq_some_iff.1 hlast
    cases hfirst : epochs.min? with
    | none =>
      have hnil : epochs = [] := List.min?_eq_none_iff.1 hfirst
      simp [hnil]
    | some first =>
      obtain ⟨hfirstMem, hfirstMin⟩ := List.min?_eq_some_iff.1 hfirst
      simp only [decide_eq_true_eq]
      constructor
      · intro h
        exact ⟨first, hfirstMem, last, hlastMem, h⟩
      · rintro ⟨low, hlow, high, hhigh, h⟩
        have hlow := hfirstMin low hlow
        have hhigh := hlastMax high hhigh
        omega

theorem DifferentBoots.perm {documents documents' : List SessionDocument}
    (hperm : documents.Perm documents') (h : DifferentBoots documents) :
    DifferentBoots documents' := by
  have hepochs : (bootEpochs documents).Perm (bootEpochs documents') := hperm.filterMap _
  obtain ⟨first, hfirst, last, hlast, h⟩ := h
  exact ⟨first, hepochs.mem_iff.1 hfirst, last, hepochs.mem_iff.1 hlast, h⟩

/-! ## The entries of one document -/

section Entries

variable {Message : Type} {decoder : MessageDecoder Message}

/-- A domain event is seen at a record. -/
theorem domainEvents_origin {paired : PairedRecords Message} {seen : DomainEvent}
    (h : seen ∈ paired.domainEvents decoder) :
    ∃ record ∈ paired.records,
      seen.sessionId = record.sessionId ∧ seen.event = record.event := by
  obtain ⟨index, -, h⟩ := List.mem_flatMap.1 h
  rcases List.mem_append.1 h with h | h
  · obtain ⟨record, hrecord, hclose⟩ := List.mem_flatMap.1 h
    obtain ⟨-, hclose⟩ := Option.ite_none_right_eq_some.1 (Option.mem_toList.1 hclose)
    obtain ⟨objectId, -, rfl⟩ := Option.map_eq_some_iff.1 hclose
    exact ⟨record, List.mem_of_getElem? (Option.mem_toList.1 hrecord), rfl, rfl⟩
  · obtain ⟨transaction, -, hcreate⟩ := List.mem_flatMap.1 h
    replace hcreate := Option.mem_toList.1 hcreate
    obtain ⟨request, -, hcreate⟩ := Option.bind_eq_some_iff.1 hcreate
    obtain ⟨response, hresponse, hcreate⟩ := Option.bind_eq_some_iff.1 hcreate
    obtain ⟨objectId, -, hcreate⟩ := Option.bind_eq_some_iff.1 hcreate
    cases hcreate
    exact ⟨response, List.mem_of_getElem? hresponse, rfl, rfl⟩

theorem transactions_origin {paired : PairedRecords Message} (inv : paired.Inv)
    {transaction : TimelineTransaction Message} (h : transaction ∈ paired.transactions) :
    ∃ record ∈ paired.records, transaction.request = some record := by
  obtain ⟨indices, hindices, rfl⟩ := List.mem_map.1 h
  obtain ⟨request, _, hrequest, -⟩ := inv.pairing.matched indices hindices
  have hlt := (List.getElem?_eq_some_iff.1 hrequest).1
  rw [inv.length] at hlt
  exact ⟨paired.records[indices.request], List.getElem_mem hlt, List.getElem?_eq_getElem hlt⟩

theorem decodeSingle_eq_some {document : SessionDocument}
    {decoded : SessionDocument × IpcReport Message}
    (h : decodeSingle decoder document = some decoded) :
    decoded.1 = document ∧ decodeDocuments decoder none [document] = some decoded.2 := by
  obtain ⟨report, hreport, rfl⟩ := Option.map_eq_some_iff.1 h
  exact ⟨rfl, hreport⟩

/-- The entries of a document are of its session and of its events. -/
theorem documentEntries_origin {document : SessionDocument}
    {decoded : SessionDocument × IpcReport Message}
    (h : decodeSingle decoder document = some decoded) {entry : TimelineEntry Message}
    (hmem : entry ∈ documentEntries decoded) :
    entry.sessionId = document.sessionId ∧
      ∃ event ∈ document.events, entry.origin = some event := by
  obtain ⟨rfl, hreport⟩ := decodeSingle_eq_some h
  obtain ⟨paired, hpaired, hreport⟩ := Option.bind_eq_some_iff.1 hreport
  obtain ⟨-, hreport⟩ := Option.ite_none_right_eq_some.1 hreport
  have hreport := Option.some.inj hreport
  rcases List.mem_append.1 hmem with hmem | hmem
  · rcases List.mem_append.1 hmem with hmem | hmem
    · obtain ⟨transaction, htransaction, rfl⟩ := List.mem_map.1 hmem
      rw [← hreport] at htransaction
      obtain ⟨record, hrecord, hrequest⟩ :=
        transactions_origin (pairRecords_inv hpaired) htransaction
      obtain ⟨-, hevent⟩ := pairRecords_origin hpaired hrecord
      refine ⟨rfl, record.event, hevent, ?_⟩
      rw [TimelineEntry.origin, hrequest, Option.map_some]
    · obtain ⟨seen, hseen, rfl⟩ := List.mem_map.1 hmem
      rw [← hreport] at hseen
      obtain ⟨record, hrecord, hsession, hevent⟩ :=
        domainEvents_origin ((StableSort.sort_perm _ _).mem_iff.1 hseen)
      obtain ⟨hrecordSession, hrecordEvent⟩ := pairRecords_origin hpaired hrecord
      exact ⟨hsession.trans hrecordSession, seen.event, hevent ▸ hrecordEvent, rfl⟩
  · obtain ⟨event, hevent, rfl⟩ := List.mem_map.1 hmem
    exact ⟨rfl, event, hevent, rfl⟩

/-- The entries have their places if and only if the events of the document do. -/
theorem documentEntries_placed_iff {document : SessionDocument}
    {decoded : SessionDocument × IpcReport Message}
    (h : decodeSingle decoder document = some decoded) :
    (documentEntries decoded).all TimelineEntry.placed = true ↔
      ∀ event ∈ document.events, event.placed = true := by
  rw [List.all_eq_true]
  constructor
  · intro hplaced event hevent
    obtain ⟨rfl, -⟩ := decodeSingle_eq_some h
    exact hplaced _ (List.mem_append_right _ (List.mem_map_of_mem hevent))
  · intro hplaced entry hentry
    obtain ⟨-, event, hevent, horigin⟩ := documentEntries_origin h hentry
    have hevent := hplaced event hevent
    unfold TimelineEntry.placed TimelineEntry.tick TimelineEntry.seq
    rw [horigin]
    exact hevent

theorem countP_documentEntries (p : TimelineEntry Message → Bool)
    (decoded : SessionDocument × IpcReport Message) :
    (documentEntries decoded).countP p =
      decoded.2.transactions.countP
          (fun transaction => p (.transaction decoded.1.sessionId transaction)) +
        decoded.2.domainEvents.countP (fun seen => p (.domainEvent seen)) +
        (eventEntries decoded.1 decoded.2).countP p := by
  unfold documentEntries
  rw [List.countP_append, List.countP_append, List.countP_map, List.countP_map]
  rfl

end Entries

/-! ## The order of the documents -/

section Order

theorem min?_perm {l l' : List Int} (hperm : l.Perm l') : l.min? = l'.min? := by
  cases h : l'.min? with
  | none =>
    have hnil : l' = [] := List.min?_eq_none_iff.1 h
    rw [hnil] at hperm
    rw [hperm.eq_nil]
    rfl
  | some least =>
    obtain ⟨hmem, hle⟩ := List.min?_eq_some_iff.1 h
    exact List.min?_eq_some_iff.2 ⟨hperm.mem_iff.2 hmem, fun a ha => hle a (hperm.mem_iff.1 ha)⟩

variable {Message : Type} {decoder : MessageDecoder Message}
  {documents documents' : List SessionDocument}
  {decoded decoded' : List (SessionDocument × IpcReport Message)}

theorem sortKey_sessionId {left right : TimelineEntry Message} (h : left.sortKey = right.sortKey) :
    left.sessionId = right.sessionId := by
  simp only [TimelineEntry.sortKey, EmbeddingLike.apply_eq_iff_eq, Prod.mk.injEq] at h
  exact h.2.2.2

/-- Entries of two documents never share a sort key. -/
theorem sortKeys_disjoint (hdistinct : (documents.map SessionDocument.sessionId).Nodup)
    (h : documents.mapM (decodeSingle decoder) = some decoded) :
    decoded.Pairwise fun p q => ∀ left ∈ documentEntries p, ∀ right ∈ documentEntries q,
      left.sortKey ≠ right.sortKey := by
  have hdocuments : decoded.map Prod.fst = documents := decoded_documents h
  have hsingle : ∀ p ∈ decoded, decodeSingle decoder p.1 = some p := by
    intro p hp
    obtain ⟨document, _, hdocument⟩ := exists_of_mem_mapM h hp
    rwa [(decodeSingle_eq_some hdocument).1]
  rw [← hdocuments, List.map_map, List.Nodup, List.pairwise_map] at hdistinct
  refine hdistinct.imp_of_mem ?_
  intro p q hp hq hne left hleft right hright hkey
  have hleftSession := (documentEntries_origin (hsingle p hp) hleft).1
  have hrightSession := (documentEntries_origin (hsingle q hq) hright).1
  have hsession := sortKey_sessionId hkey
  rw [hleftSession, hrightSession] at hsession
  exact hne hsession

theorem timelineOf_perm (hdistinct : (documents.map SessionDocument.sessionId).Nodup)
    (h : documents.mapM (decodeSingle decoder) = some decoded)
    (hdocuments : documents.Perm documents') (hdecoded : decoded.Perm decoded') :
    timelineOf documents decoded = timelineOf documents' decoded' := by
  have htimeline : StableSort.sort TimelineEntry.sortKey (decoded.flatMap documentEntries) =
      StableSort.sort TimelineEntry.sortKey (decoded'.flatMap documentEntries) :=
    StableSort.sort_eq_of_atKey_eq _ fun key =>
      StableSort.atKey_flatMap_perm _ documentEntries hdecoded (sortKeys_disjoint hdistinct h) key
  have hsum : ∀ count : SessionDocument × IpcReport Message → Nat,
      (decoded.map count).sum = (decoded'.map count).sum :=
    fun count => (hdecoded.map count).sum_eq
  have hepochs : (bootEpochs documents).min? = (bootEpochs documents').min? :=
    min?_perm (hdocuments.filterMap _)
  unfold timelineOf
  simp only [htimeline, hsum, hepochs, hdocuments.length_eq]

theorem buildTraceTimeline_eq (h : documents.mapM (decodeSingle decoder) = some decoded) :
    buildTraceTimeline decoder documents =
      if bootsDiffer documents then .error .differentBoots
      else if (decoded.flatMap documentEntries).all TimelineEntry.placed then
        .ok (timelineOf documents decoded)
      else .error .unplacedEntry := by
  unfold buildTraceTimeline
  rw [h]

/-- The order of the documents does not show. -/
theorem buildTraceTimeline_perm (hdistinct : (documents.map SessionDocument.sessionId).Nodup)
    (h : documents.mapM (decodeSingle decoder) = some decoded)
    (hperm : documents.Perm documents') :
    buildTraceTimeline decoder documents' = buildTraceTimeline decoder documents := by
  obtain ⟨decoded', h', hdecoded⟩ := mapM_perm hperm h
  have hboots : bootsDiffer documents' = bootsDiffer documents := by
    rw [Bool.eq_iff_iff, bootsDiffer_iff, bootsDiffer_iff]
    exact ⟨fun hdiffer => hdiffer.perm hperm.symm, fun hdiffer => hdiffer.perm hperm⟩
  have hplaced : (decoded'.flatMap documentEntries).all TimelineEntry.placed =
      (decoded.flatMap documentEntries).all TimelineEntry.placed :=
    (hdecoded.symm.flatMap_right _).all_eq
  rw [buildTraceTimeline_eq h, buildTraceTimeline_eq h', hboots, hplaced,
    timelineOf_perm hdistinct h hperm hdecoded]

end Order

/-! ## The merge law -/

section Law

variable {Message : Type}

/-- The timeline has an entry for each transaction, domain event and event, it is sorted with the
    raw events first, and the summary counts its entries. -/
structure TimelineLaw (documents : List SessionDocument)
    (decoded : List (SessionDocument × IpcReport Message)) (result : TraceTimeline Message) :
    Prop where
  entries : result.timeline.Perm (decoded.flatMap documentEntries)
  placed : ∀ entry ∈ result.timeline, entry.placed = true
  sorted : result.timeline.Pairwise fun left right => ∀ first last,
    left.tick = some first → right.tick = some last →
      first < last ∨ first = last ∧ (right.isEvent = true → left.isEvent = true)
  sessions : result.sessionCount = documents.length
  records : result.ipcCount = (decoded.flatMap fun entry => entry.2.records).length
  events : result.eventCount = result.timeline.countP TimelineEntry.isEvent
  transactions : result.transactionCount =
    (result.timeline.filterMap TimelineEntry.transaction?).length
  ambiguous : result.ambiguousTransactions =
    (result.timeline.filterMap TimelineEntry.transaction?).countP TimelineTransaction.ambiguous
  correlations : ∀ kind, result.correlationMethods kind =
    (result.timeline.filterMap TimelineEntry.transaction?).countP fun transaction =>
      transaction.correlation = kind
  domainEvents : result.domainEventCount = result.timeline.countP TimelineEntry.isDomainEvent
  processes : ∀ pid, result.processCounts pid =
    result.timeline.countP fun entry => entry.pid? = some pid

/-- What merging the documents promises. -/
structure TimelineMerges (decoder : MessageDecoder Message) (documents : List SessionDocument) :
    Prop where
  together : ∀ snapshotIndex report,
    decodeDocuments decoder snapshotIndex documents = some report →
    ∃ reports, (documents.mapM fun document =>
      decodeDocuments decoder snapshotIndex [document]) = some reports ∧
        ReportsTogether report reports
  boots : buildTraceTimeline decoder documents = .error .differentBoots ↔ DifferentBoots documents
  timeline : ¬ DifferentBoots documents → ∃ decoded result,
    documents.mapM (decodeSingle decoder) = some decoded ∧
      buildTraceTimeline decoder documents = .ok result ∧ TimelineLaw documents decoded result
  order : ∀ documents', documents.Perm documents' →
    buildTraceTimeline decoder documents' = buildTraceTimeline decoder documents

theorem sorted_of_sortKey {left right : TimelineEntry Message} (h : left.sortKey ≤ right.sortKey)
    {first last : Int} (hfirst : left.tick = some first) (hlast : right.tick = some last) :
    first < last ∨ first = last ∧ (right.isEvent = true → left.isEvent = true) := by
  rw [TimelineEntry.sortKey, TimelineEntry.sortKey, hfirst, hlast] at h
  simp only [Option.getD_some] at h
  rw [Prod.Lex.toLex_le_toLex] at h
  rcases h with h | ⟨hsame, h⟩
  · exact Or.inl h
  · refine Or.inr ⟨hsame, fun hright => ?_⟩
    rw [Prod.Lex.toLex_le_toLex] at h
    cases hleft : left.isEvent with
    | true => rfl
    | false => simp [hleft, hright] at h

variable {documents : List SessionDocument}
  {decoded : List (SessionDocument × IpcReport Message)}

/-- A count over the timeline is the sum of the counts over the documents. -/
theorem countP_timeline (p : TimelineEntry Message → Bool) :
    (timelineOf documents decoded).timeline.countP p =
      (decoded.map fun entry => (documentEntries entry).countP p).sum := by
  have hperm := StableSort.sort_perm TimelineEntry.sortKey (decoded.flatMap documentEntries)
  unfold timelineOf
  simp only
  rw [hperm.countP_eq, List.countP_flatMap]
  rfl

theorem countP_transactions (p : TimelineTransaction Message → Bool) :
    ((timelineOf documents decoded).timeline.filterMap TimelineEntry.transaction?).countP p =
      (decoded.map fun entry => entry.2.transactions.countP p).sum := by
  rw [List.countP_filterMap, countP_timeline]
  congr 2
  funext entry
  rw [countP_documentEntries]
  simp [TimelineEntry.transaction?, eventEntries, List.countP_map, Function.comp_def]

theorem timelineLaw_timelineOf
    (hplaced : (decoded.flatMap documentEntries).all TimelineEntry.placed = true) :
    TimelineLaw documents decoded (timelineOf documents decoded) := by
  have hperm := StableSort.sort_perm TimelineEntry.sortKey (decoded.flatMap documentEntries)
  have hsorted := StableSort.sorted_sort TimelineEntry.sortKey (decoded.flatMap documentEntries)
  exact {
    entries := hperm
    placed := by
      intro entry hentry
      exact List.all_eq_true.1 hplaced entry (hperm.mem_iff.1 hentry)
    sorted := hsorted.imp fun h first last hfirst hlast => sorted_of_sortKey h hfirst hlast
    sessions := rfl
    records := by rw [List.length_flatMap]; rfl
    events := rfl
    transactions := by
      have h := @countP_transactions Message documents decoded fun _ => true
      rw [List.countP_true] at h
      rw [h]
      simp [timelineOf]
    ambiguous := (countP_transactions _).symm
    correlations := fun kind => (countP_transactions _).symm
    domainEvents := by
      rw [countP_timeline]
      simp only [countP_documentEntries]
      simp [timelineOf, TimelineEntry.isDomainEvent, eventEntries, List.countP_map,
        Function.comp_def]
    processes := by
      intro pid
      rw [countP_timeline]
      simp only [countP_documentEntries]
      simp [timelineOf, TimelineEntry.pid?, eventEntries, List.countP_map, Function.comp_def] }

variable {decoder : MessageDecoder Message}

theorem all_placed_iff (h : documents.mapM (decodeSingle decoder) = some decoded) :
    (decoded.flatMap documentEntries).all TimelineEntry.placed = true ↔
      ∀ document ∈ documents, ∀ event ∈ document.events, event.placed = true := by
  have hdocuments : decoded.map Prod.fst = documents := decoded_documents h
  have hentries : ∀ entry ∈ decoded,
      ((documentEntries entry).all TimelineEntry.placed = true ↔
        ∀ event ∈ entry.1.events, event.placed = true) := by
    intro entry hentry
    obtain ⟨document, _, hdocument⟩ := exists_of_mem_mapM h hentry
    rw [(decodeSingle_eq_some hdocument).1]
    exact documentEntries_placed_iff hdocument
  rw [List.all_flatMap, List.all_eq_true, ← hdocuments, List.forall_mem_map]
  exact forall₂_congr hentries

theorem decodeSingle_documents {documents : List SessionDocument}
    {reports : List (IpcReport Message)}
    (h : (documents.mapM fun document => decodeDocuments decoder none [document]) = some reports) :
    ∃ decoded, documents.mapM (decodeSingle decoder) = some decoded := by
  induction documents generalizing reports with
  | nil => exact ⟨[], rfl⟩
  | cons document documents ih =>
    rw [List.mapM_cons] at h
    obtain ⟨first, hfirst, h⟩ := Option.bind_eq_some_iff.1 h
    obtain ⟨rest, hrest, _⟩ := Option.bind_eq_some_iff.1 h
    obtain ⟨decoded, hdecoded⟩ := ih hrest
    refine ⟨(document, first) :: decoded, ?_⟩
    rw [List.mapM_cons, hdecoded, decodeSingle, hfirst]
    rfl

/-- Exactly when the merge keeps its promise: the documents are of different boots, or every event
    has a tick and a sequence number. -/
theorem timeline_merges_iff {report : IpcReport Message}
    (hdistinct : (documents.map SessionDocument.sessionId).Nodup)
    (hdecoded : decodeDocuments decoder none documents = some report) :
    TimelineMerges decoder documents ↔ DifferentBoots documents ∨
      ∀ document ∈ documents, ∀ event ∈ document.events, event.placed = true := by
  obtain ⟨reports, hreports⟩ := decodeDocuments_singles hdistinct hdecoded
  obtain ⟨decoded, hsingles⟩ := decodeSingle_documents hreports
  have hbuild := buildTraceTimeline_eq hsingles
  constructor
  · intro law
    by_cases hboots : DifferentBoots documents
    · exact Or.inl hboots
    · obtain ⟨_, result, _, hresult, _⟩ := law.timeline hboots
      rw [← bootsDiffer_iff] at hboots
      rw [hbuild, if_neg hboots] at hresult
      refine Or.inr ((all_placed_iff hsingles).1 ?_)
      by_contra hunplaced
      rw [if_neg hunplaced] at hresult
      cases hresult
  · intro h
    exact {
      together := by
        intro snapshotIndex report hreport
        obtain ⟨reports, hreports⟩ := decodeDocuments_singles hdistinct hreport
        obtain ⟨report', hreport', htogether⟩ := decodeDocuments_together hdistinct hreports
        obtain rfl := Option.some.inj (hreport.symm.trans hreport')
        exact ⟨reports, hreports, htogether⟩
      boots := by
        rw [hbuild, ← bootsDiffer_iff]
        split_ifs with hboots <;> simp [hboots]
      timeline := by
        intro hboots
        have hplaced := (all_placed_iff hsingles).2 (h.resolve_left hboots)
        rw [← bootsDiffer_iff] at hboots
        refine ⟨decoded, timelineOf documents decoded, hsingles, ?_,
          timelineLaw_timelineOf hplaced⟩
        rw [hbuild, if_neg hboots, if_pos hplaced]
      order := fun documents' hperm => buildTraceTimeline_perm hdistinct hsingles hperm }

end Law

/-- A decoder whose messages are a request to object 7 and the response to it, which creates object
    9. -/
def callDecoder : MessageDecoder CmifMode where
  decode text := if text = "request" then some .request else some .response
  mode message := message
  operation _ := none
  domainObject message := if message = .request then some 7 else none
  commandId _ := some 3
  result _ := "0x0"
  createdObject _ _ := some 9
  value _ _ _ := none

/-- A document of one call, with its request at a tick and its response two ticks later. -/
def callDocument (sessionId : String) (tick : Int) : SessionDocument where
  sessionId
  bootEpochUnixMs := some 1000
  pairs := [{ entryId := "entry", returnId := "return", correlation := none }]
  targets := [("0", { id := some "entry", pid := "120", snapshotKinds := [some "ipc"] }),
    ("1", { id := some "return", pid := "120", snapshotKinds := [some "ipc"] })]
  events := [{ seqText := "1", seq := some 1, tick := some tick, thread := some "4", target := "0"
               snapshots := 1, data := fun _ => some "request" },
    { seqText := "2", seq := some 2, tick := some (tick + 2), thread := some "4", target := "1"
      snapshots := 1, data := fun _ => some "response" }]

/-- The calls of two sessions overlap. -/
theorem timeline_merges_two_sessions :
    TimelineMerges callDecoder [callDocument "a" 5, callDocument "b" 4] ∧
      ∃ report, decodeDocuments callDecoder none [callDocument "a" 5, callDocument "b" 4] =
          some report ∧
        report.records.length = 4 ∧ report.transactions.length = 2 ∧
          report.domainEvents.length = 2 := by
  refine ⟨(timeline_merges_iff (by decide) rfl).2 (Or.inr (by decide)), _, rfl, rfl, rfl, ?_⟩
  exact (StableSort.sort_perm _ _).length_eq.trans rfl

/-- A decoder that reads every snapshot as a request. -/
def requestDecoder : MessageDecoder String where
  decode := some
  mode _ := .request
  operation _ := none
  domainObject _ := none
  commandId _ := none
  result _ := "0x0"
  createdObject _ _ := none
  value _ _ _ := none

/-- A document of one event without snapshots. -/
def eventDocument (sessionId : String) (tick : Option Int) : SessionDocument where
  sessionId
  bootEpochUnixMs := none
  pairs := []
  targets := []
  events := [{ seqText := "1", seq := some 1, tick, thread := none, target := "0", snapshots := 0
               data := fun _ => none }]

/-- An event without a tick: the default of `event.get("tick", "0")` is not used, and the sort
    fails. -/
theorem timeline_lost_without_tick :
    (decodeDocuments requestDecoder none [eventDocument "a" none]).isSome = true ∧
      ¬ TimelineMerges requestDecoder [eventDocument "a" none] := by
  refine ⟨rfl, fun law => ?_⟩
  have hboots : ¬ DifferentBoots [eventDocument "a" none] := by
    rintro ⟨first, hfirst, _⟩
    cases hfirst
  obtain ⟨decoded, result, hdecoded, hresult, _⟩ := law.timeline hboots
  have hunplaced : ¬ (decoded.flatMap documentEntries).all TimelineEntry.placed = true := by
    rw [all_placed_iff hdecoded]
    decide
  rw [buildTraceTimeline_eq hdecoded, if_neg (mt (bootsDiffer_iff _).1 hboots),
    if_neg hunplaced] at hresult
  cases hresult

end SysAgent
