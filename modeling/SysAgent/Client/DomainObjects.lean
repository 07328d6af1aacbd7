import Mathlib
import SysAgent.Client.DomainRecord

set_option autoImplicit false

/-! # The summary of domain objects (`decode_trace_ipc` in `sysagent.py`)

What is reported of an object is its record after the observations of all documents, one document
behind the other. So `firstTick` is that of the first file that has the object, and `lastTick` that
of the last one that uses it, whatever their ticks are. -/

namespace SysAgent

/-! ## Records and transactions -/

section Updates

variable {Message : Type} {α : Type} {own : TimelineRecord Message → List α}
  {completed : TimelineTransaction Message → List α}

theorem filter_response_perm (transactions : List IpcTransaction) (count : Nat) :
    ((List.range count).flatMap fun index =>
      transactions.filter fun transaction => transaction.response = index).Perm
      (transactions.filter fun transaction => transaction.response < count) := by
  induction count with
  | zero => simp
  | succ count ih =>
    rw [List.range_succ, List.flatMap_append, List.flatMap_singleton]
    have hsplit := List.filter_append_perm (fun transaction : IpcTransaction =>
      decide (transaction.response < count))
      (transactions.filter fun transaction => transaction.response < count + 1)
    rw [List.filter_filter, List.filter_filter] at hsplit
    refine List.Perm.trans ?_ hsplit
    refine List.Perm.append (ih.trans (List.Perm.of_eq ?_)) (List.Perm.of_eq ?_)
    · refine List.filter_congr ?_
      intro transaction _
      rw [Bool.eq_iff_iff, Bool.and_eq_true, decide_eq_true_eq, decide_eq_true_eq]
      omega
    · refine List.filter_congr ?_
      intro transaction _
      rw [Bool.eq_iff_iff, Bool.and_eq_true, Bool.not_eq_true', decide_eq_false_iff_not,
        decide_eq_true_eq, decide_eq_true_eq]
      omega

theorem flatMap_range_getElem? {records : List (TimelineRecord Message)} :
    ((List.range records.length).flatMap fun index => records[index]?.toList.flatMap own) =
      records.flatMap own := by
  induction records using List.reverseRecOn with
  | nil => rfl
  | append_singleton records record ih =>
    rw [List.length_append, List.length_singleton, List.range_succ, List.flatMap_append,
      List.flatMap_append, List.flatMap_singleton, List.flatMap_singleton,
      List.getElem?_concat_length, Option.toList_some, List.flatMap_singleton, ← ih]
    congr 1
    refine List.flatMap_congr ?_
    intro index hindex
    rw [List.getElem?_append_left (List.mem_range.1 hindex)]

/-- The walk gives what the records and the transactions give. -/
theorem updates_perm {paired : PairedRecords Message} (inv : paired.Inv) :
    (paired.updates own completed).Perm
      (paired.records.flatMap own ++ paired.transactions.flatMap completed) := by
  have hall : paired.pairing.transactions.filter
      (fun transaction => transaction.response < paired.records.length) =
        paired.pairing.transactions := by
    rw [List.filter_eq_self]
    intro transaction hmem
    rw [← inv.length]
    exact decide_eq_true (inv.pairing.response_lt hmem)
  have hresponses := filter_response_perm paired.pairing.transactions paired.records.length
  rw [hall] at hresponses
  refine (List.flatMap_append_perm _ _ _).symm.trans (List.Perm.append ?_ ?_)
  · exact List.Perm.of_eq flatMap_range_getElem?
  · rw [← List.flatMap_assoc, PairedRecords.transactions, List.flatMap_map]
    exact hresponses.flatMap_right _

theorem countP_flatMap_single {β : Type} {p : β → Bool} {f : β → List α} {q : α → Bool}
    (h : ∀ b, (f b).countP q = if p b then 1 else 0) (l : List β) :
    (l.flatMap f).countP q = l.countP p := by
  induction l with
  | nil => rfl
  | cons b l ih => rw [List.flatMap_cons, List.countP_append, ih, h, List.countP_cons, Nat.add_comm]

end Updates

section Counts

variable {Message : Type} (decoder : MessageDecoder Message) (objectId : Nat)

def closesObject (record : TimelineRecord Message) : Bool :=
  decoder.mode record.message = .request ∧
    decoder.operation record.message = some "close-domain-object" ∧
    decoder.domainObject record.message = some objectId

def requestsObject (record : TimelineRecord Message) : Bool :=
  decoder.mode record.message = .request ∧
    decoder.operation record.message ≠ some "close-domain-object" ∧
    decoder.domainObject record.message = some objectId

def createsObject (transaction : TimelineTransaction Message) : Bool :=
  match transaction.request, transaction.response with
  | some request, some response =>
    decoder.createdObject request.message response.message = some objectId
  | _, _ => false

/-- The result of a response to a request to the object. -/
def answerOf (transaction : TimelineTransaction Message) : Option String :=
  match transaction.request, transaction.response with
  | some request, some response =>
    if decoder.domainObject request.message = some objectId then
      some (decoder.result response.message)
    else none
  | _, _ => none

/-- An observation of the object of some kind. -/
def observedAs (kind : ObservationKind → Bool) (observation : Observation) : Bool :=
  kind observation.kind && decide (observation.objectId = objectId)

variable {decoder objectId} {paired : PairedRecords Message}

theorem countOf_observed {kind : ObservationKind → Bool} {p : TimelineRecord Message → Bool}
    {q : TimelineTransaction Message → Bool} (inv : paired.Inv)
    (hrecord : ∀ record, (recordObservations decoder record).countP (observedAs objectId kind) =
      if p record then 1 else 0)
    (htransaction : ∀ transaction, (transactionObservations decoder transaction).countP
      (observedAs objectId kind) = if q transaction then 1 else 0) :
    countOf kind (ofObject objectId (paired.observations decoder)) =
      paired.records.countP p + paired.transactions.countP q := by
  unfold countOf ofObject
  rw [List.countP_filter, PairedRecords.observations]
  refine ((updates_perm inv).countP_eq _).trans ?_
  rw [List.countP_append]
  exact congrArg₂ (· + ·) (countP_flatMap_single hrecord _) (countP_flatMap_single htransaction _)

theorem countP_recordObservations (kind : ObservationKind → Bool)
    (hother : kind .other = false) (record : TimelineRecord Message) :
    (recordObservations decoder record).countP (observedAs objectId kind) =
      if (closesObject decoder objectId record && kind .close ||
        requestsObject decoder objectId record &&
          kind (.request (decoder.commandId record.message))) then 1 else 0 := by
  unfold recordObservations closesObject requestsObject observedAs
  cases hobject : decoder.domainObject record.message with
  | none => simp
  | some id =>
    by_cases hmode : decoder.mode record.message = .request
    · by_cases hclose : decoder.operation record.message = some "close-domain-object"
      · simp [hmode, hclose, List.countP_singleton, and_comm]
      · simp [hmode, hclose, List.countP_singleton, and_comm]
    · simp [hmode, hother]

theorem countP_transactionObservations (kind : ObservationKind → Bool)
    (hcreated : kind .created = false) (transaction : TimelineTransaction Message) :
    (transactionObservations decoder transaction).countP (observedAs objectId kind) =
      if ((answerOf decoder objectId transaction).any fun result => kind (.response result))
        then 1 else 0 := by
  unfold transactionObservations answerOf observedAs
  cases hrequest : transaction.request with
  | none => simp
  | some request =>
    cases hresponse : transaction.response with
    | none => simp
    | some response =>
      have hnone : ∀ created : Option Nat,
          ((created.toList.map fun id => ({ objectId := id, kind := .created
                                            tick := response.event.tick } : Observation)).countP
            fun observation => kind observation.kind && decide (observation.objectId = objectId)) =
              0 := by
        intro created
        cases created <;> simp [hcreated]
      simp only [List.countP_append, hnone, Nat.zero_add]
      obtain hobject | ⟨id, hobject⟩ :=
        Option.eq_none_or_eq_some (decoder.domainObject request.message)
      · simp [hobject]
      · by_cases hid : id = objectId
        · simp [hobject, hid, List.countP_singleton]
        · simp [hobject, hid]

theorem countP_transactionObservations_created (transaction : TimelineTransaction Message) :
    (transactionObservations decoder transaction).countP (observedAs objectId (· = .created)) =
      if createsObject decoder objectId transaction then 1 else 0 := by
  unfold transactionObservations createsObject observedAs
  cases hrequest : transaction.request with
  | none => simp
  | some request =>
    cases hresponse : transaction.response with
    | none => simp
    | some response =>
      have hnone : ∀ object : Option Nat,
          ((object.toList.map fun id => ({
              objectId := id, kind := .response (decoder.result response.message)
              tick := response.event.tick } : Observation)).countP fun observation =>
            decide (observation.kind = .created) && decide (observation.objectId = objectId)) =
              0 := by
        intro object
        cases object <;> simp
      simp only [List.countP_append, hnone, Nat.add_zero]
      obtain hcreated | ⟨id, hcreated⟩ := Option.eq_none_or_eq_some
        (decoder.createdObject request.message response.message)
      · simp [hcreated]
      · by_cases hid : id = objectId
        · simp [hcreated, hid]
        · simp [hcreated, hid]

/-- A kind that only records are observed as. -/
theorem countOf_records {kind : ObservationKind → Bool} (inv : paired.Inv)
    (hother : kind .other = false) (hcreated : kind .created = false)
    (hresponse : ∀ result, kind (.response result) = false) :
    countOf kind (ofObject objectId (paired.observations decoder)) =
      paired.records.countP fun record =>
        closesObject decoder objectId record && kind .close ||
          requestsObject decoder objectId record &&
            kind (.request (decoder.commandId record.message)) := by
  have hnone : ∀ transaction, (transactionObservations decoder transaction).countP
      (observedAs objectId kind) = if false then 1 else 0 := by
    intro transaction
    rw [countP_transactionObservations kind hcreated]
    simp [hresponse]
  rw [countOf_observed inv (countP_recordObservations kind hother) hnone, List.countP_false]
  rfl

/-- A kind that only responses to requests are observed as. -/
theorem countOf_responses {kind : ObservationKind → Bool} (inv : paired.Inv)
    (hother : kind .other = false) (hcreated : kind .created = false) (hclose : kind .close = false)
    (hrequest : ∀ commandId, kind (.request commandId) = false) :
    countOf kind (ofObject objectId (paired.observations decoder)) =
      paired.transactions.countP fun transaction =>
        (answerOf decoder objectId transaction).any fun result => kind (.response result) := by
  have hnone : ∀ record, (recordObservations decoder record).countP
      (observedAs objectId kind) = if false then 1 else 0 := by
    intro record
    rw [countP_recordObservations kind hother]
    simp [hclose, hrequest]
  rw [countOf_observed inv hnone (countP_transactionObservations kind hcreated), List.countP_false]
  exact Nat.zero_add _

theorem countOf_created (inv : paired.Inv) :
    countOf (· = .created) (ofObject objectId (paired.observations decoder)) =
      paired.transactions.countP (createsObject decoder objectId) := by
  have hnone : ∀ record, (recordObservations decoder record).countP
      (observedAs objectId (· = .created)) = if false then 1 else 0 := by
    intro record
    rw [countP_recordObservations _ rfl]
    simp
  rw [countOf_observed inv hnone countP_transactionObservations_created, List.countP_false]
  exact Nat.zero_add _

end Counts

/-! ## The documents -/

/-- The events are recorded in the order of their ticks. -/
structure SessionDocument.InRecordedOrder (document : SessionDocument) : Prop where
  ticked : ∀ event ∈ document.events, event.tick.isSome = true
  ordered : document.events.Pairwise fun a b => a.tick.getD 0 ≤ b.tick.getD 0

section Documents

variable {Message : Type} (decoder : MessageDecoder Message) (snapshotIndex : Option Nat)

def documentObservations (document : SessionDocument) : List Observation :=
  ((pairRecords decoder snapshotIndex [document]).map
    (PairedRecords.observations decoder)).getD []

/-- The observations of an object in each of the documents. -/
def objectParts (documents : List SessionDocument) (objectId : Nat) : List (List Observation) :=
  documents.map fun document =>
    ofObject objectId (documentObservations decoder snapshotIndex document)

variable {decoder snapshotIndex}

theorem observations_documents {documents : List SessionDocument}
    {paired : PairedRecords Message}
    (hdistinct : (documents.map SessionDocument.sessionId).Nodup)
    (h : pairRecords decoder snapshotIndex documents = some paired) :
    paired.observations decoder =
      documents.flatMap (documentObservations decoder snapshotIndex) := by
  induction documents generalizing paired with
  | nil =>
    cases h
    rfl
  | cons document documents ih =>
    rw [List.map_cons] at hdistinct
    obtain ⟨hfresh, hdistinct⟩ := List.nodup_cons.1 hdistinct
    rw [← List.singleton_append] at h
    obtain ⟨first, rest, hfirst, hrest⟩ := pairRecords_parts h
    have happend := @pairRecords_append Message decoder snapshotIndex [document] documents _ _ (by
      intro left hleft right hright hsame
      rw [List.mem_singleton.1 hleft] at hsame
      exact hfresh (hsame ▸ List.mem_map_of_mem hright)) hfirst hrest
    obtain rfl : first.append rest = paired := Option.some.inj (happend.symm.trans h)
    have hobservations : (first.append rest).observations decoder =
        first.observations decoder ++ rest.observations decoder :=
      PairedRecords.append_updates (pairRecords_inv hfirst) rest
    have hsingle : documentObservations decoder snapshotIndex document =
        first.observations decoder := by
      unfold documentObservations
      rw [hfirst]
      rfl
    rw [hobservations, List.flatMap_cons, hsingle, ih hdistinct hrest]

/-- The records of the snapshots are in the order of their events. -/
theorem reduceOption_ordered {document : SessionDocument}
    {snapshots : List (TimelineEvent × Nat)}
    {decoded : List (Option (TimelineRecord Message))}
    (h : (snapshots.mapM fun (event, index) => decodeSnapshot decoder document event index) =
      some decoded)
    (hordered : snapshots.Pairwise fun a b => a.1.tick.getD 0 ≤ b.1.tick.getD 0) :
    decoded.reduceOption.Pairwise fun a b => a.event.tick.getD 0 ≤ b.event.tick.getD 0 := by
  have hevent : ∀ {snapshot : TimelineEvent × Nat} {record : TimelineRecord Message},
      decodeSnapshot decoder document snapshot.1 snapshot.2 = some (some record) →
        record.event = snapshot.1 := by
    intro snapshot record hdecode
    obtain ⟨-, hdecode⟩ := Option.ite_none_right_eq_some.1 hdecode
    obtain ⟨message, _, rfl⟩ := Option.map_eq_some_iff.1 (Option.some.inj hdecode)
    rfl
  induction snapshots generalizing decoded with
  | nil =>
    cases h
    exact List.Pairwise.nil
  | cons snapshot snapshots ih =>
    obtain ⟨hle, hordered⟩ := List.pairwise_cons.1 hordered
    rw [List.mapM_cons] at h
    obtain ⟨first, hfirst, h⟩ := Option.bind_eq_some_iff.1 h
    obtain ⟨rest, hrest, h⟩ := Option.bind_eq_some_iff.1 h
    cases h
    cases first with
    | none =>
      rw [List.reduceOption_cons_of_none]
      exact ih hrest hordered
    | some record =>
      rw [List.reduceOption_cons_of_some, List.pairwise_cons]
      refine ⟨?_, ih hrest hordered⟩
      intro other hother
      obtain ⟨origin, horigin, hdecode⟩ :=
        exists_of_mem_mapM hrest (List.reduceOption_mem_iff.1 hother)
      rw [hevent hfirst, hevent hdecode]
      exact hle origin horigin

theorem pairRecords_ordered {document : SessionDocument} {paired : PairedRecords Message}
    (h : pairRecords decoder snapshotIndex [document] = some paired)
    (hrecorded : document.InRecordedOrder) :
    paired.records.Pairwise fun a b => a.event.tick.getD 0 ≤ b.event.tick.getD 0 := by
  obtain ⟨decoded, hdecoded, rfl⟩ := Option.map_eq_some_iff.1 h
  rw [List.mapM_cons] at hdecoded
  obtain ⟨entry, hentry, hdecoded⟩ := Option.bind_eq_some_iff.1 hdecoded
  cases hdecoded
  obtain ⟨snapshots, hsnapshots, rfl⟩ := Option.map_eq_some_iff.1 hentry
  have hrecords : ([(document, snapshots)].flatMap fun entry => entry.2.reduceOption) =
      snapshots.reduceOption := List.flatMap_singleton _ _
  refine (congrArg _ hrecords).mpr (reduceOption_ordered hsnapshots ?_)
  rw [List.pairwise_flatMap]
  constructor
  · intro event _
    rw [List.pairwise_map]
    exact List.pairwise_of_forall fun _ _ => le_rfl
  · refine hrecorded.ordered.imp ?_
    intro event event' hle a ha b hb
    obtain ⟨_, _, rfl⟩ := List.mem_map.1 ha
    obtain ⟨_, _, rfl⟩ := List.mem_map.1 hb
    exact hle

/-- An observation has the tick of the record at which it is made. -/
theorem updatesAt_tick {paired : PairedRecords Message} {index : Nat} {observation : Observation}
    (h : observation ∈ paired.updatesAt (recordObservations decoder)
      (transactionObservations decoder) index) :
    ∃ record, paired.records[index]? = some record ∧ observation.tick = record.event.tick := by
  rcases List.mem_append.1 h with h | h
  · obtain ⟨record, hrecord, h⟩ := List.mem_flatMap.1 h
    obtain ⟨objectId, _, rfl⟩ := List.mem_map.1 h
    exact ⟨record, Option.mem_toList.1 hrecord, rfl⟩
  · obtain ⟨indices, hindices, h⟩ := List.mem_flatMap.1 h
    have hindex : indices.response = index := of_decide_eq_true (List.mem_filter.1 hindices).2
    unfold transactionObservations PairedRecords.transaction at h
    simp only [hindex] at h
    cases hrequest : paired.records[indices.request]? with
    | none => simp [hrequest] at h
    | some request =>
      cases hresponse : paired.records[index]? with
      | none => simp [hrequest, hresponse] at h
      | some response =>
        simp only [hrequest, hresponse] at h
        refine ⟨response, rfl, ?_⟩
        rcases List.mem_append.1 h with h | h
        · obtain ⟨objectId, _, rfl⟩ := List.mem_map.1 h
          rfl
        · obtain ⟨objectId, _, rfl⟩ := List.mem_map.1 h
          rfl

theorem documentObservations_ordered {document : SessionDocument}
    (hrecorded : document.InRecordedOrder) :
    TickOrdered (documentObservations decoder snapshotIndex document) := by
  unfold documentObservations
  cases h : pairRecords decoder snapshotIndex [document] with
  | none => exact ⟨by simp, List.Pairwise.nil⟩
  | some paired =>
    have hordered := pairRecords_ordered h hrecorded
    constructor
    · intro observation hmem
      obtain ⟨index, _, hmem⟩ := List.mem_flatMap.1 hmem
      obtain ⟨record, hrecord, htick⟩ := updatesAt_tick hmem
      rw [htick]
      exact hrecorded.ticked _ (pairRecords_origin h (List.mem_of_getElem? hrecord)).2
    · refine List.pairwise_flatMap.2 ⟨?_, ?_⟩
      · intro index _
        refine List.pairwise_of_forall_mem_list ?_
        intro a ha b hb
        obtain ⟨record, hrecord, ha⟩ := updatesAt_tick ha
        obtain ⟨record', hrecord', hb⟩ := updatesAt_tick hb
        obtain rfl := Option.some.inj (hrecord.symm.trans hrecord')
        rw [ha, hb]
      · refine List.pairwise_lt_range.imp ?_
        intro index index' hlt a ha b hb
        obtain ⟨record, hrecord, ha⟩ := updatesAt_tick ha
        obtain ⟨record', hrecord', hb⟩ := updatesAt_tick hb
        obtain ⟨hindex, hrecord⟩ := List.getElem?_eq_some_iff.1 hrecord
        obtain ⟨hindex', hrecord'⟩ := List.getElem?_eq_some_iff.1 hrecord'
        rw [ha, hb, ← hrecord, ← hrecord']
        exact List.pairwise_iff_getElem.1 hordered index index' hindex hindex' hlt

theorem objectParts_ordered {documents : List SessionDocument}
    (hrecorded : ∀ document ∈ documents, document.InRecordedOrder) (objectId : Nat) :
    ∀ part ∈ objectParts decoder snapshotIndex documents objectId, TickOrdered part := by
  intro part hpart
  obtain ⟨document, hdocument, rfl⟩ := List.mem_map.1 hpart
  have hordered := @documentObservations_ordered Message decoder snapshotIndex document
    (hrecorded document hdocument)
  constructor
  · intro observation hmem
    exact hordered.ticked observation (List.mem_filter.1 hmem).1
  · exact hordered.ordered.filter _

theorem ofObject_documents (documents : List SessionDocument) (objectId : Nat) :
    ofObject objectId (documents.flatMap (documentObservations decoder snapshotIndex)) =
      (objectParts decoder snapshotIndex documents objectId).flatten := by
  unfold ofObject objectParts
  rw [List.filter_flatMap, List.flatMap_def]
  rfl

end Documents

/-! ## The reported objects -/

/-- An object is reported for these. -/
def ObservationKind.counted (kind : ObservationKind) : Bool :=
  kind.isRequest || decide (kind = .close) || decide (kind = .created)

theorem SummaryOf.reported_iff {observations : List Observation} {object : DomainObject}
    (spec : SummaryOf observations object) :
    object.reported = true ↔ ∃ observation ∈ observations, observation.kind.counted = true := by
  have hpos : ∀ kind : ObservationKind → Bool, countOf kind observations ≠ 0 ↔
      ∃ observation ∈ observations, kind observation.kind = true := by
    intro kind
    rw [← Nat.pos_iff_ne_zero]
    exact List.countP_pos_iff
  unfold DomainObject.reported
  rw [Bool.or_eq_true, Bool.or_eq_true, bne_iff_ne, bne_iff_ne, bne_iff_ne, spec.closeCount,
    spec.createCount, spec.requestCount, hpos, hpos, hpos]
  constructor
  · rintro ((⟨observation, hmem, hkind⟩ | ⟨observation, hmem, hkind⟩) | ⟨observation, hmem, hkind⟩)
    · exact ⟨observation, hmem, by simp [ObservationKind.counted, of_decide_eq_true hkind]⟩
    · exact ⟨observation, hmem, by simp [ObservationKind.counted, of_decide_eq_true hkind]⟩
    · exact ⟨observation, hmem, by simp [ObservationKind.counted, hkind]⟩
  · rintro ⟨observation, hmem, hkind⟩
    unfold ObservationKind.counted at hkind
    rw [Bool.or_eq_true, Bool.or_eq_true] at hkind
    rcases hkind with (hkind | hkind) | hkind
    · exact Or.inr ⟨observation, hmem, hkind⟩
    · exact Or.inl (Or.inl ⟨observation, hmem, hkind⟩)
    · exact Or.inl (Or.inr ⟨observation, hmem, hkind⟩)

section Reported

variable {observations observations' : List Observation}

theorem mem_domainObjectsOut {object : DomainObject} :
    object ∈ domainObjectsOut observations ↔
      summary (ofObject object.objectId observations) = some object ∧ object.reported = true := by
  unfold domainObjectsOut
  rw [(StableSort.sort_perm _ _).mem_iff, List.mem_filter, and_congr_left_iff]
  intro _
  refine Iff.trans ?_ Option.mem_toList
  rw [← atKey_run, StableSort.atKey, List.mem_filter]
  simp

theorem domainObjectsOut_congr
    (h : ∀ objectId, (summary (ofObject objectId observations)).filter DomainObject.reported =
      (summary (ofObject objectId observations')).filter DomainObject.reported) :
    domainObjectsOut observations = domainObjectsOut observations' := by
  have hkey : ∀ (objectId : Nat) (observations : List Observation),
      StableSort.atKey DomainObject.objectId objectId
        ((Runs.run observe [] observations).filter DomainObject.reported) =
          ((summary (ofObject objectId observations)).filter DomainObject.reported).toList := by
    intro objectId observations
    rw [StableSort.atKey, List.filter_comm, ← StableSort.atKey, atKey_run]
    cases summary (ofObject objectId observations) with
    | none => rfl
    | some object => cases hreported : object.reported <;> simp [Option.filter, hreported]
  unfold domainObjectsOut
  refine StableSort.sort_eq_of_atKey_eq _ ?_
  intro objectId
  rw [hkey, hkey, h]

end Reported

/-! ## The law of the summary -/

section Law

variable {Message : Type}

/-- What the summary says of one object. -/
structure DomainObjectLaw (decoder : MessageDecoder Message) (report : IpcReport Message)
    (observed : List Observation) (object : DomainObject) : Prop where
  firstTick : ∃ first, object.firstTick = some first ∧ IsLeast (ticksOf observed) first
  lastTick : ∃ last, object.lastTick = some last ∧ IsGreatest (ticksOf observed) last
  createdTick : object.createCount ≠ 0 → ∃ observation ∈ observed,
    observation.kind = .created ∧ observation.tick = object.createdTick
  closedTick : object.closeCount ≠ 0 → ∃ observation ∈ observed,
    observation.kind = .close ∧ observation.tick = object.closedTick
  createCount : object.createCount =
    report.transactions.countP (createsObject decoder object.objectId)
  closeCount : object.closeCount = report.records.countP (closesObject decoder object.objectId)
  requestCount : object.requestCount =
    report.records.countP (requestsObject decoder object.objectId)
  responseCount : object.responseCount =
    report.transactions.countP fun transaction =>
      (answerOf decoder object.objectId transaction).isSome
  commands : ∀ id, object.commands id = report.records.countP fun record =>
    requestsObject decoder object.objectId record && decoder.commandId record.message = some id
  results : ∀ result, object.results result = report.transactions.countP fun transaction =>
    answerOf decoder object.objectId transaction = some result

/-- The objects that are reported do not depend on the order of the documents, they are those
    created, closed or sent a request to, and the law holds of each. -/
structure DomainObjectsSummarised (decoder : MessageDecoder Message) (snapshotIndex : Option Nat)
    (documents : List SessionDocument) (report : IpcReport Message) : Prop where
  order : ∀ documents', documents.Perm documents' →
    (decodeDocuments decoder snapshotIndex documents').map IpcReport.domainObjects =
      some report.domainObjects
  reported : ∀ objectId, (∃ object ∈ report.domainObjects, object.objectId = objectId) ↔
    ∃ observation ∈ (objectParts decoder snapshotIndex documents objectId).flatten,
      observation.kind.counted = true
  objects : ∀ object ∈ report.domainObjects, DomainObjectLaw decoder report
    (objectParts decoder snapshotIndex documents object.objectId).flatten object

variable {decoder : MessageDecoder Message} {snapshotIndex : Option Nat}
  {documents : List SessionDocument} {report : IpcReport Message}

theorem domainObjects_eq (hdistinct : (documents.map SessionDocument.sessionId).Nodup)
    (h : decodeDocuments decoder snapshotIndex documents = some report) :
    report.domainObjects = domainObjectsOut
      (documents.flatMap (documentObservations decoder snapshotIndex)) := by
  obtain ⟨paired, hpaired, h⟩ := Option.bind_eq_some_iff.1 h
  obtain ⟨-, h⟩ := Option.ite_none_right_eq_some.1 h
  rw [← observations_documents hdistinct hpaired, ← Option.some.inj h]

theorem mem_domainObjects_iff (hdistinct : (documents.map SessionDocument.sessionId).Nodup)
    (h : decodeDocuments decoder snapshotIndex documents = some report) {object : DomainObject} :
    object ∈ report.domainObjects ↔
      summary (objectParts decoder snapshotIndex documents object.objectId).flatten =
        some object ∧ object.reported = true := by
  rw [domainObjects_eq hdistinct h, mem_domainObjectsOut, ofObject_documents]

theorem objectId_of_mem {objectId : Nat} {observation : Observation}
    (h : observation ∈ (objectParts decoder snapshotIndex documents objectId).flatten) :
    observation.objectId = objectId := by
  rw [← ofObject_documents] at h
  exact of_decide_eq_true (List.mem_filter.1 h).2

theorem counted_summary {objectId : Nat}
    (h : ∃ observation ∈ (objectParts decoder snapshotIndex documents objectId).flatten,
      observation.kind.counted = true) :
    ∃ object,
      summary (objectParts decoder snapshotIndex documents objectId).flatten = some object ∧
      SummaryOf (objectParts decoder snapshotIndex documents objectId).flatten object ∧
      object.objectId = objectId ∧ object.reported = true := by
  obtain ⟨observation, hmem, hcounted⟩ := h
  obtain ⟨object, hobject, spec⟩ := summary_spec (List.ne_nil_of_mem hmem)
  refine ⟨object, hobject, spec, ?_, spec.reported_iff.2 ⟨observation, hmem, hcounted⟩⟩
  obtain ⟨first, hfirst, hid⟩ := Option.map_eq_some_iff.1 spec.objectId
  rw [← hid]
  exact objectId_of_mem (List.mem_of_mem_head? hfirst)

theorem object_reported_iff (hdistinct : (documents.map SessionDocument.sessionId).Nodup)
    (h : decodeDocuments decoder snapshotIndex documents = some report) (objectId : Nat) :
    (∃ object ∈ report.domainObjects, object.objectId = objectId) ↔
      ∃ observation ∈ (objectParts decoder snapshotIndex documents objectId).flatten,
        observation.kind.counted = true := by
  constructor
  · rintro ⟨object, hmem, rfl⟩
    obtain ⟨hsummary, hreported⟩ := (mem_domainObjects_iff hdistinct h).1 hmem
    have hne : (objectParts decoder snapshotIndex documents object.objectId).flatten ≠ [] := by
      intro hnil
      rw [hnil] at hsummary
      cases hsummary
    obtain ⟨other, hother, spec⟩ := summary_spec hne
    obtain rfl := Option.some.inj (hsummary.symm.trans hother)
    exact spec.reported_iff.1 hreported
  · intro hcounted
    obtain ⟨object, hsummary, _, rfl, hreported⟩ := counted_summary hcounted
    exact ⟨object, (mem_domainObjects_iff hdistinct h).2 ⟨hsummary, hreported⟩, rfl⟩

/-- What is reported of an object does not depend on the order of settled documents. -/
theorem filter_summary_perm {documents' : List SessionDocument}
    (hsettled : ∀ objectId,
      (∃ observation ∈ (objectParts decoder snapshotIndex documents objectId).flatten,
        observation.kind.counted = true) →
          ObjectSettled (objectParts decoder snapshotIndex documents objectId))
    (objectId : Nat) (hperm : documents.Perm documents') :
    (summary (objectParts decoder snapshotIndex documents' objectId).flatten).filter
        DomainObject.reported =
      (summary (objectParts decoder snapshotIndex documents objectId).flatten).filter
        DomainObject.reported := by
  have hparts : (objectParts decoder snapshotIndex documents objectId).Perm
      (objectParts decoder snapshotIndex documents' objectId) := hperm.map _
  by_cases hcounted : ∃ observation ∈
      (objectParts decoder snapshotIndex documents objectId).flatten,
        observation.kind.counted = true
  · rw [(hsettled objectId hcounted).summary_perm (fun _ => objectId_of_mem) hparts]
  · have hnone : ∀ observations : List Observation,
        (¬ ∃ observation ∈ observations, observation.kind.counted = true) →
          (summary observations).filter DomainObject.reported = none := by
      intro observations huncounted
      cases hsummary : summary observations with
      | none => rfl
      | some object =>
        have hne : observations ≠ [] := by
          rintro rfl
          cases hsummary
        obtain ⟨other, hother, spec⟩ := summary_spec hne
        obtain rfl := Option.some.inj (hsummary.symm.trans hother)
        rw [Option.filter_eq_none_iff]
        intro object' hobject' hreported
        obtain rfl := Option.some.inj hobject'
        exact huncounted (spec.reported_iff.1 hreported)
    rw [hnone _ hcounted, hnone]
    rintro ⟨observation, hmem, hkind⟩
    exact hcounted ⟨observation, hparts.flatten.mem_iff.2 hmem, hkind⟩

theorem decodeDocuments_perm {documents' : List SessionDocument}
    (hdistinct : (documents.map SessionDocument.sessionId).Nodup)
    (h : decodeDocuments decoder snapshotIndex documents = some report)
    (hperm : documents.Perm documents') :
    ∃ report', decodeDocuments decoder snapshotIndex documents' = some report' := by
  obtain ⟨reports, hreports⟩ := decodeDocuments_singles hdistinct h
  obtain ⟨reports', hreports', _⟩ := mapM_perm hperm hreports
  obtain ⟨report', hreport', _⟩ :=
    decodeDocuments_together ((hperm.map SessionDocument.sessionId).nodup_iff.1 hdistinct) hreports'
  exact ⟨report', hreport'⟩

/-- The counts of a record are those of its records and transactions. -/
theorem counts_of_report {object : DomainObject}
    (hdistinct : (documents.map SessionDocument.sessionId).Nodup)
    (h : decodeDocuments decoder snapshotIndex documents = some report)
    (spec : SummaryOf (objectParts decoder snapshotIndex documents object.objectId).flatten object)
    (hleast : ∃ first, object.firstTick = some first ∧
      IsLeast (ticksOf (objectParts decoder snapshotIndex documents object.objectId).flatten) first)
    (hgreatest : ∃ last, object.lastTick = some last ∧
      IsGreatest (ticksOf (objectParts decoder snapshotIndex documents object.objectId).flatten)
        last) :
    DomainObjectLaw decoder report
      (objectParts decoder snapshotIndex documents object.objectId).flatten object := by
  have hdocuments := @ofObject_documents Message decoder snapshotIndex documents object.objectId
  obtain ⟨paired, hpaired, h⟩ := Option.bind_eq_some_iff.1 h
  obtain ⟨-, h⟩ := Option.ite_none_right_eq_some.1 h
  have hreport := Option.some.inj h
  have inv := pairRecords_inv hpaired
  rw [← observations_documents hdistinct hpaired] at hdocuments
  have hrecords : report.records = paired.records := by rw [← hreport]
  have htransactions : report.transactions = paired.transactions := by rw [← hreport]
  exact {
    firstTick := hleast
    lastTick := hgreatest
    createdTick := by
      intro hcount
      rw [spec.createCount] at hcount
      obtain ⟨observation, hmem, hkind, hlast⟩ := exists_lastTickOf hcount
      refine ⟨observation, hmem, of_decide_eq_true hkind, ?_⟩
      rw [← spec.createdTick, hlast]
      rfl
    closedTick := by
      intro hcount
      rw [spec.closeCount] at hcount
      obtain ⟨observation, hmem, hkind, hlast⟩ := exists_lastTickOf hcount
      refine ⟨observation, hmem, of_decide_eq_true hkind, ?_⟩
      rw [← spec.closedTick, hlast]
      rfl
    createCount := by
      rw [spec.createCount, ← hdocuments, htransactions, countOf_created inv]
    closeCount := by
      rw [spec.closeCount, ← hdocuments, hrecords, countOf_records inv rfl rfl fun _ => rfl]
      simp
    requestCount := by
      rw [spec.requestCount, ← hdocuments, hrecords, countOf_records inv rfl rfl fun _ => rfl]
      simp [ObservationKind.isRequest]
    responseCount := by
      rw [spec.responseCount, ← hdocuments, htransactions,
        countOf_responses inv rfl rfl rfl fun _ => rfl]
      simp [ObservationKind.isResponse, Option.any_true]
    commands := by
      intro id
      rw [spec.commands, ← hdocuments, hrecords, countOf_records inv rfl rfl fun _ => rfl]
      simp
    results := by
      intro result
      rw [spec.results, ← hdocuments, htransactions,
        countOf_responses inv rfl rfl rfl fun _ => rfl]
      refine List.countP_congr fun transaction _ => ?_
      cases answerOf decoder object.objectId transaction <;> simp }

/-- Exactly when the summary keeps its promise: the documents agree on every object that was
    created, closed or sent a request to. -/
theorem domain_objects_summarised_iff
    (hdistinct : (documents.map SessionDocument.sessionId).Nodup)
    (hrecorded : ∀ document ∈ documents, document.InRecordedOrder)
    (hdecoded : decodeDocuments decoder snapshotIndex documents = some report) :
    DomainObjectsSummarised decoder snapshotIndex documents report ↔
      ∀ objectId, (∃ observation ∈ (objectParts decoder snapshotIndex documents objectId).flatten,
        observation.kind.counted = true) →
          ObjectSettled (objectParts decoder snapshotIndex documents objectId) := by
  have hordered := @objectParts_ordered Message decoder snapshotIndex documents hrecorded
  constructor
  · intro law objectId hcounted
    obtain ⟨object, hsummary, _, rfl, hreported⟩ := counted_summary hcounted
    have hobject := law.objects object
      ((mem_domainObjects_iff hdistinct hdecoded).2 ⟨hsummary, hreported⟩)
    obtain ⟨first, hfirst, hleast⟩ := hobject.firstTick
    obtain ⟨last, hlast, hgreatest⟩ := hobject.lastTick
    refine settled_of_order (hordered _) ?_ hfirst hleast hlast hgreatest
    intro documents' hperm
    obtain ⟨report', hreport', hsame⟩ := Option.map_eq_some_iff.1 (law.order documents' hperm)
    have hdistinct' : (documents'.map SessionDocument.sessionId).Nodup :=
      (hperm.map SessionDocument.sessionId).nodup_iff.1 hdistinct
    have hmem : object ∈ report'.domainObjects := by
      rw [hsame]
      exact (mem_domainObjects_iff hdistinct hdecoded).2 ⟨hsummary, hreported⟩
    exact ((mem_domainObjects_iff hdistinct' hreport').1 hmem).1
  · intro hsettled
    exact {
      order := by
        intro documents' hperm
        obtain ⟨report', hreport'⟩ := decodeDocuments_perm hdistinct hdecoded hperm
        have hdistinct' : (documents'.map SessionDocument.sessionId).Nodup :=
          (hperm.map SessionDocument.sessionId).nodup_iff.1 hdistinct
        rw [hreport', Option.map_some, domainObjects_eq hdistinct hdecoded,
          domainObjects_eq hdistinct' hreport']
        refine congrArg some (domainObjectsOut_congr ?_)
        intro objectId
        rw [ofObject_documents, ofObject_documents]
        exact filter_summary_perm hsettled objectId hperm
      reported := object_reported_iff hdistinct hdecoded
      objects := by
        intro object hmem
        have hcounted :=
          (object_reported_iff hdistinct hdecoded object.objectId).1 ⟨object, hmem, rfl⟩
        have settled := hsettled object.objectId hcounted
        obtain ⟨other, hother, spec, _, _⟩ := counted_summary hcounted
        have hsummary := ((mem_domainObjects_iff hdistinct hdecoded).1 hmem).1
        obtain rfl := Option.some.inj (hsummary.symm.trans hother)
        exact counts_of_report hdistinct hdecoded spec (spec.isLeast (hordered _) settled)
          (spec.isGreatest (hordered _) settled) }

end Law

/-- A decoder that reads every snapshot as a request to object 1. -/
def objectDecoder : MessageDecoder String where
  decode := some
  mode _ := .request
  operation _ := none
  domainObject _ := some 1
  commandId _ := none
  result _ := "0x0"
  createdObject _ _ := none
  value _ _ _ := none

/-- A document of one request at each of some ticks. -/
def requestDocument (sessionId : String) (ticks : List Int) : SessionDocument where
  sessionId
  bootEpochUnixMs := none
  pairs := []
  targets := []
  events := ticks.map fun tick => {
    seqText := "1", seq := some 1, tick := some tick, thread := none, target := "0"
    snapshots := 1, data := fun _ => some "00" }

theorem requestDocument_inRecordedOrder {sessionId : String} {ticks : List Int}
    (h : ticks.Pairwise (· ≤ ·)) : (requestDocument sessionId ticks).InRecordedOrder where
  ticked := by
    intro event hmem
    obtain ⟨tick, _, rfl⟩ := List.mem_map.1 hmem
    rfl
  ordered := List.pairwise_map.2 h

/-- Two files with the same first and last tick. -/
theorem domain_objects_summarised_requests : ∃ report, DomainObjectsSummarised objectDecoder none
    [requestDocument "a" [3, 5], requestDocument "b" [3, 4, 5]] report := by
  refine ⟨_, (domain_objects_summarised_iff (by decide) ?_ rfl).2 ?_⟩
  · intro document hmem
    rcases List.mem_cons.1 hmem with rfl | hmem
    · exact requestDocument_inRecordedOrder (by decide)
    · obtain rfl := List.mem_singleton.1 hmem
      exact requestDocument_inRecordedOrder (by decide)
  · rintro objectId ⟨observation, hmem, -⟩
    have hobject : observation.objectId = objectId := objectId_of_mem hmem
    obtain rfl : objectId = 1 := by
      rw [← ofObject_documents] at hmem
      have hmem := (List.mem_filter.1 hmem).1
      have hall : ∀ other ∈ [requestDocument "a" [3, 5], requestDocument "b" [3, 4, 5]].flatMap
          (documentObservations objectDecoder none), other.objectId = 1 := by decide
      rw [← hobject, hall observation hmem]
    have hparts : objectParts objectDecoder none
        [requestDocument "a" [3, 5], requestDocument "b" [3, 4, 5]] 1 =
          [[⟨1, .request none, some 3⟩, ⟨1, .request none, some 5⟩],
            [⟨1, .request none, some 3⟩, ⟨1, .request none, some 4⟩,
              ⟨1, .request none, some 5⟩]] := rfl
    rw [hparts]
    exact {
      first := by
        intro part hpart other hother a ha b hb
        fin_cases hpart <;> fin_cases hother <;> cases ha <;> cases hb <;> rfl
      last := by
        intro part hpart tick htick
        have htick : tick = some 5 := by fin_cases hpart <;> cases htick <;> rfl
        refine ⟨5, htick, ⟨_, List.mem_cons_of_mem _ List.mem_cons_self, rfl⟩, ?_⟩
        rintro tick ⟨other, hother, htick⟩
        fin_cases hother <;> cases htick <;> decide
      unused := by
        intro hunused
        cases hunused _ List.mem_cons_self
      created := by
        intro part hpart other _ tick htick
        fin_cases hpart <;> cases htick
      closed := by
        intro part hpart other _ tick htick
        fin_cases hpart <;> cases htick }

/-- Two files with one request each: the object's `firstTick` is that of the file given first. -/
theorem first_tick_depends_on_order :
    ([requestDocument "a" [5], requestDocument "b" [3]].map SessionDocument.sessionId).Nodup ∧
      (∀ document ∈ [requestDocument "a" [5], requestDocument "b" [3]],
        document.InRecordedOrder) ∧
      ∃ report, decodeDocuments objectDecoder none
          [requestDocument "a" [5], requestDocument "b" [3]] = some report ∧
        ¬ DomainObjectsSummarised objectDecoder none
          [requestDocument "a" [5], requestDocument "b" [3]] report := by
  have hdistinct :
      ([requestDocument "a" [5], requestDocument "b" [3]].map SessionDocument.sessionId).Nodup := by
    decide
  obtain ⟨report, hreport⟩ : ∃ report, decodeDocuments objectDecoder none
      [requestDocument "a" [5], requestDocument "b" [3]] = some report := ⟨_, rfl⟩
  refine ⟨hdistinct, ?_, report, hreport, fun law => ?_⟩
  · intro document hmem
    rcases List.mem_cons.1 hmem with rfl | hmem
    · exact requestDocument_inRecordedOrder (by decide)
    · obtain rfl := List.mem_singleton.1 hmem
      exact requestDocument_inRecordedOrder (by decide)
  · have hparts : (objectParts objectDecoder none
        [requestDocument "a" [5], requestDocument "b" [3]] 1).flatten =
          [⟨1, .request none, some 5⟩, ⟨1, .request none, some 3⟩] := rfl
    obtain ⟨object, hmem, hid⟩ := (law.reported 1).2 (by
      rw [hparts]
      exact ⟨_, List.mem_cons_self, rfl⟩)
    obtain ⟨hsummary, -⟩ := (mem_domainObjects_iff hdistinct hreport).1 hmem
    obtain ⟨first, hfirst, hleast⟩ := (law.objects object hmem).firstTick
    rw [hid, hparts] at hsummary hleast
    have hfive : first = 5 := by
      have h := congrArg (Option.map DomainObject.firstTick) hsummary
      rw [Option.map_some, hfirst] at h
      cases h
      rfl
    have hle := hleast.2 ⟨_, List.mem_cons_of_mem _ List.mem_cons_self, rfl⟩
    rw [hfive] at hle
    exact absurd hle (by decide)

end SysAgent
