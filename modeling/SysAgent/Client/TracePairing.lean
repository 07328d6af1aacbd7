import SysAgent.Client.TraceIpc

set_option autoImplicit false

/-! # The pairing law (`decode_trace_ipc` in `sysagent.py`)

The invariant says that the pending requests and the requests of the transactions are together all
request records, each once, and that a pending request with a key is listed under it. The converse
does not hold: a request that a response took by its thread stays listed in `pending_keyed`. -/

namespace SysAgent

section Lists

variable {α : Type}

/-- The first element with a property and the rest of the list. -/
theorem perm_cons_eraseP {p : α → Bool} {l rest : List α} {a : α}
    (h : l.filter p = a :: rest) : l.Perm (a :: l.eraseP p) := by
  obtain ⟨before, after, rfl, hbefore, ha, -⟩ := List.filter_eq_cons_iff.1 h
  have hbefore' : ∀ x ∈ before, p x ≠ true := fun x hx hp => hbefore x hx hp
  rw [List.eraseP_append_right _ hbefore', List.eraseP_cons_of_pos ha]
  exact List.perm_middle

theorem perm_cons_eraseP_of_mem {p : α → Bool} {l : List α} {a : α} (hmem : a ∈ l)
    (hp : p a = true) (honly : ∀ x ∈ l, p x = true → x = a) : l.Perm (a :: l.eraseP p) := by
  obtain ⟨found, before, after, -, hfound, hlist, herase⟩ := List.exists_of_eraseP hmem hp
  have hin : found ∈ l := by
    rw [hlist]
    exact List.mem_append_right _ List.mem_cons_self
  have hsame := honly found hin hfound
  rw [herase, ← hsame]
  exact hlist ▸ List.perm_middle

theorem getElem?_concat_of_some {l : List α} {i : Nat} {a b : α} (h : l[i]? = some a) :
    (l ++ [b])[i]? = some a := by
  have hlt : i < l.length := (List.getElem?_eq_some_iff.1 h).1
  rw [List.getElem?_append_left hlt]
  exact h

end Lists

namespace TraceIpc

variable {s : TraceIpc} {message : IpcMessage}

/-- The indices of the request records. -/
def requestIndices (records : List IpcMessage) : List Nat :=
  (List.range records.length).filter fun i =>
    records[i]?.any fun message => message.requestPair.isSome

theorem requestIndices_concat (records : List IpcMessage) (message : IpcMessage) :
    requestIndices (records ++ [message]) = requestIndices records ++
      if message.requestPair.isSome then [records.length] else [] := by
  unfold requestIndices
  rw [List.length_append, List.length_singleton, List.range_succ, List.filter_append]
  congr 1
  · apply List.filter_congr
    intro i hi
    rw [List.getElem?_append_left (List.mem_range.1 hi)]
  · rw [List.filter_singleton, List.getElem?_concat_length, Option.any_some]
    cases message.requestPair.isSome <;> rfl

theorem length_requestIndices (records : List IpcMessage) :
    (requestIndices records).length =
      records.countP fun message => message.requestPair.isSome := by
  induction records using List.reverseRecOn with
  | nil => rfl
  | append_singleton records message ih =>
    rw [requestIndices_concat, List.length_append, ih, List.countP_append, List.countP_singleton]
    split_ifs <;> rfl

theorem nodup_requestIndices (records : List IpcMessage) : (requestIndices records).Nodup :=
  List.nodup_range.filter _

/-- A pending request is a request record. -/
def Recorded (records : List IpcMessage) (request : PendingRequest) : Prop :=
  records[request.index]? = some request.message ∧
    request.message.requestPair = some request.pair

theorem Recorded.concat {records : List IpcMessage} {request : PendingRequest}
    (h : Recorded records request) (message : IpcMessage) :
    Recorded (records ++ [message]) request :=
  ⟨getElem?_concat_of_some h.1, h.2⟩

/-- A request record is determined by its index. -/
theorem Recorded.ext {records : List IpcMessage} {request other : PendingRequest}
    (h : Recorded records request) (h' : Recorded records other)
    (hindex : other.index = request.index) : other = request := by
  obtain ⟨index, message, pair⟩ := request
  obtain ⟨index', message', pair'⟩ := other
  simp only at hindex
  subst hindex
  have hmessage : message' = message := Option.some.inj (h'.1.symm.trans h.1)
  subst hmessage
  have hpair : pair' = pair := Option.some.inj (h'.2.symm.trans h.2)
  subst hpair
  rfl

theorem Recorded.mem_requestIndices {records : List IpcMessage} {request : PendingRequest}
    (h : Recorded records request) : request.index ∈ requestIndices records := by
  rw [requestIndices, List.mem_filter, List.mem_range]
  refine ⟨(List.getElem?_eq_some_iff.1 h.1).1, ?_⟩
  rw [h.1, Option.any_some, h.2]
  rfl

theorem Recorded.requestKey {records : List IpcMessage} {request : PendingRequest}
    (h : Recorded records request) : request.message.requestKey = request.correlationKey := by
  unfold IpcMessage.requestKey
  rw [h.2]
  rfl

structure PairingInv (s : TraceIpc) : Prop where
  law : PairedOnce s
  indices : (s.pendingRequests.map PendingRequest.index ++
    s.transactions.map IpcTransaction.request).Perm (requestIndices s.records)
  pendingRecorded : ∀ request ∈ s.pendingRequests, Recorded s.records request
  keyedRecorded : ∀ request ∈ s.pendingKeyed, Recorded s.records request
  keyedOnce : (s.pendingKeyed.map PendingRequest.index).Nodup
  listed : ∀ request ∈ s.pendingRequests, request.correlationKey.isSome →
    request ∈ s.pendingKeyed

theorem pairingInv_initial : PairingInv initial where
  law :=
    { requestsOnce := List.nodup_nil
      responsesOnce := List.nodup_nil
      matched := by simp [initial]
      requestCount := rfl
      responseCount := rfl
      ambiguous := by simp [initial] }
  indices := List.Perm.refl _
  pendingRecorded := by simp [initial]
  keyedRecorded := by simp [initial]
  keyedOnce := List.nodup_nil
  listed := by simp [initial]

/-- The first and the fourth part of the law follow from the indices. -/
theorem requestsOnce_of_indices
    (h : (s.pendingRequests.map PendingRequest.index ++
      s.transactions.map IpcTransaction.request).Perm (requestIndices s.records)) :
    (s.transactions.map IpcTransaction.request).Nodup ∧
      s.transactions.length + s.unmatchedRequests =
        s.records.countP fun message => message.requestPair.isSome := by
  constructor
  · exact ((h.nodup_iff.2 (nodup_requestIndices _)).of_append_right)
  · have hlength := h.length_eq
    rw [List.length_append, List.length_map, List.length_map, length_requestIndices] at hlength
    unfold unmatchedRequests
    omega

/-- An unmatched request record is pending. -/
theorem mem_pendingRequests (inv : PairingInv s) {request : PendingRequest}
    (hrecorded : Recorded s.records request) (hunmatched : s.Unmatched request) :
    request ∈ s.pendingRequests := by
  have hmem := inv.indices.symm.subset hrecorded.mem_requestIndices
  rcases List.mem_append.1 hmem with hpending | hmatched
  · obtain ⟨other, hother, hindex⟩ := List.mem_map.1 hpending
    rw [← hrecorded.ext (inv.pendingRecorded other hother) hindex]
    exact hother
  · obtain ⟨transaction, htransaction, hindex⟩ := List.mem_map.1 hmatched
    exact absurd hindex (hunmatched transaction htransaction)

theorem response_lt (law : PairedOnce s) {transaction : IpcTransaction}
    (h : transaction ∈ s.transactions) : transaction.response < s.records.length := by
  obtain ⟨request, response, -, hresponse, -⟩ := law.matched transaction h
  exact (List.getElem?_eq_some_iff.1 hresponse).1

/-! ## The outstanding requests -/

/-- Later records and later transactions do not change what was outstanding. -/
theorem outstanding_concat {records : List IpcMessage} {transactions : List IpcTransaction}
    (message : IpcMessage) (later : List IpcTransaction) (key : CorrelationKey) {response : Nat}
    (hresponse : response ≤ records.length)
    (hlater : ∀ transaction ∈ later, response ≤ transaction.response) :
    outstanding (records ++ [message]) (transactions ++ later) key response =
      outstanding records transactions key response := by
  unfold outstanding
  apply List.filter_congr
  intro i hi
  rw [List.getElem?_append_left ((List.mem_range.1 hi).trans_le hresponse), List.any_append]
  have hnone : (later.any fun earlier =>
      earlier.request == i && decide (earlier.response < response)) = false := by
    rw [List.any_eq_false]
    intro transaction htransaction
    have hle := hlater transaction htransaction
    simp only [Bool.and_eq_true, beq_iff_eq, decide_eq_true_eq, not_and, not_lt]
    exact fun _ => hle
  rw [hnone, Bool.or_false]

/-- What is outstanding for the next record is listed under its key. -/
theorem mem_outstanding_iff (inv : PairingInv s) (key : CorrelationKey) (i : Nat) :
    i ∈ outstanding s.records s.transactions key s.records.length ↔
      ∃ request ∈ s.keyedRequests key, s.Unmatched request ∧ request.index = i := by
  unfold outstanding
  rw [List.mem_filter, List.mem_range]
  simp only [Bool.and_eq_true, decide_eq_true_eq, Bool.not_eq_true', List.any_eq_false,
    beq_iff_eq, not_and, not_lt]
  constructor
  · rintro ⟨hlt, hkey, hnot⟩
    rw [List.getElem?_eq_getElem hlt, Option.bind_some] at hkey
    have hpair : ∃ pair, s.records[i].requestPair = some pair := by
      unfold IpcMessage.requestKey at hkey
      cases h : s.records[i].requestPair with
      | none =>
        rw [h] at hkey
        simp at hkey
      | some pair => exact ⟨pair, rfl⟩
    obtain ⟨pair, hpair⟩ := hpair
    have hrecorded : Recorded s.records ⟨i, s.records[i], pair⟩ :=
      ⟨List.getElem?_eq_getElem hlt, hpair⟩
    have hunmatched : s.Unmatched ⟨i, s.records[i], pair⟩ := by
      intro transaction htransaction hindex
      have hge := hnot transaction htransaction hindex
      have hresponse := response_lt inv.law htransaction
      omega
    rw [hrecorded.requestKey] at hkey
    refine ⟨_, List.mem_filter.2 ⟨?_, decide_eq_true hkey⟩, hunmatched, rfl⟩
    exact inv.listed _ (mem_pendingRequests inv hrecorded hunmatched) (by rw [hkey]; rfl)
  · rintro ⟨request, hmem, hunmatched, rfl⟩
    obtain ⟨hlisted, hkey⟩ := List.mem_filter.1 hmem
    have hrecorded := inv.keyedRecorded request hlisted
    refine ⟨(List.getElem?_eq_some_iff.1 hrecorded.1).1, ?_, ?_⟩
    · rw [hrecorded.1, Option.bind_some, hrecorded.requestKey]
      exact of_decide_eq_true hkey
    · intro transaction htransaction hindex
      exact absurd hindex (hunmatched transaction htransaction)

theorem nodup_outstanding (records : List IpcMessage) (transactions : List IpcTransaction)
    (key : CorrelationKey) (response : Nat) :
    (outstanding records transactions key response).Nodup :=
  List.nodup_range.filter _

/-- The number of outstanding requests is that of the unmatched ones in the list. -/
theorem length_outstanding (inv : PairingInv s) (key : CorrelationKey) :
    (outstanding s.records s.transactions key s.records.length).length =
      ((s.keyedRequests key).filter fun request => s.Unmatched request).length := by
  have hnodup : (((s.keyedRequests key).filter fun request => s.Unmatched request).map
      PendingRequest.index).Nodup := by
    refine inv.keyedOnce.sublist (List.Sublist.map _ ?_)
    exact List.filter_sublist.trans List.filter_sublist
  rw [← List.length_map (f := PendingRequest.index)]
  apply List.Perm.length_eq
  refine (List.perm_ext_iff_of_nodup (nodup_outstanding _ _ _ _) hnodup).2 fun i => ?_
  rw [mem_outstanding_iff inv, List.mem_map]
  constructor
  · rintro ⟨request, hmem, hunmatched, hindex⟩
    exact ⟨request, List.mem_filter.2 ⟨hmem, decide_eq_true hunmatched⟩, hindex⟩
  · rintro ⟨request, hmem, hindex⟩
    obtain ⟨hlisted, hunmatched⟩ := List.mem_filter.1 hmem
    exact ⟨request, hlisted, of_decide_eq_true hunmatched, hindex⟩

/-- A request is no response. -/
theorem responsePair_eq_none {pair : ProfilePair} (h : message.requestPair = some pair) :
    message.responsePair = none := by
  unfold IpcMessage.requestPair at h
  obtain ⟨hpair, hmode⟩ := Option.filter_eq_some_iff.1 h
  simp only [Bool.and_eq_true, beq_iff_eq] at hmode
  unfold IpcMessage.responsePair
  rw [hpair, Option.filter_eq_none_iff]
  intro other _
  simp [hmode.1.2]

/-! ## The steps -/

/-- Old transactions keep their part of the law when a record and transactions are added. -/
theorem matched_concat (law : PairedOnce s) (message : IpcMessage) :
    ∀ transaction ∈ s.transactions, ∃ request response,
      (s.records ++ [message])[transaction.request]? = some request ∧
      (s.records ++ [message])[transaction.response]? = some response ∧
      Matches transaction request response := by
  intro transaction htransaction
  obtain ⟨request, response, hrequest, hresponse, hmatches⟩ := law.matched transaction htransaction
  exact ⟨request, response, getElem?_concat_of_some hrequest, getElem?_concat_of_some hresponse,
    hmatches⟩

theorem ambiguous_concat (law : PairedOnce s) (message : IpcMessage) (later : List IpcTransaction)
    (hlater : ∀ transaction ∈ later, transaction.response = s.records.length) :
    ∀ transaction ∈ s.transactions, transaction.method = .profileKey →
      ∀ response key, (s.records ++ [message])[transaction.response]? = some response →
        response.responseKey = some key → (transaction.ambiguous = true ↔
          1 < (outstanding (s.records ++ [message]) (s.transactions ++ later) key
            transaction.response).length) := by
  intro transaction htransaction hmethod response key hresponse hkey
  have hlt := response_lt law htransaction
  rw [List.getElem?_append_left hlt] at hresponse
  rw [outstanding_concat message later key hlt.le fun t ht => (hlater t ht).symm ▸ hlt.le]
  exact law.ambiguous transaction htransaction hmethod response key hresponse hkey

theorem countP_concat (p : IpcMessage → Bool) (records : List IpcMessage) (message : IpcMessage) :
    (records ++ [message]).countP p = records.countP p + if p message then 1 else 0 := by
  rw [List.countP_append, List.countP_singleton]

/-- A message that is not matched: the lists of pending requests may grow. -/
theorem pairingInv_unmatched (inv : PairingInv s) (message : IpcMessage)
    (pendingRequests pendingKeyed : List PendingRequest) (unmatchedResponses : Nat)
    (hindices : (pendingRequests.map PendingRequest.index ++
      s.transactions.map IpcTransaction.request).Perm (requestIndices (s.records ++ [message])))
    (hpending : ∀ request ∈ pendingRequests, Recorded (s.records ++ [message]) request)
    (hkeyed : ∀ request ∈ pendingKeyed, Recorded (s.records ++ [message]) request)
    (honce : (pendingKeyed.map PendingRequest.index).Nodup)
    (hlisted : ∀ request ∈ pendingRequests, request.correlationKey.isSome →
      request ∈ pendingKeyed)
    (hcount : unmatchedResponses =
      s.unmatchedResponses + if message.responsePair.isSome then 1 else 0) :
    PairingInv ⟨s.records ++ [message], pendingRequests, pendingKeyed, s.transactions,
      unmatchedResponses⟩ where
  law :=
    { requestsOnce := inv.law.requestsOnce
      responsesOnce := inv.law.responsesOnce
      matched := matched_concat inv.law message
      requestCount := (requestsOnce_of_indices hindices).2
      responseCount := by
        rw [countP_concat, ← inv.law.responseCount, hcount]
        simp only
        omega
      ambiguous := by
        have hambiguous := ambiguous_concat inv.law message [] (by simp)
        rw [List.append_nil] at hambiguous
        exact hambiguous }
  indices := hindices
  pendingRecorded := hpending
  keyedRecorded := hkeyed
  keyedOnce := honce
  listed := hlisted

/-- A response that takes a request. -/
theorem pairingInv_matched (inv : PairingInv s) (transaction : IpcTransaction)
    (request : PendingRequest) (pendingRequests pendingKeyed : List PendingRequest)
    (hrequest : transaction.request = request.index)
    (hresponse : transaction.response = s.records.length)
    (hmem : request ∈ s.pendingRequests)
    (hperm : s.pendingRequests.Perm (request :: pendingRequests))
    (hkeyed : pendingKeyed.Sublist s.pendingKeyed)
    (hlisted : ∀ other ∈ pendingRequests, other.correlationKey.isSome → other ∈ pendingKeyed)
    (hpair : message.responsePair.isSome)
    (hmatches : Matches transaction request.message message)
    (hambiguous : transaction.method = .profileKey → ∀ key, message.responseKey = some key →
      (transaction.ambiguous = true ↔
        1 < (outstanding s.records s.transactions key s.records.length).length)) :
    PairingInv ⟨s.records ++ [message], pendingRequests, pendingKeyed,
      s.transactions ++ [transaction], s.unmatchedResponses⟩ := by
  have hnone : message.requestPair = none := by
    unfold IpcMessage.responsePair at hpair
    obtain ⟨pair, hpair⟩ := Option.isSome_iff_exists.1 hpair
    obtain ⟨hpair, hmode⟩ := Option.filter_eq_some_iff.1 hpair
    simp only [Bool.and_eq_true, beq_iff_eq] at hmode
    unfold IpcMessage.requestPair
    rw [hpair, Option.filter_eq_none_iff]
    intro other _
    simp [hmode.2]
  have hindices : (pendingRequests.map PendingRequest.index ++
      (s.transactions ++ [transaction]).map IpcTransaction.request).Perm
        (requestIndices (s.records ++ [message])) := by
    rw [requestIndices_concat, hnone]
    simp only [Option.isSome_none, Bool.false_eq_true, if_false, List.append_nil]
    refine List.Perm.trans ?_ inv.indices
    rw [List.map_append, List.map_singleton, hrequest, ← List.append_assoc]
    refine (List.perm_append_singleton _ _).trans ?_
    have hmap := (hperm.map PendingRequest.index).symm
    rw [List.map_cons] at hmap
    exact hmap.append_right _
  have hrecorded := inv.pendingRecorded request hmem
  have hlast : (s.records ++ [message])[transaction.response]? = some message := by
    rw [hresponse, List.getElem?_concat_length]
  exact
    { law :=
        { requestsOnce := (requestsOnce_of_indices hindices).1
          responsesOnce := by
            rw [List.map_append, List.map_singleton, hresponse]
            refine List.Nodup.append inv.law.responsesOnce (List.nodup_singleton _) ?_
            intro i hi hlast
            obtain ⟨earlier, hearlier, rfl⟩ := List.mem_map.1 hi
            have hlt := response_lt inv.law hearlier
            rw [List.mem_singleton] at hlast
            omega
          matched := by
            intro other hother
            rcases List.mem_append.1 hother with hold | hnew
            · exact matched_concat inv.law message other hold
            · rw [List.mem_singleton.1 hnew]
              refine ⟨request.message, message, ?_, hlast, hmatches⟩
              rw [hrequest]
              exact getElem?_concat_of_some hrecorded.1
          requestCount := (requestsOnce_of_indices hindices).2
          responseCount := by
            rw [countP_concat, ← inv.law.responseCount, hpair, List.length_append,
              List.length_singleton]
            simp only [if_true]
            omega
          ambiguous := by
            intro other hother hmethod response key hat hkey
            have hlater : ∀ t ∈ [transaction], t.response = s.records.length := by
              intro t ht
              rw [List.mem_singleton.1 ht, hresponse]
            rcases List.mem_append.1 hother with hold | hnew
            · exact ambiguous_concat inv.law message [transaction] hlater other hold hmethod
                response key hat hkey
            · obtain rfl := List.mem_singleton.1 hnew
              rw [hlast] at hat
              obtain rfl := Option.some.inj hat
              simp only
              rw [hresponse, outstanding_concat message [other] key le_rfl
                fun t ht => (hlater t ht).ge]
              exact hambiguous hmethod key hkey }
      indices := hindices
      pendingRecorded := fun other hother =>
        (inv.pendingRecorded other (hperm.symm.subset (List.mem_cons_of_mem _ hother))).concat _
      keyedRecorded := fun other hother =>
        (inv.keyedRecorded other (hkeyed.subset hother)).concat _
      keyedOnce := inv.keyedOnce.sublist (hkeyed.map _)
      listed := hlisted }

theorem keyOf_eq_some {message : IpcMessage} {pair : ProfilePair} {value : Option String}
    {key : CorrelationKey} (h : message.keyOf pair value = some key) :
    value = some key.value ∧ key.sessionId = message.sessionId ∧ key.entryId = pair.entryId ∧
      key.returnId = pair.returnId ∧ ∃ correlation, pair.correlation = some correlation ∧
        key.thread = if correlation.thread then some message.threadKey else none := by
  unfold IpcMessage.keyOf at h
  obtain ⟨correlation, hcorrelation, hvalue⟩ := Option.bind_eq_some_iff.1 h
  obtain ⟨value, rfl, rfl⟩ := Option.map_eq_some_iff.1 hvalue
  exact ⟨rfl, rfl, rfl, rfl, correlation, hcorrelation, rfl⟩

/-- Two messages with one key belong together. -/
theorem matches_of_key {transaction : IpcTransaction} {request response : IpcMessage}
    {p q : ProfilePair} {key : CorrelationKey} (hprecedes : transaction.request < transaction.response)
    (hp : request.requestPair = some p) (hq : response.responsePair = some q)
    (hrequest : request.keyOf p (request.requestValue p) = some key)
    (hresponse : response.keyOf q (response.responseValue q) = some key) :
    Matches transaction request response := by
  obtain ⟨hvalue, hsession, hentry, hreturn, correlation, -, hthread⟩ := keyOf_eq_some hrequest
  obtain ⟨hvalue', hsession', hentry', hreturn', correlation', hcorrelation', hthread'⟩ :=
    keyOf_eq_some hresponse
  refine ⟨hprecedes, p, q, hp, hq, hsession.symm.trans hsession', hentry.symm.trans hentry',
    hreturn.symm.trans hreturn', fun _ => ⟨key.value, hvalue, hvalue'⟩, ?_⟩
  cases hthreads : correlation'.thread with
  | false => exact Or.inr ⟨correlation', hcorrelation', hthreads⟩
  | true =>
    rw [hthreads, hthread, if_pos rfl] at hthread'
    split_ifs at hthread'
    exact Or.inl (Option.some.inj hthread')

/-- A request under the thread and the pair of a response belongs to it. -/
theorem matches_of_fifoKey {transaction : IpcTransaction} {request : PendingRequest}
    {pair : ProfilePair} (hrecorded : Recorded s.records request)
    (hkey : request.fifoKey = message.fifoKey pair) (hresponse : message.responsePair = some pair)
    (hindex : transaction.request = request.index)
    (hto : transaction.response = s.records.length)
    (hmethod : transaction.method ≠ .profileKey) : Matches transaction request.message message := by
  unfold PendingRequest.fifoKey IpcMessage.fifoKey at hkey
  simp only [FifoKey.mk.injEq] at hkey
  obtain ⟨hsession, hthread, hentry, hreturn⟩ := hkey
  refine ⟨?_, request.pair, pair, hrecorded.2, hresponse, hsession, hentry, hreturn,
    fun h => absurd h hmethod, Or.inl hthread⟩
  rw [hindex, hto]
  exact (List.getElem?_eq_some_iff.1 hrecorded.1).1

/-- A request that opens a list of `pending_requests` is pending, and belongs to the response. -/
theorem fifoRequests_eq_cons {key : FifoKey} {request : PendingRequest}
    {rest : List PendingRequest} (h : s.fifoRequests key = request :: rest) :
    request ∈ s.pendingRequests ∧ request.fifoKey = key := by
  have hmem : request ∈ s.fifoRequests key := by
    rw [h]
    exact List.mem_cons_self
  obtain ⟨hpending, hkey⟩ := List.mem_filter.1 hmem
  exact ⟨hpending, of_decide_eq_true hkey⟩

theorem keyedRequests_eq_cons {key : CorrelationKey} {request : PendingRequest}
    {rest : List PendingRequest} (h : s.keyedRequests key = request :: rest) :
    request ∈ s.pendingKeyed ∧ request.correlationKey = some key := by
  have hmem : request ∈ s.keyedRequests key := by
    rw [h]
    exact List.mem_cons_self
  obtain ⟨hlisted, hkey⟩ := List.mem_filter.1 hmem
  exact ⟨hlisted, of_decide_eq_true hkey⟩

theorem index_lt {request : PendingRequest} (h : Recorded s.records request) :
    request.index < s.records.length :=
  (List.getElem?_eq_some_iff.1 h.1).1

/-- Nothing but the records changes for a message that is no request and no response. -/
theorem pairingInv_other (inv : PairingInv s) (hrequest : message.requestPair = none)
    (hresponse : message.responsePair = none) : PairingInv { s with
      records := s.records ++ [message] } := by
  refine pairingInv_unmatched inv message s.pendingRequests s.pendingKeyed s.unmatchedResponses ?_
    (fun request h => (inv.pendingRecorded request h).concat _)
    (fun request h => (inv.keyedRecorded request h).concat _) inv.keyedOnce inv.listed ?_
  · rw [requestIndices_concat, hrequest]
    simpa using inv.indices
  · rw [hresponse]
    rfl

theorem pairingInv_unanswered (inv : PairingInv s) (hrequest : message.requestPair = none)
    {pair : ProfilePair} (hresponse : message.responsePair = some pair) : PairingInv { s with
      records := s.records ++ [message]
      unmatchedResponses := s.unmatchedResponses + 1 } := by
  refine pairingInv_unmatched inv message s.pendingRequests s.pendingKeyed _ ?_
    (fun request h => (inv.pendingRecorded request h).concat _)
    (fun request h => (inv.keyedRecorded request h).concat _) inv.keyedOnce inv.listed ?_
  · rw [requestIndices_concat, hrequest]
    simpa using inv.indices
  · rw [hresponse]
    rfl

/-- A request joins the pending requests, and the list under its key if it has one. -/
theorem pairingInv_addRequest (inv : PairingInv s) {pair : ProfilePair}
    (hrequest : message.requestPair = some pair) (hresponse : message.responsePair = none) :
    PairingInv { s.addRequest message pair with records := s.records ++ [message] } := by
  have hnew : Recorded (s.records ++ [message]) ⟨s.records.length, message, pair⟩ :=
    ⟨List.getElem?_concat_length, hrequest⟩
  have hfresh : s.records.length ∉ s.pendingKeyed.map PendingRequest.index := by
    intro hmem
    obtain ⟨request, hlisted, hindex⟩ := List.mem_map.1 hmem
    have hlt := index_lt (inv.keyedRecorded request hlisted)
    omega
  refine pairingInv_unmatched inv message _ _ s.unmatchedResponses ?_ ?_ ?_ ?_ ?_ ?_
  · rw [requestIndices_concat, hrequest]
    simp only [addRequest, Option.isSome_some, if_true, List.map_append, List.map_singleton]
    rw [List.append_assoc]
    refine (List.Perm.append_left _ List.perm_append_comm).trans ?_
    rw [← List.append_assoc]
    exact inv.indices.append_right _
  · intro request hmem
    rcases List.mem_append.1 hmem with hold | hlast
    · exact (inv.pendingRecorded request hold).concat _
    · rw [List.mem_singleton.1 hlast]
      exact hnew
  · intro request hmem
    simp only [addRequest] at hmem
    split_ifs at hmem
    · rcases List.mem_append.1 hmem with hold | hlast
      · exact (inv.keyedRecorded request hold).concat _
      · rw [List.mem_singleton.1 hlast]
        exact hnew
    · exact (inv.keyedRecorded request hmem).concat _
  · simp only [addRequest]
    split_ifs
    · rw [List.map_append, List.map_singleton]
      refine List.Nodup.append inv.keyedOnce (List.nodup_singleton _) ?_
      intro i hold hlast
      rw [List.mem_singleton.1 hlast] at hold
      exact hfresh hold
    · exact inv.keyedOnce
  · intro request hmem hkey
    simp only [addRequest] at hmem ⊢
    rcases List.mem_append.1 hmem with hold | hlast
    · have hlisted := inv.listed request hold hkey
      split_ifs
      · exact List.mem_append_left _ hlisted
      · exact hlisted
    · rw [List.mem_singleton.1 hlast] at hkey ⊢
      rw [if_pos hkey]
      exact List.mem_append_right _ (List.mem_singleton_self _)
  · rw [hresponse]
    rfl

/-- A response takes the oldest request of its thread, or none. -/
theorem pairingInv_matchFifo (inv : PairingInv s) (hrequest : message.requestPair = none)
    {pair : ProfilePair} (hresponse : message.responsePair = some pair) :
    PairingInv { s.matchFifo message pair with records := s.records ++ [message] } := by
  unfold matchFifo
  simp only
  rcases hfifo : s.fifoRequests (message.fifoKey pair) with _ | ⟨request, rest⟩
  · exact pairingInv_unanswered inv hrequest hresponse
  simp only
  by_cases hfallback : (pair.correlation.all fun correlation => correlation.fallback) = true
  · rw [if_pos hfallback]
    obtain ⟨hpending, hkey⟩ := fifoRequests_eq_cons hfifo
    have hrecorded := inv.pendingRecorded request hpending
    have hperm : s.pendingRequests.Perm (request :: s.popFifo (message.fifoKey pair)) :=
      perm_cons_eraseP hfifo
    refine pairingInv_matched inv _ request _ s.pendingKeyed rfl rfl hpending hperm
      (List.Sublist.refl _) (fun other hother => inv.listed other
        (hperm.symm.subset (List.mem_cons_of_mem _ hother))) (by rw [hresponse]; rfl) ?_ ?_
    · refine matches_of_fifoKey hrecorded hkey hresponse rfl rfl ?_
      simp only
      split_ifs <;> simp
    · intro hmethod
      simp only at hmethod
      split_ifs at hmethod
  · rw [if_neg hfallback]
    exact pairingInv_unanswered inv hrequest hresponse

/-- A response takes the first request under its key, if that is still unmatched. -/
theorem pairingInv_matchKeyed (inv : PairingInv s) {pair : ProfilePair} {key : CorrelationKey}
    {request : PendingRequest} {rest : List PendingRequest}
    (hresponse : message.responsePair = some pair)
    (hkey : message.keyOf pair (message.responseValue pair) = some key)
    (hkeyed : s.keyedRequests key = request :: rest) (hlive : s.ListedUnmatched message) :
    PairingInv { s.matchKeyed message pair key request rest with
      records := s.records ++ [message] } := by
  have hresponseKey : message.responseKey = some key := by
    unfold IpcMessage.responseKey
    rw [hresponse]
    exact hkey
  obtain ⟨hunmatched, hthread, hothers⟩ := hlive key request rest hresponseKey hkeyed
  obtain ⟨hlisted, hrequestKey⟩ := keyedRequests_eq_cons hkeyed
  have hrecorded := inv.keyedRecorded request hlisted
  have hpending := mem_pendingRequests inv hrecorded hunmatched
  have hmatches : ∀ transaction : IpcTransaction, transaction.request = request.index →
      transaction.response = s.records.length → Matches transaction request.message message := by
    intro transaction hfrom hto
    refine matches_of_key ?_ hrecorded.2 hresponse hrequestKey hkey
    rw [hfrom, hto]
    exact index_lt hrecorded
  -- the record is found under the key that the response computes for it
  have hfifoKey : request.fifoKey =
      ⟨message.sessionId, request.message.recordThreadKey, pair.entryId, pair.returnId⟩ := by
    obtain ⟨-, hsession, hentry, hreturn, -⟩ := keyOf_eq_some hrequestKey
    obtain ⟨-, hsession', hentry', hreturn', -⟩ := keyOf_eq_some hkey
    obtain ⟨thread, hthread⟩ := Option.isSome_iff_exists.1 hthread
    unfold PendingRequest.fifoKey IpcMessage.fifoKey IpcMessage.threadKey
      IpcMessage.recordThreadKey
    rw [hthread, ← hsession, hsession', ← hentry, hentry', ← hreturn, hreturn']
    rfl
  have hperm : s.pendingRequests.Perm (request :: s.removePendingRequest
      ⟨message.sessionId, request.message.recordThreadKey, pair.entryId, pair.returnId⟩
      request) := by
    unfold removePendingRequest
    refine perm_cons_eraseP_of_mem hpending (decide_eq_true ⟨hfifoKey, rfl⟩) fun found hmem hp => ?_
    exact hrecorded.ext (inv.pendingRecorded found hmem) (of_decide_eq_true hp).2
  refine pairingInv_matched inv _ request _ _ rfl rfl hpending hperm List.eraseP_sublist ?_
    (by rw [hresponse]; rfl) (hmatches _ rfl rfl) ?_
  · intro other hother hsome
    have hold := inv.listed other (hperm.symm.subset (List.mem_cons_of_mem _ hother)) hsome
    rcases List.mem_cons.1 ((perm_cons_eraseP hkeyed).subset hold) with hsame | hkept
    · -- the taken request is no longer pending
      have hnodup : (request :: s.removePendingRequest ⟨message.sessionId,
          request.message.recordThreadKey, pair.entryId, pair.returnId⟩ request).map
            PendingRequest.index |>.Nodup :=
        (hperm.map _).nodup_iff.1
          (inv.indices.nodup_iff.2 (nodup_requestIndices _)).of_append_left
      rw [List.map_cons, List.nodup_cons] at hnodup
      rw [hsame] at hother
      exact absurd (List.mem_map_of_mem hother) hnodup.1
    · exact hkept
  · intro _ other hother
    obtain rfl : key = other := Option.some.inj (hresponseKey.symm.trans hother)
    rw [length_outstanding inv, hkeyed, List.filter_cons,
      if_pos (decide_eq_true hunmatched)]
    unfold IpcTransaction.ambiguous
    simp only [List.length_cons, decide_eq_true_eq]
    constructor
    · intro hmany
      have hrest : rest ≠ [] := by
        rintro rfl
        simp at hmany
      obtain ⟨live, hmem, hlive⟩ := hothers hrest
      have hfound : live ∈ rest.filter fun other => s.Unmatched other :=
        List.mem_filter.2 ⟨hmem, decide_eq_true hlive⟩
      have hpos := List.length_pos_of_mem hfound
      omega
    · intro hmany
      have hle := List.length_filter_le (fun other => decide (s.Unmatched other)) rest
      omega

theorem pairingInv_step (s : TraceIpc) (message : IpcMessage) (inv : PairingInv s)
    (hlive : s.ListedUnmatched message) : PairingInv (s.step message) := by
  unfold step pairUp
  cases hrequest : message.requestPair with
  | some pair => exact pairingInv_addRequest inv hrequest (responsePair_eq_none hrequest)
  | none =>
    cases hresponse : message.responsePair with
    | none => exact pairingInv_other inv hrequest hresponse
    | some pair =>
      simp only
      unfold addResponse
      cases hkey : message.keyOf pair (message.responseValue pair) with
      | none => exact pairingInv_matchFifo inv hrequest hresponse
      | some key =>
        simp only
        rcases hkeyed : s.keyedRequests key with _ | ⟨request, rest⟩
        · exact pairingInv_matchFifo inv hrequest hresponse
        · exact pairingInv_matchKeyed inv hresponse hkey hkeyed hlive

/-- The removal misses a record without a thread. -/
theorem removePendingRequest_of_none (inv : PairingInv s) {request : PendingRequest}
    (hrecorded : Recorded s.records request) (hthread : request.message.record.thread = none)
    (sessionId entryId returnId : String) :
    s.removePendingRequest ⟨sessionId, request.message.recordThreadKey, entryId, returnId⟩ request =
      s.pendingRequests := by
  unfold removePendingRequest
  refine List.eraseP_of_forall_not fun found hmem hfound => ?_
  obtain ⟨hkey, hindex⟩ := of_decide_eq_true hfound
  have hsame := hrecorded.ext (inv.pendingRecorded found hmem) hindex
  rw [hsame] at hkey
  unfold PendingRequest.fifoKey IpcMessage.fifoKey IpcMessage.threadKey
    IpcMessage.recordThreadKey at hkey
  rw [hthread] at hkey
  simp at hkey

/-- A response whose list is not as required breaks the law at once. -/
theorem not_pairedOnce_of_not_listed (s : TraceIpc) (message : IpcMessage) (inv : PairingInv s)
    (hstale : ¬ s.ListedUnmatched message) : ¬ PairedOnce (s.step message) := by
  intro law
  apply hstale
  intro key first rest hresponseKey hkeyed
  obtain ⟨pair, hresponse, hkey⟩ := Option.bind_eq_some_iff.1 hresponseKey
  have hrequest : message.requestPair = none := by
    cases h : message.requestPair with
    | none => rfl
    | some other =>
      rw [responsePair_eq_none h] at hresponse
      exact absurd hresponse (by simp)
  have hstep : s.step message = { s.matchKeyed message pair key first rest with
      records := s.records ++ [message] } := by
    unfold step pairUp
    simp only [hrequest, hresponse]
    unfold addResponse
    simp only [hkey, hkeyed]
  rw [hstep] at law
  obtain ⟨hlisted, -⟩ := keyedRequests_eq_cons hkeyed
  have hrecorded := inv.keyedRecorded first hlisted
  have hunmatched : s.Unmatched first := by
    intro transaction htransaction hindex
    have honce := law.requestsOnce
    simp only [matchKeyed, List.map_append, List.map_singleton] at honce
    exact List.disjoint_of_nodup_append honce (List.mem_map.2 ⟨transaction, htransaction, hindex⟩)
      (List.mem_singleton_self _)
  refine ⟨hunmatched, ?_, fun hrest => ?_⟩
  · rw [← Option.not_isNone]
    simp only [Bool.not_eq_true', Option.isNone_eq_false_iff, Option.isSome_iff_ne_none]
    intro hthread
    -- the request stays pending, so it is counted twice
    have hcount := law.requestCount
    simp only [matchKeyed, unmatchedRequests,
      removePendingRequest_of_none inv hrecorded hthread, List.length_append,
      List.length_singleton, countP_concat, hrequest, Option.isSome_none] at hcount
    have hbefore := inv.law.requestCount
    unfold unmatchedRequests at hbefore
    simp only [Bool.false_eq_true, if_false] at hcount
    omega
  · have hambiguous := law.ambiguous _ (List.mem_append_right _ (List.mem_singleton_self _)) rfl
      message key List.getElem?_concat_length hresponseKey
    have hpos := List.length_pos_of_ne_nil hrest
    have hmany : 1 < rest.length + 1 := by omega
    simp only [matchKeyed, IpcTransaction.ambiguous, decide_eq_true_eq] at hambiguous
    rw [outstanding_concat message _ key le_rfl (by simp), length_outstanding inv, hkeyed,
      List.filter_cons, if_pos (decide_eq_true hunmatched), List.length_cons] at hambiguous
    have hlive := hambiguous.1 hmany
    obtain ⟨other, hother⟩ := List.exists_mem_of_length_pos (Nat.lt_of_succ_lt_succ hlive)
    obtain ⟨hmem, hlive⟩ := List.mem_filter.1 hother
    exact ⟨other, hmem, of_decide_eq_true hlive⟩

/-! ## Whatever the lists hold -/

/-- What a step does in any state whose pending requests are request records. -/
structure StepSpec (s : TraceIpc) (message : IpcMessage) (later : List IpcTransaction)
    (s' : TraceIpc) : Prop where
  records : s'.records = s.records ++ [message]
  transactions : s'.transactions = s.transactions ++ later
  once : later.length ≤ 1
  matched : ∀ transaction ∈ later, transaction.response = s.records.length ∧
    ∃ request, s.records[transaction.request]? = some request ∧
      Matches transaction request message
  responses : later.length + s'.unmatchedResponses =
    s.unmatchedResponses + if message.responsePair.isSome then 1 else 0
  requests : (s.pendingRequests.length + if message.requestPair.isSome then 1 else 0) ≤
    s'.pendingRequests.length + later.length
  pendingRecorded : ∀ request ∈ s'.pendingRequests, Recorded s'.records request
  keyedRecorded : ∀ request ∈ s'.pendingKeyed, Recorded s'.records request

/-- The part of the law that no list can break. -/
structure RecordedInv (s : TraceIpc) : Prop where
  pendingRecorded : ∀ request ∈ s.pendingRequests, Recorded s.records request
  keyedRecorded : ∀ request ∈ s.pendingKeyed, Recorded s.records request
  responsesOnce : (s.transactions.map IpcTransaction.response).Nodup
  matched : ∀ transaction ∈ s.transactions, ∃ request response,
    s.records[transaction.request]? = some request ∧
    s.records[transaction.response]? = some response ∧ Matches transaction request response
  responseCount : s.transactions.length + s.unmatchedResponses =
    s.records.countP fun message => message.responsePair.isSome
  requestCount : (s.records.countP fun message => message.requestPair.isSome) ≤
    s.transactions.length + s.unmatchedRequests

theorem recordedInv_initial : RecordedInv initial where
  pendingRecorded := by simp [initial]
  keyedRecorded := by simp [initial]
  responsesOnce := List.nodup_nil
  matched := by simp [initial]
  responseCount := rfl
  requestCount := le_rfl

theorem stepSpec_unmatched (inv : RecordedInv s) {s' : TraceIpc}
    (hrecords : s'.records = s.records ++ [message])
    (htransactions : s'.transactions = s.transactions)
    (hpending : s'.pendingRequests = s.pendingRequests)
    (hkeyed : s'.pendingKeyed = s.pendingKeyed) (hrequest : message.requestPair = none)
    (hresponses : s'.unmatchedResponses =
      s.unmatchedResponses + if message.responsePair.isSome then 1 else 0) :
    StepSpec s message [] s' where
  records := hrecords
  transactions := by rw [htransactions, List.append_nil]
  once := Nat.zero_le _
  matched := by simp
  responses := by rw [List.length_nil, Nat.zero_add, hresponses]
  requests := by
    rw [hpending, hrequest]
    exact le_rfl
  pendingRecorded := by
    rw [hpending, hrecords]
    exact fun request h => (inv.pendingRecorded request h).concat _
  keyedRecorded := by
    rw [hkeyed, hrecords]
    exact fun request h => (inv.keyedRecorded request h).concat _

theorem stepSpec_addRequest (inv : RecordedInv s) {pair : ProfilePair}
    (hrequest : message.requestPair = some pair) :
    StepSpec s message [] { s.addRequest message pair with records := s.records ++ [message] } := by
  have hnew : Recorded (s.records ++ [message]) ⟨s.records.length, message, pair⟩ :=
    ⟨List.getElem?_concat_length, hrequest⟩
  have hgrown : ∀ requests : List PendingRequest,
      (∀ request ∈ requests, Recorded s.records request) →
      ∀ request ∈ requests ++ [⟨s.records.length, message, pair⟩],
        Recorded (s.records ++ [message]) request := by
    intro requests hrecorded request hmem
    rcases List.mem_append.1 hmem with hold | hlast
    · exact (hrecorded request hold).concat _
    · rw [List.mem_singleton.1 hlast]
      exact hnew
  exact
    { records := rfl
      transactions := (List.append_nil _).symm
      once := Nat.zero_le _
      matched := by simp
      responses := by
        rw [responsePair_eq_none hrequest, List.length_nil, Nat.zero_add]
        rfl
      requests := by
        rw [hrequest]
        simp [addRequest]
      pendingRecorded := hgrown _ inv.pendingRecorded
      keyedRecorded := by
        intro request hmem
        simp only [addRequest] at hmem
        split_ifs at hmem
        · exact hgrown _ inv.keyedRecorded request hmem
        · exact (inv.keyedRecorded request hmem).concat _ }

/-- A response that takes a recorded request, pending or not. -/
theorem stepSpec_matched (inv : RecordedInv s) {pair : ProfilePair} {s' : TraceIpc}
    (transaction : IpcTransaction) (request : PendingRequest)
    (hresponse : message.responsePair = some pair) (hrequest : message.requestPair = none)
    (hrecords : s'.records = s.records ++ [message])
    (htransactions : s'.transactions = s.transactions ++ [transaction])
    (hunmatched : s'.unmatchedResponses = s.unmatchedResponses)
    (hpending : s'.pendingRequests.Sublist s.pendingRequests)
    (hlength : s.pendingRequests.length ≤ s'.pendingRequests.length + 1)
    (hkeyed : s'.pendingKeyed.Sublist s.pendingKeyed)
    (hindex : transaction.request = request.index)
    (hto : transaction.response = s.records.length)
    (hrecorded : Recorded s.records request)
    (hmatches : Matches transaction request.message message) :
    StepSpec s message [transaction] s' where
  records := hrecords
  transactions := htransactions
  once := le_rfl
  matched := by
    intro other hother
    rw [List.mem_singleton.1 hother]
    refine ⟨hto, request.message, ?_, hmatches⟩
    rw [hindex]
    exact hrecorded.1
  responses := by
    rw [hunmatched, hresponse, List.length_singleton, Nat.add_comm]
    rfl
  requests := by
    rw [hrequest, List.length_singleton]
    exact hlength
  pendingRecorded := by
    rw [hrecords]
    exact fun other h => (inv.pendingRecorded other (hpending.subset h)).concat _
  keyedRecorded := by
    rw [hrecords]
    exact fun other h => (inv.keyedRecorded other (hkeyed.subset h)).concat _

theorem length_le_length_eraseP {α : Type} (p : α → Bool) (l : List α) :
    l.length ≤ (l.eraseP p).length + 1 := by
  rw [List.length_eraseP]
  split_ifs <;> omega

theorem stepSpec_matchFifo (inv : RecordedInv s) (hrequest : message.requestPair = none)
    {pair : ProfilePair} (hresponse : message.responsePair = some pair) :
    ∃ later, StepSpec s message later
      { s.matchFifo message pair with records := s.records ++ [message] } := by
  unfold matchFifo
  simp only
  rcases hfifo : s.fifoRequests (message.fifoKey pair) with _ | ⟨request, rest⟩
  · exact ⟨[], stepSpec_unmatched inv rfl rfl rfl rfl hrequest (by rw [hresponse]; rfl)⟩
  simp only
  by_cases hfallback : (pair.correlation.all fun correlation => correlation.fallback) = true
  · rw [if_pos hfallback]
    obtain ⟨hpending, hkey⟩ := fifoRequests_eq_cons hfifo
    exact ⟨_, stepSpec_matched inv _ request hresponse hrequest rfl rfl rfl List.eraseP_sublist
      (length_le_length_eraseP _ _) (List.Sublist.refl _) rfl rfl
      (inv.pendingRecorded request hpending)
      (matches_of_fifoKey (inv.pendingRecorded request hpending) hkey hresponse rfl rfl
        (by simp only; split_ifs <;> simp))⟩
  · rw [if_neg hfallback]
    exact ⟨[], stepSpec_unmatched inv rfl rfl rfl rfl hrequest (by rw [hresponse]; rfl)⟩

theorem stepSpec_matchKeyed (inv : RecordedInv s) {pair : ProfilePair} {key : CorrelationKey}
    {request : PendingRequest} {rest : List PendingRequest} (hrequest : message.requestPair = none)
    (hresponse : message.responsePair = some pair)
    (hkey : message.keyOf pair (message.responseValue pair) = some key)
    (hkeyed : s.keyedRequests key = request :: rest) :
    ∃ later, StepSpec s message later
      { s.matchKeyed message pair key request rest with records := s.records ++ [message] } := by
  obtain ⟨hlisted, hrequestKey⟩ := keyedRequests_eq_cons hkeyed
  have hrecorded := inv.keyedRecorded request hlisted
  exact ⟨_, stepSpec_matched inv _ request hresponse hrequest rfl rfl rfl List.eraseP_sublist
    (length_le_length_eraseP _ _) List.eraseP_sublist rfl rfl hrecorded
    (matches_of_key (index_lt hrecorded) hrecorded.2 hresponse hrequestKey hkey)⟩

theorem stepSpec_step (s : TraceIpc) (message : IpcMessage) (inv : RecordedInv s) :
    ∃ later, StepSpec s message later (s.step message) := by
  unfold step pairUp
  cases hrequest : message.requestPair with
  | some pair => exact ⟨[], stepSpec_addRequest inv hrequest⟩
  | none =>
    cases hresponse : message.responsePair with
    | none => exact ⟨[], stepSpec_unmatched inv rfl rfl rfl rfl hrequest (by rw [hresponse]; rfl)⟩
    | some pair =>
      simp only
      unfold addResponse
      cases hkey : message.keyOf pair (message.responseValue pair) with
      | none => exact stepSpec_matchFifo inv hrequest hresponse
      | some key =>
        simp only
        rcases hkeyed : s.keyedRequests key with _ | ⟨request, rest⟩
        · exact stepSpec_matchFifo inv hrequest hresponse
        · exact stepSpec_matchKeyed inv hrequest hresponse hkey hkeyed

theorem RecordedInv.response_lt (inv : RecordedInv s) {transaction : IpcTransaction}
    (h : transaction ∈ s.transactions) : transaction.response < s.records.length := by
  obtain ⟨request, response, -, hresponse, -⟩ := inv.matched transaction h
  exact (List.getElem?_eq_some_iff.1 hresponse).1

theorem recordedInv_step (s : TraceIpc) (message : IpcMessage) (inv : RecordedInv s) :
    RecordedInv (s.step message) := by
  obtain ⟨later, spec⟩ := stepSpec_step s message inv
  refine ⟨spec.pendingRecorded, spec.keyedRecorded, ?_, ?_, ?_, ?_⟩
  · rw [spec.transactions, List.map_append]
    refine List.Nodup.append inv.responsesOnce ?_ ?_
    · rcases later with _ | ⟨transaction, _ | ⟨other, rest⟩⟩
      · exact List.nodup_nil
      · exact List.nodup_singleton _
      · have honce := spec.once
        simp at honce
    · intro i hold hnew
      obtain ⟨earlier, hearlier, rfl⟩ := List.mem_map.1 hold
      obtain ⟨transaction, htransaction, hsame⟩ := List.mem_map.1 hnew
      have hlt := inv.response_lt hearlier
      have hlast := (spec.matched transaction htransaction).1
      omega
  · intro transaction htransaction
    rw [spec.records]
    rw [spec.transactions] at htransaction
    rcases List.mem_append.1 htransaction with hold | hnew
    · obtain ⟨request, response, hrequest, hresponse, hmatches⟩ := inv.matched transaction hold
      exact ⟨request, response, getElem?_concat_of_some hrequest,
        getElem?_concat_of_some hresponse, hmatches⟩
    · obtain ⟨hlast, request, hrequest, hmatches⟩ := spec.matched transaction hnew
      refine ⟨request, message, getElem?_concat_of_some hrequest, ?_, hmatches⟩
      rw [hlast, List.getElem?_concat_length]
  · have hbefore := inv.responseCount
    have hnew := spec.responses
    rw [spec.records, spec.transactions, countP_concat, List.length_append]
    omega
  · have hbefore := inv.requestCount
    have hnew := spec.requests
    unfold unmatchedRequests at hbefore ⊢
    rw [spec.records, spec.transactions, countP_concat, List.length_append]
    omega

/-- A broken law stays broken. -/
theorem pairedOnce_of_step (s : TraceIpc) (message : IpcMessage) (inv : RecordedInv s)
    (law : PairedOnce (s.step message)) : PairedOnce s := by
  obtain ⟨later, spec⟩ := stepSpec_step s message inv
  refine ⟨?_, inv.responsesOnce, inv.matched, ?_, inv.responseCount, ?_⟩
  · have honce := law.requestsOnce
    rw [spec.transactions, List.map_append] at honce
    exact honce.of_append_left
  · have hbefore := inv.requestCount
    have hnew := spec.requests
    have hafter := law.requestCount
    unfold unmatchedRequests at hbefore hafter ⊢
    rw [spec.records, spec.transactions, countP_concat, List.length_append] at hafter
    omega
  · intro transaction htransaction hmethod response key hresponse hkey
    have hlt := inv.response_lt htransaction
    have hmem : transaction ∈ (s.step message).transactions := by
      rw [spec.transactions]
      exact List.mem_append_left _ htransaction
    have hat : (s.step message).records[transaction.response]? = some response := by
      rw [spec.records]
      exact getElem?_concat_of_some hresponse
    have hambiguous := law.ambiguous transaction hmem hmethod response key hat hkey
    have hlater : ∀ other ∈ later, transaction.response ≤ other.response := by
      intro other hother
      rw [(spec.matched other hother).1]
      exact hlt.le
    rw [spec.records, spec.transactions, outstanding_concat message later key hlt.le hlater]
      at hambiguous
    exact hambiguous

end TraceIpc

/-! ## Trace messages -/

/-- Every message of the documents is paired at most once, with one that belongs to it, and the counts
    and the marks are right, exactly when every response with a key finds unmatched requests
    under it. -/
theorem trace_messages_paired_iff (documents : List TraceDocument) :
    TraceIpc.PairedOnce (TraceIpc.decodeTraceIpc documents) ↔
      Runs.EachStep TraceIpc.step TraceIpc.ListedUnmatched TraceIpc.initial
        (ipcMessages documents) := by
  have hsteps : Runs.Always TraceIpc.step TraceIpc.PairedOnce TraceIpc.initial
      (ipcMessages documents) ↔ Runs.EachStep TraceIpc.step TraceIpc.ListedUnmatched
        TraceIpc.initial (ipcMessages documents) :=
    Runs.always_iff_eachStep_unbounded TraceIpc.pairingInv_step (fun _ inv => inv.law)
      TraceIpc.not_pairedOnce_of_not_listed TraceIpc.pairingInv_initial
  constructor
  · intro law
    exact hsteps.1 (Runs.always_of_last TraceIpc.recordedInv_step TraceIpc.pairedOnce_of_step
      TraceIpc.recordedInv_initial law)
  · intro hlisted
    exact (hsteps.2 hlisted).last

/-- A pair with a key and the fall-back to the thread: a request and two responses on one thread,
    the first of them under another key. -/
def fallbackDocument : TraceDocument where
  sessionId := "1"
  pairs := [⟨"enter", "leave", some ⟨"event:x0", "event:x0", true, true⟩⟩]
  records := [
    ⟨some "enter", some "1", .request, none, fun _ => some "A"⟩,
    ⟨some "leave", some "1", .response, none, fun _ => some "B"⟩,
    ⟨some "leave", some "1", .response, none, fun _ => some "A"⟩]

/-- The first response takes the request by its thread, and the second takes it once more by its
    key. -/
theorem fallback_request_paired_again :
    ¬ TraceIpc.PairedOnce (TraceIpc.decodeTraceIpc [fallbackDocument]) := by
  intro law
  have hrequests : (TraceIpc.decodeTraceIpc [fallbackDocument]).transactions.map IpcTransaction.request =
      [0, 0] := by
    decide
  have honce := law.requestsOnce
  rw [hrequests] at honce
  exact absurd honce (by decide)

end SysAgent
