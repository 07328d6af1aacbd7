import Mathlib
import SysAgent.Lib.NestedCalls
import SysAgent.Lib.StableSort

set_option autoImplicit false

/-! # Calls of an entry and a return site (`analyze_trace_documents` in `sysagent.py`)

The counts of the summary and the metadata of the sessions are left out: the pairs do not use
them. -/

namespace SysAgent

open NestedCalls (Site)

/-- `tick` and `seq` are what `parse_int` reads of the fields, of "0" without one; absent when it
    reads nothing. `pc` is `_trace_address` of the field, `thread` is `str` of it, "0" without one.
    The other fields are reported as the document has them. -/
structure AnalyzedEvent (Value : Type) where
  tick : Option Int
  seq : Option Int
  thread : String
  pc : Option Int
  tickField : Option Value
  seqField : Option Value
  pcField : Option Value
  x0 : Option Value
  deriving DecidableEq

structure AnalyzedDocument (Value : Type) where
  sessionId : String
  events : List (AnalyzedEvent Value)

/-- What is reported of a call. -/
structure TraceCall (Value : Type) where
  sessionId : String
  thread : String
  entrySeq : Option Value
  returnSeq : Option Value
  entryTick : Option Value
  returnTick : Option Value
  x0 : Option Value
  pc : Option Value
  deriving DecidableEq

structure PairReport (Value : Type) where
  entry : Int
  return_ : Int
  matched : Nat
  unmatchedEntries : Nat
  calls : List (TraceCall Value)

/-- A session and a thread. -/
abbrev CallKey := String × String

variable {Value : Type}

namespace AnalyzedEvent

def placed (event : AnalyzedEvent Value) : Bool := event.tick.isSome && event.seq.isSome

def sortKey (event : AnalyzedEvent Value) : ℤ ×ₗ ℤ :=
  toLex (event.tick.getD 0, event.seq.getD 0)

end AnalyzedEvent

namespace TraceCall

def key (call : TraceCall Value) : CallKey := (call.sessionId, call.thread)

def ofEvents (key : CallKey) (entry event : AnalyzedEvent Value) : TraceCall Value where
  sessionId := key.1
  thread := key.2
  entrySeq := entry.seqField
  returnSeq := event.seqField
  entryTick := entry.tickField
  returnTick := event.tickField
  x0 := event.x0
  pc := event.pcField

end TraceCall

/-- The events of all documents, with their sessions. -/
def sessionEvents (documents : List (AnalyzedDocument Value)) :
    List (String × AnalyzedEvent Value) :=
  documents.flatMap fun document => document.events.map (document.sessionId, ·)

/-- `events` of `analyze_trace_documents`: sorted in each document and then all together. An event
    without a readable tick or sequence number is an error. -/
def analyzedEvents (documents : List (AnalyzedDocument Value)) :
    Option (List (String × AnalyzedEvent Value)) :=
  if documents.all fun document => document.events.all AnalyzedEvent.placed then
    some <| StableSort.sort (fun item => item.2.sortKey) <| sessionEvents <|
      documents.map fun document =>
        { document with events := StableSort.sort AnalyzedEvent.sortKey document.events }
  else
    none

/-! ## Pairing -/

/-- `pending` has the entries of all stacks, the latest first: the stack of a key is its entries. -/
structure PairState (Value : Type) where
  pending : List (CallKey × AnalyzedEvent Value)
  matched : List (TraceCall Value)

namespace PairState

def initial : PairState Value := ⟨[], []⟩

def step (entryAddress returnAddress : Int) (state : PairState Value)
    (item : String × AnalyzedEvent Value) : PairState Value :=
  let (sessionId, event) := item
  match event.pc with
  | none => state
  | some pc =>
    let key : CallKey := (sessionId, event.thread)
    if pc = entryAddress then
      { state with pending := (key, event) :: state.pending }
    else if pc = returnAddress then
      match state.pending.find? fun entry => entry.1 = key with
      | none => state
      | some (_, entry) =>
        { pending := state.pending.eraseP fun entry => entry.1 = key
          matched := state.matched ++ [.ofEvents key entry event] }
    else
      state

end PairState

def analyzePair (events : List (String × AnalyzedEvent Value)) (pair : Int × Int) :
    PairReport Value :=
  let state := events.foldl (PairState.step pair.1 pair.2) .initial
  { entry := pair.1
    return_ := pair.2
    matched := state.matched.length
    unmatchedEntries := state.pending.length
    calls := state.matched }

/-- `analyze_trace_documents`, the reports of its pairs. -/
def analyzeTraceDocuments (documents : List (AnalyzedDocument Value)) (pairs : List (Int × Int)) :
    Option (List (PairReport Value)) :=
  (analyzedEvents documents).map fun events => pairs.map (analyzePair events)

/-! ## The hits of a session and a thread -/

variable (entryAddress returnAddress : Int)

def AnalyzedEvent.site (event : AnalyzedEvent Value) : Option Site :=
  event.pc.bind fun pc =>
    if pc = entryAddress then some .enter else if pc = returnAddress then some .leave else none

def keyHit (key : CallKey) (item : String × AnalyzedEvent Value) :
    Option (Site × AnalyzedEvent Value) :=
  if (item.1, item.2.thread) = key then
    (item.2.site entryAddress returnAddress).map (·, item.2)
  else
    none

/-- The hits of the pair by one thread of a session. -/
def keyHits (key : CallKey) (events : List (String × AnalyzedEvent Value)) :
    List (Site × AnalyzedEvent Value) :=
  events.filterMap (keyHit entryAddress returnAddress key)

/-- The sessions and threads of the documents. -/
def callKeys (documents : List (AnalyzedDocument Value)) : List CallKey :=
  ((sessionEvents documents).map fun item => (item.1, item.2.thread)).dedup

/-- The hits of each session and thread are a window of its invocations, in the order of their
    ticks and sequence numbers. -/
structure HitWindows {Call : Type} (documents : List (AnalyzedDocument Value))
    (window : CallKey → List (Site × Call × AnalyzedEvent Value)) : Prop where
  nested : ∀ key, NestedCalls.Window (NestedCalls.marks (window key))
  ordered : ∀ key, (window key).Pairwise fun x y => x.2.2.sortKey < y.2.2.sortKey
  hits : ∀ key, (keyHits entryAddress returnAddress key (sessionEvents documents)).Perm
    ((window key).map fun x => (x.1, x.2.2))

/-- The pairs of one key are those of a stack that has only the key's hits. -/
structure KeyInv (key : CallKey) (events : List (String × AnalyzedEvent Value))
    (state : PairState Value) : Prop where
  pending : (state.pending.filter fun entry => entry.1 = key).map Prod.snd =
    (NestedCalls.run (keyHits entryAddress returnAddress key events)).stack
  matched : (state.matched.filter fun call => call.key = key) =
    (NestedCalls.run (keyHits entryAddress returnAddress key events)).matched.map
      fun pair => .ofEvents key pair.1 pair.2

section Key

variable {entryAddress returnAddress : Int} {key : CallKey}
variable {events : List (String × AnalyzedEvent Value)} {state : PairState Value}

theorem keyInv_initial : KeyInv entryAddress returnAddress key [] (.initial : PairState Value) where
  pending := rfl
  matched := rfl

theorem keyHits_concat (item : String × AnalyzedEvent Value) :
    keyHits entryAddress returnAddress key (events ++ [item]) =
      keyHits entryAddress returnAddress key events ++
        (keyHit entryAddress returnAddress key item).toList := by
  unfold keyHits
  rw [List.filterMap_append]
  cases h : keyHit entryAddress returnAddress key item <;> simp [h]

/-- An event that is no hit of the key. -/
theorem keyInv_concat_none {state' : PairState Value}
    (inv : KeyInv entryAddress returnAddress key events state) {item : String × AnalyzedEvent Value}
    (hhit : keyHit entryAddress returnAddress key item = none)
    (hpending : state'.pending.filter (fun entry => entry.1 = key) =
      state.pending.filter fun entry => entry.1 = key)
    (hmatched : state'.matched.filter (fun call => call.key = key) =
      state.matched.filter fun call => call.key = key) :
    KeyInv entryAddress returnAddress key (events ++ [item]) state' where
  pending := by
    rw [keyHits_concat, hhit, hpending]
    simpa using inv.pending
  matched := by
    rw [keyHits_concat, hhit, hmatched]
    simpa using inv.matched

theorem filter_eraseP_of_ne {pending : List (CallKey × AnalyzedEvent Value)} {other : CallKey}
    (hne : other ≠ key) :
    (pending.eraseP fun entry => entry.1 = other).filter (fun entry => entry.1 = key) =
      pending.filter fun entry => entry.1 = key := by
  induction pending with
  | nil => rfl
  | cons entry pending ih =>
    by_cases hother : entry.1 = other
    · simp [List.eraseP_cons_of_pos, hother, hne]
    · rw [List.eraseP_cons_of_neg (by simpa using hother)]
      simp only [List.filter_cons, ih]

variable (key) in
/-- The stack of a key loses its latest entry. -/
theorem filter_eraseP_self (pending : List (CallKey × AnalyzedEvent Value)) :
    (pending.eraseP fun entry => entry.1 = key).filter (fun entry => entry.1 = key) =
      (pending.filter fun entry => entry.1 = key).tail := by
  induction pending with
  | nil => rfl
  | cons entry pending ih =>
    by_cases hkey : entry.1 = key
    · rw [List.eraseP_cons_of_pos (by simpa using hkey),
        List.filter_cons_of_pos (by simpa using hkey), List.tail_cons]
    · rw [List.eraseP_cons_of_neg (by simpa using hkey),
        List.filter_cons_of_neg (by simpa using hkey),
        List.filter_cons_of_neg (by simpa using hkey), ih]

theorem step_return {sessionId : String} {event : AnalyzedEvent Value}
    (hpc : event.pc = some returnAddress) (hne : returnAddress ≠ entryAddress) :
    state.step entryAddress returnAddress (sessionId, event) =
      match state.pending.find? fun entry => entry.1 = (sessionId, event.thread) with
      | none => state
      | some (_, entry) =>
        { pending := state.pending.eraseP fun entry => entry.1 = (sessionId, event.thread)
          matched := state.matched ++ [.ofEvents (sessionId, event.thread) entry event] } := by
  simp only [PairState.step, hpc, hne, if_false, if_true]

/-- A return pops the stack of its own key. -/
theorem keyInv_return (inv : KeyInv entryAddress returnAddress key events state)
    {event : AnalyzedEvent Value} (hpc : event.pc = some returnAddress)
    (hne : returnAddress ≠ entryAddress) {sessionId : String}
    (hkey : (sessionId, event.thread) = key) :
    KeyInv entryAddress returnAddress key (events ++ [(sessionId, event)])
      (state.step entryAddress returnAddress (sessionId, event)) := by
  have hhit : keyHit entryAddress returnAddress key (sessionId, event) = some (.leave, event) := by
    simp [keyHit, AnalyzedEvent.site, hpc, hne, hkey]
  obtain ⟨hpending, hmatched⟩ := inv
  have hself := filter_eraseP_self key state.pending
  rw [step_return hpc hne, hkey]
  generalize hrun : NestedCalls.run (keyHits entryAddress returnAddress key events) = paired at *
  obtain ⟨stack, pairs⟩ := paired
  simp only at hpending hmatched
  have hhead : (state.pending.filter fun entry => entry.1 = key).head? =
      state.pending.find? fun entry => entry.1 = key := List.head?_filter
  cases hfind : state.pending.find? fun entry => entry.1 = key with
  | none =>
    rw [hfind, List.head?_eq_none_iff] at hhead
    rw [hhead, List.map_nil] at hpending
    subst hpending
    constructor <;> rw [keyHits_concat, hhit, Option.toList_some, NestedCalls.run_concat, hrun]
    · simp only [hhead]
      rfl
    · exact hmatched
  | some found =>
    obtain ⟨foundKey, entry⟩ := found
    rw [hfind, List.head?_eq_some_iff] at hhead
    obtain ⟨rest, hrest⟩ := hhead
    rw [hrest, List.map_cons] at hpending
    subst hpending
    constructor <;> rw [keyHits_concat, hhit, Option.toList_some, NestedCalls.run_concat, hrun]
    · simp only [hself, hrest, List.tail_cons]
      rfl
    · have hown : (TraceCall.ofEvents key entry event).key = key := rfl
      simp only [List.filter_append, hmatched, NestedCalls.step, List.map_append, List.map_cons,
        List.map_nil, List.filter_cons, List.filter_nil, hown, decide_true, if_true]

/-- A return of another key. -/
theorem keyInv_return_of_ne (inv : KeyInv entryAddress returnAddress key events state)
    {event : AnalyzedEvent Value} (hpc : event.pc = some returnAddress)
    (hne : returnAddress ≠ entryAddress) {sessionId : String}
    (hkey : (sessionId, event.thread) ≠ key) :
    KeyInv entryAddress returnAddress key (events ++ [(sessionId, event)])
      (state.step entryAddress returnAddress (sessionId, event)) := by
  have hhit : keyHit entryAddress returnAddress key (sessionId, event) = none := by
    simp [keyHit, hkey]
  rw [step_return hpc hne]
  cases hfind : state.pending.find? fun entry => entry.1 = (sessionId, event.thread) with
  | none => exact keyInv_concat_none inv hhit rfl rfl
  | some found =>
    refine keyInv_concat_none inv hhit (filter_eraseP_of_ne hkey) ?_
    have hother : (TraceCall.ofEvents (sessionId, event.thread) found.2 event).key ≠ key := hkey
    simp [List.filter_append, hother]

theorem keyInv_step (inv : KeyInv entryAddress returnAddress key events state)
    (item : String × AnalyzedEvent Value) :
    KeyInv entryAddress returnAddress key (events ++ [item])
      (state.step entryAddress returnAddress item) := by
  obtain ⟨sessionId, event⟩ := item
  cases hpc : event.pc with
  | none =>
    have hhit : keyHit entryAddress returnAddress key (sessionId, event) = none := by
      simp [keyHit, AnalyzedEvent.site, hpc]
    have hstep : state.step entryAddress returnAddress (sessionId, event) = state := by
      simp only [PairState.step, hpc]
    rw [hstep]
    exact keyInv_concat_none inv hhit rfl rfl
  | some pc =>
    by_cases hentry : pc = entryAddress
    · have hstep : state.step entryAddress returnAddress (sessionId, event) =
          { state with pending := ((sessionId, event.thread), event) :: state.pending } := by
        simp only [PairState.step, hpc, hentry, if_true]
      rw [hstep]
      by_cases hkey : (sessionId, event.thread) = key
      · have hhit : keyHit entryAddress returnAddress key (sessionId, event) =
            some (.enter, event) := by
          simp [keyHit, AnalyzedEvent.site, hpc, hentry, hkey]
        constructor
        · rw [keyHits_concat, hhit, Option.toList_some, NestedCalls.run_concat]
          simp only [hkey, List.filter_cons, decide_true, if_true, List.map_cons, inv.pending]
          rfl
        · rw [keyHits_concat, hhit, Option.toList_some, NestedCalls.run_concat]
          exact inv.matched
      · refine keyInv_concat_none inv (by simp [keyHit, hkey]) ?_ rfl
        simp [hkey]
    · by_cases hreturn : pc = returnAddress
      · subst hreturn
        by_cases hkey : (sessionId, event.thread) = key
        · exact keyInv_return inv hpc hentry hkey
        · exact keyInv_return_of_ne inv hpc hentry hkey
      · have hhit : keyHit entryAddress returnAddress key (sessionId, event) = none := by
          simp [keyHit, AnalyzedEvent.site, hpc, hentry, hreturn]
        have hstep : state.step entryAddress returnAddress (sessionId, event) = state := by
          simp only [PairState.step, hpc, hentry, hreturn, if_false]
        rw [hstep]
        exact keyInv_concat_none inv hhit rfl rfl

variable (entryAddress returnAddress key) in
theorem keyInv_run (events : List (String × AnalyzedEvent Value)) :
    KeyInv entryAddress returnAddress key events
      (events.foldl (PairState.step entryAddress returnAddress) .initial) := by
  induction events using List.reverseRecOn with
  | nil => exact keyInv_initial
  | append_singleton events item ih =>
    rw [List.foldl_append]
    exact keyInv_step ih item

end Key

/-- A list is the elements of each key, one key after another. -/
theorem perm_flatMap_filter {α κ : Type} [DecidableEq κ] (key : α → κ) {keys : List κ}
    (hnodup : keys.Nodup) {l : List α} (hmem : ∀ a ∈ l, key a ∈ keys) :
    l.Perm (keys.flatMap fun k => l.filter fun a => key a = k) := by
  induction keys generalizing l with
  | nil =>
    cases l with
    | nil => exact .nil
    | cons a l => exact absurd (hmem a List.mem_cons_self) List.not_mem_nil
  | cons k keys ih =>
    obtain ⟨hk, hnodup⟩ := List.nodup_cons.mp hnodup
    have hrest : ∀ a ∈ l.filter fun a => !decide (key a = k), key a ∈ keys := by
      intro a ha
      obtain ⟨ha, hne⟩ := List.mem_filter.mp ha
      exact (List.mem_cons.mp (hmem a ha)).resolve_left (by simpa using hne)
    have hsame : keys.flatMap (fun j => (l.filter fun a => !decide (key a = k)).filter
        fun a => key a = j) = keys.flatMap fun j => l.filter fun a => key a = j := by
      refine List.flatMap_congr fun j hj => ?_
      rw [List.filter_filter]
      refine List.filter_congr fun a _ => ?_
      have hjk : j ≠ k := fun h => hk (h ▸ hj)
      by_cases haj : key a = j <;> simp [haj, hjk]
    rw [List.flatMap_cons, ← hsame]
    exact (List.filter_append_perm _ l).symm.trans ((ih hnodup hrest).append_left _)

/-! ## The law -/

/-- The events in the order of the analysis. -/
theorem analyzedEvents_eq {documents : List (AnalyzedDocument Value)}
    {events : List (String × AnalyzedEvent Value)} (h : analyzedEvents documents = some events) :
    events.Perm (sessionEvents documents) ∧
      events.Pairwise fun left right => left.2.sortKey ≤ right.2.sortKey := by
  unfold analyzedEvents at h
  split at h
  · obtain rfl := Option.some.inj h
    refine ⟨(StableSort.sort_perm _ _).trans ?_, StableSort.sorted_sort _ _⟩
    unfold sessionEvents
    rw [List.flatMap_map]
    refine List.Perm.flatMap_left documents fun document _ => ?_
    exact (StableSort.sort_perm _ _).map _
  · exact absurd h (by simp)

theorem keyHits_sorted {key : CallKey} {events : List (String × AnalyzedEvent Value)}
    (h : events.Pairwise fun left right => left.2.sortKey ≤ right.2.sortKey) :
    (keyHits entryAddress returnAddress key events).Pairwise
      fun left right => left.2.sortKey ≤ right.2.sortKey := by
  refine List.pairwise_filterMap.mpr (h.imp ?_)
  intro left right hle leftHit hleft rightHit hright
  have hevent : ∀ {item : String × AnalyzedEvent Value} {hit : Site × AnalyzedEvent Value},
      keyHit entryAddress returnAddress key item = some hit → hit.2 = item.2 := by
    intro item hit hhit
    unfold keyHit at hhit
    split at hhit
    · obtain ⟨site, -, rfl⟩ := Option.map_eq_some_iff.mp hhit
      rfl
    · exact absurd hhit (by simp)
  rw [hevent hleft, hevent hright]
  exact hle

section Window

variable {entryAddress returnAddress : Int} {Call : Type}
variable {documents : List (AnalyzedDocument Value)} {events : List (String × AnalyzedEvent Value)}
variable {window : CallKey → List (Site × Call × AnalyzedEvent Value)}

/-- The sorts bring the hits of a key into the order of its window. -/
theorem keyHits_window (h : analyzedEvents documents = some events)
    (hwindows : HitWindows entryAddress returnAddress documents window) (key : CallKey) :
    keyHits entryAddress returnAddress key events =
      (window key).map fun x => (x.1, x.2.2) := by
  obtain ⟨hperm, hsorted⟩ := analyzedEvents_eq h
  have hhits := (hperm.filterMap (keyHit entryAddress returnAddress key)).trans
    (hwindows.hits key)
  have hstrict : ((window key).map fun x => (x.1, x.2.2)).Pairwise
      fun left right => left.2.sortKey < right.2.sortKey :=
    List.pairwise_map.mpr (hwindows.ordered key)
  refine hhits.eq_of_pairwise ?_ (keyHits_sorted entryAddress returnAddress hsorted)
    (hstrict.imp le_of_lt)
  -- a hit of a window is known by its tick and sequence number
  have hnodup : (((window key).map fun x => (x.1, x.2.2)).map fun hit => hit.2.sortKey).Nodup :=
    List.pairwise_map.mpr (hstrict.imp ne_of_lt)
  intro left right hleft hright hle hge
  exact List.inj_on_of_nodup_map hnodup (hhits.mem_iff.mp hleft) hright (le_antisymm hle hge)

variable [DecidableEq Call]

/-- The calls of a key, of its hits in the window. -/
def windowCalls (window : CallKey → List (Site × Call × AnalyzedEvent Value)) (key : CallKey) :
    List (TraceCall Value) :=
  (NestedCalls.calls (window key)).map fun pair => .ofEvents key pair.1.2 pair.2.2

theorem analyzePair_key (h : analyzedEvents documents = some events)
    (hwindows : HitWindows entryAddress returnAddress documents window) (key : CallKey) :
    let state := events.foldl (PairState.step entryAddress returnAddress) .initial
    (state.matched.filter fun call => call.key = key).Perm (windowCalls window key) ∧
      (state.pending.filter fun entry => entry.1 = key).length =
        (NestedCalls.unfinished (window key)).length := by
  intro state
  obtain ⟨hpending, hmatched⟩ := keyInv_run entryAddress returnAddress key events
  rw [keyHits_window h hwindows] at hpending hmatched
  have hrun := NestedCalls.run_map Prod.snd (window key)
  obtain ⟨hcalls, hunfinished⟩ := NestedCalls.run_window (hwindows.nested key)
  constructor
  · rw [hmatched, hrun, windowCalls]
    simp only [NestedCalls.Paired.map, List.map_map]
    exact hcalls.map _
  · rw [← List.length_map (f := Prod.snd), hpending, hrun]
    simpa [NestedCalls.Paired.map] using hunfinished.length_eq

/-- The report of a pair has the calls of the windows, each once, and counts the entries in them
    that are not left there. -/
structure PairLaw (documents : List (AnalyzedDocument Value))
    (window : CallKey → List (Site × Call × AnalyzedEvent Value)) (report : PairReport Value) :
    Prop where
  calls : report.calls.Perm ((callKeys documents).flatMap (windowCalls window))
  matched : report.matched = report.calls.length
  unmatchedEntries : report.unmatchedEntries =
    ((callKeys documents).map fun key => (NestedCalls.unfinished (window key)).length).sum

variable (entryAddress returnAddress) in
theorem mem_callKeys {key : CallKey}
    (h : keyHits entryAddress returnAddress key (sessionEvents documents) ≠ []) :
    key ∈ callKeys documents := by
  obtain ⟨hit, hhit⟩ := List.exists_mem_of_ne_nil _ h
  obtain ⟨item, hitem, hkey⟩ := List.mem_filterMap.mp hhit
  unfold keyHit at hkey
  split at hkey
  · next hsame =>
    rw [callKeys, List.mem_dedup, ← hsame]
    exact List.mem_map_of_mem (f := fun item => (item.1, item.2.thread)) hitem
  · exact absurd hkey (by simp)

variable (entryAddress returnAddress) in
/-- Only keys with hits have calls or entries. -/
theorem key_mem_callKeys (h : analyzedEvents documents = some events) :
    let state := events.foldl (PairState.step entryAddress returnAddress) .initial
    (∀ call ∈ state.matched, call.key ∈ callKeys documents) ∧
      ∀ entry ∈ state.pending, entry.1 ∈ callKeys documents := by
  intro state
  have hhits : ∀ key, keyHits entryAddress returnAddress key (sessionEvents documents) = [] →
      NestedCalls.run (keyHits entryAddress returnAddress key events) = .empty := by
    intro key hnone
    have hperm := (analyzedEvents_eq h).1.filterMap (keyHit entryAddress returnAddress key)
    have hempty : keyHits entryAddress returnAddress key events = [] :=
      (hnone ▸ hperm : List.Perm _ []).eq_nil
    rw [hempty]
    rfl
  constructor
  · intro call hcall
    refine mem_callKeys entryAddress returnAddress ?_
    intro hnone
    have hmatched := (keyInv_run entryAddress returnAddress call.key events).matched
    rw [hhits call.key hnone] at hmatched
    exact List.filter_eq_nil_iff.mp hmatched call hcall (by simp)
  · intro entry hentry
    refine mem_callKeys entryAddress returnAddress ?_
    intro hnone
    have hpending := (keyInv_run entryAddress returnAddress entry.1 events).pending
    rw [hhits entry.1 hnone] at hpending
    exact List.filter_eq_nil_iff.mp (List.map_eq_nil_iff.mp hpending) entry hentry (by simp)

theorem pairLaw_analyzePair (h : analyzedEvents documents = some events)
    (hwindows : HitWindows entryAddress returnAddress documents window) :
    PairLaw documents window (analyzePair events (entryAddress, returnAddress)) := by
  have hkeys := analyzePair_key h hwindows
  obtain ⟨hcalls, hentries⟩ := key_mem_callKeys entryAddress returnAddress h
  have hnodup : (callKeys documents).Nodup := List.nodup_dedup _
  refine ⟨?_, rfl, ?_⟩
  · refine (perm_flatMap_filter TraceCall.key hnodup hcalls).trans ?_
    exact List.Perm.flatMap_left _ fun key _ => (hkeys key).1
  · have hlength := (perm_flatMap_filter Prod.fst hnodup hentries).length_eq
    rw [List.length_flatMap] at hlength
    refine hlength.trans (congrArg List.sum ?_)
    exact List.map_congr_left fun key _ => (hkeys key).2

end Window

theorem analyzedEvents_isSome {documents : List (AnalyzedDocument Value)}
    (hplaced : ∀ document ∈ documents, ∀ event ∈ document.events, event.placed) :
    ∃ events, analyzedEvents documents = some events := by
  unfold analyzedEvents
  rw [if_pos]
  · exact ⟨_, rfl⟩
  · rw [List.all_eq_true]
    intro document hdocument
    rw [List.all_eq_true]
    exact hplaced document hdocument

/-- The calls of a pair whose hits are windows of well nested invocations. -/
theorem window_calls_reported {Call : Type} [DecidableEq Call]
    (documents : List (AnalyzedDocument Value)) (pairs : List (Int × Int))
    (hplaced : ∀ document ∈ documents, ∀ event ∈ document.events, event.placed) :
    ∃ reports, analyzeTraceDocuments documents pairs = some reports ∧
      ∀ (i : Nat) (entryAddress returnAddress : Int), pairs[i]? = some (entryAddress, returnAddress) →
        ∀ window : CallKey → List (Site × Call × AnalyzedEvent Value),
          HitWindows entryAddress returnAddress documents window →
            ∃ report, reports[i]? = some report ∧ report.entry = entryAddress ∧
              report.return_ = returnAddress ∧ PairLaw documents window report := by
  obtain ⟨events, hevents⟩ := analyzedEvents_isSome hplaced
  refine ⟨pairs.map (analyzePair events), by rw [analyzeTraceDocuments, hevents]; rfl, ?_⟩
  intro i entryAddress returnAddress hpair window hwindows
  refine ⟨analyzePair events (entryAddress, returnAddress), ?_, rfl, rfl,
    pairLaw_analyzePair hevents hwindows⟩
  rw [List.getElem?_map, hpair]
  rfl

namespace CallPairing

/-- A hit with its sequence number as its tick. -/
def hit (seq : Nat) (pc : Int) : AnalyzedEvent Nat where
  tick := some seq
  seq := some seq
  thread := "1"
  pc := some pc
  tickField := some seq
  seqField := some seq
  pcField := none
  x0 := none

def documents : List (AnalyzedDocument Nat) :=
  [{ sessionId := "s", events := [hit 4 0x2000, hit 2 0x1000, hit 1 0x2000, hit 3 0x1000] }]

/-- The first call was entered before the window, and the second is left behind it. -/
def window (key : CallKey) : List (Site × Nat × AnalyzedEvent Nat) :=
  if key = ("s", "1") then
    [(.leave, 0, hit 1 0x2000), (.enter, 1, hit 2 0x1000), (.enter, 2, hit 3 0x1000),
      (.leave, 2, hit 4 0x2000)]
  else
    []

theorem hitWindows : HitWindows 0x1000 0x2000 documents window where
  nested key := by
    unfold window
    split
    · refine ⟨[(.enter, 0)], [(.leave, 1)], ?_, by decide⟩
      exact .call 0 .nil (.call 1 (.call 2 .nil .nil) .nil)
    · exact ⟨[], [], .nil, List.nodup_nil⟩
  ordered key := by
    unfold window
    split
    · decide
    · exact .nil
  hits key := by
    unfold window
    split
    · next h =>
      subst h
      decide
    · next h => simp [keyHits, sessionEvents, documents, keyHit, hit, Ne.symm h]

end CallPairing

theorem window_calls_reported_recursive :
    ∃ reports, analyzeTraceDocuments CallPairing.documents [(0x1000, 0x2000)] = some reports ∧
      ∃ report, reports[0]? = some report ∧ report.matched = 1 ∧ report.unmatchedEntries = 1 := by
  obtain ⟨reports, hreports, hlaw⟩ :=
    @window_calls_reported Nat Nat _ CallPairing.documents [(0x1000, 0x2000)] (by decide)
  obtain ⟨report, hreport, -, -, hlaw⟩ :=
    hlaw 0 0x1000 0x2000 rfl CallPairing.window CallPairing.hitWindows
  refine ⟨reports, hreports, report, hreport, ?_, ?_⟩
  · rw [hlaw.matched, hlaw.calls.length_eq]
    decide
  · rw [hlaw.unmatchedEntries]
    decide

end SysAgent
