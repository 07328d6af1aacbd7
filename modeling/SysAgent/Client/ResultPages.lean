import SysAgent.Client.SearchResults
import SysAgent.Search.ExactAgreement

set_option autoImplicit false

/-! # All results of a session, page by page (`sysagent.py`, `search.c`)

`iter_results` asks for one page after another while the worker and the commands of other clients go
on. Of an exact search it hands out the results in their order, each once, up to all that are stored
when it returns. The results of an unknown search only get fewer; what it hands out is a part of
those at the start, in their order, and all of them unless some were dropped meanwhile. -/

namespace SysAgent

open Runs

/-! ## The sysmodule -/

inductive SearchDeviceStep
  | start (a : StartArguments) (process : Option ProcessMemoryMetadata) (allocated : Bool)
      (world : ExactSearch.SearchWorld)
  | startRegion (a : StartRegionArguments) (process : Option ProcessMemoryMetadata)
      (allocated : Bool) (world : ExactSearch.SearchWorld)
  | begin (a : BeginArguments)
  | beginQueue (world : BeginWorld)
  | refine (sessionId : UInt64) (a : RefineArguments)
  | refineQueue (world : RefineWorld)
  | cancel (sessionId : UInt64)
  | close (sessionId : UInt64)
  | shutdown
  | exactWorker
  | unknownWorker (answers : UnknownSearch.WorkerAnswers)

namespace SearchDevice

def exactStep (d : SearchDevice) (a : ExactSearch.Step) : SearchDevice :=
  { d with exact := ExactSearch.step d.exact a }

def unknownStep (d : SearchDevice) (a : UnknownSearch.Step) : SearchDevice :=
  { d with unknown := UnknownSearch.step d.unknown a }

/-- `unknownSearchHasSession` -/
def hasUnknownSession (d : SearchDevice) : Bool := d.unknown.manager.sessionId ≠ 0

def unknownActive (d : SearchDevice) : Bool :=
  match d.unknown.manager.session with
  | none => false
  | some x => x.state.isActive

/-- `searchStart` and `searchStartRegion` with what they ask for. -/
def startWith (d : SearchDevice) (request : Except SearchStartResult SearchRequest)
    (allocated : Bool) (world : ExactSearch.SearchWorld) : SearchDevice :=
  match request with
  | .error _ => d
  | .ok request => d.exactStep (.start d.hasUnknownSession allocated request world)

def step (d : SearchDevice) : SearchDeviceStep → SearchDevice
  | .start a process allocated world => d.startWith (requestStart a process) allocated world
  | .startRegion a process allocated world =>
    d.startWith (requestStartRegion a process) allocated world
  | .begin a =>
    -- `searchBeginUnknown` looks at both managers
    if d.exact.manager.active || d.unknownActive then d else d.unknownStep (.begin a)
  | .beginQueue world => d.unknownStep (.beginQueue world)
  | .refine sessionId a => d.unknownStep (.refine sessionId a)
  | .refineQueue world => d.unknownStep (.refineQueue world)
  | .cancel sessionId =>
    if SearchSystem.isUnknownId sessionId then d.unknownStep (.cancel sessionId)
    else d.exactStep (.cancel sessionId)
  | .close sessionId =>
    if SearchSystem.isUnknownId sessionId then d.unknownStep (.close sessionId)
    else d.exactStep (.close sessionId)
  | .shutdown => (d.unknownStep .shutdown).exactStep .shutdown
  | .exactWorker => d.exactStep .worker
  | .unknownWorker answers => d.unknownStep (.worker answers)

/-- After `searchInitialize`. -/
def initial (threadCreated threadStarted storageAvailable : Bool) : SearchDevice where
  exact := ExactSearch.initial threadCreated threadStarted
  unknown := UnknownSearch.initial storageAvailable

/-- The session ids do not run out, and the restoring rename of a commit succeeds where it is
    needed. -/
def Lawful (d : SearchDevice) : SearchDeviceStep → Prop
  | .start _ _ _ _ => d.exact.manager.nextSessionId.toNat < 2 ^ 63
  | .startRegion _ _ _ _ => d.exact.manager.nextSessionId.toNat < 2 ^ 63
  | .beginQueue world => UnknownSearch.Careful d.unknown (.beginQueue world)
  | .unknownWorker answers => UnknownSearch.Careful d.unknown (.worker answers)
  | _ => True

end SearchDevice

/-! ## The client -/

inductive IterationEnd
  | returned
  | raised
  deriving DecidableEq

/-- The variables of `iter_results`, and what it has handed out. -/
structure ResultIteration where
  session : UInt64
  pageSize : Nat
  offset : Nat
  yielded : List Int
  ended : Option IterationEnd

/-- `iter_results` up to its loop, `none` for a `ValueError`. -/
def iterResults (session : UInt64) (pageSize : Int) : Option ResultIteration :=
  if pageSize ≤ 0 ∨ 256 < pageSize then none
  else
    some
      { session := session, pageSize := pageSize.toNat, offset := 0, yielded := [], ended := none }

namespace ResultIteration

/-- A turn of the loop with what `results` returns. -/
def page (it : ResultIteration) (answer : Except ResultsError (List Int × Int)) : ResultIteration :=
  match answer with
  | .error _ => { it with ended := some .raised }
  | .ok (addresses, stored) =>
    let offset := it.offset + addresses.length
    { it with
      offset := offset
      yielded := it.yielded ++ addresses
      ended := if addresses = [] ∨ stored ≤ offset then some .returned else none }

/-- A turn of the loop; `answered` says whether a line comes back. -/
def turn (answered reads : Bool) (d : SearchDevice) (it : ResultIteration) : ResultIteration :=
  match it.ended with
  | some _ => it
  | none =>
    match serveResults reads d (resultsCommand it.session.toNat it.offset it.pageSize) with
    | none => { it with ended := some .raised }
    | some line =>
      if answered then it.page (results line.text) else { it with ended := some .raised }

end ResultIteration

/-! ## Both -/

structure PagingSystem where
  device : SearchDevice
  iteration : ResultIteration

inductive PagingStep
  | device (a : SearchDeviceStep)
  | turn (answered reads : Bool)

namespace PagingSystem

def step (s : PagingSystem) : PagingStep → PagingSystem
  | .device a => { s with device := s.device.step a }
  | .turn answered reads => { s with iteration := s.iteration.turn answered reads s.device }

def Lawful (s : PagingSystem) : PagingStep → Prop
  | .device a => s.device.Lawful a
  | .turn _ _ => True

end PagingSystem

/-- The results that the sysmodule lists for a session. -/
def Listed (d : SearchDevice) (session : UInt64) (addresses : List UInt64) : Prop :=
  if SearchSystem.isUnknownId session then
    ∃ x, d.unknown.manager.session = some x ∧ x.sessionId = session ∧ x.state.isActive = false ∧
      x.committed = true ∧ UnknownSearch.Lists d.unknown.dir addresses x.candidates ∧
      addresses.length = x.candidates.toNat
  else
    ∃ x, d.exact.manager.session = some x ∧ x.sessionId = session ∧
      addresses = x.status.results.map UInt64.ofNat

/-! ## A turn -/

section Turn

variable {d : SearchDevice} {it : ResultIteration}

theorem asInts_append (front back : List UInt64) :
    asInts (front ++ back) = asInts front ++ asInts back :=
  List.map_append

theorem asInts_eq_nil {addresses : List UInt64} : asInts addresses = [] ↔ addresses = [] :=
  List.map_eq_nil_iff

theorem length_page {α : Type} (items : List α) (offset count : Nat) :
    (page items offset count).length = min count (items.length - offset) := by
  rw [page, List.length_take, List.length_drop]

/-- What one turn can come to. -/
theorem turn_cases (answered reads : Bool) (hrunning : it.ended = none)
    (hoffset : it.offset < 2 ^ 64) (hsize : it.pageSize ≤ 256) :
    (∃ addresses total, answered = true ∧
      searchCopyResults reads it.session (UInt64.ofNat it.offset) (UInt64.ofNat it.pageSize) d =
        .ok addresses total ∧
      (addresses.length < 2 ^ 64 →
        it.turn answered reads d = it.page (.ok (asInts addresses, (total.toNat : Int))))) ∨
      (answered = false ∨ ∀ addresses total,
        searchCopyResults reads it.session (UInt64.ofNat it.offset) (UInt64.ofNat it.pageSize) d ≠
          .ok addresses total) ∧
        it.turn answered reads d = { it with ended := some .raised } := by
  have hsession : UInt64.ofNat it.session.toNat = it.session := UInt64.ofNat_toNat
  unfold ResultIteration.turn
  rw [hrunning]
  dsimp only
  cases hserved : serveResults reads d
      (resultsCommand it.session.toNat it.offset it.pageSize) with
  | none =>
    refine .inr ⟨.inr ?_, rfl⟩
    intro addresses total hcopied
    rw [serve_resultsCommand reads d it.session.toNat_lt hoffset (by omega), hsession,
      hcopied] at hserved
    cases hserved
  | some line =>
    cases answered with
    | false => exact .inr ⟨.inl rfl, rfl⟩
    | true =>
      dsimp only
      rw [if_pos rfl]
      have hround := results_serveResults reads d it.session.toNat_lt hoffset
        (by omega : it.pageSize < 2 ^ 64) hserved
      rw [hsession] at hround
      rcases hround with ⟨addresses, total, hcopied, hread⟩ | ⟨hnone, herror⟩
      · refine .inl ⟨addresses, total, rfl, hcopied, ?_⟩
        intro hlength
        rw [hread hlength]
      · refine .inr ⟨.inr hnone, ?_⟩
        rw [herror]
        rfl

/-- A turn that gets a page of a list. -/
theorem turn_page {reads : Bool} {listed : List UInt64} {total : UInt64}
    (hrunning : it.ended = none) (hoffset : it.offset < 2 ^ 64) (hpositive : 0 < it.pageSize)
    (hsize : it.pageSize ≤ 256) (htotal : total.toNat = listed.length)
    (hcopied : searchCopyResults reads it.session (UInt64.ofNat it.offset)
      (UInt64.ofNat it.pageSize) d = .ok (page listed it.offset it.pageSize) total) :
    it.turn true reads d =
      { it with
        offset := it.offset + (page listed it.offset it.pageSize).length
        yielded := it.yielded ++ asInts (page listed it.offset it.pageSize)
        ended := if listed.length ≤ it.offset + it.pageSize then some .returned else none } := by
  have hlength := length_page listed it.offset it.pageSize
  rcases @turn_cases d it true reads hrunning hoffset hsize with
    ⟨addresses, total', -, hcopied', hturn⟩ | ⟨hfails | hnone, -⟩
  · rw [hcopied] at hcopied'
    obtain ⟨rfl, rfl⟩ := SearchResultsAnswer.ok.inj hcopied'
    rw [hturn (by rw [hlength]; omega), ResultIteration.page]
    have hints : (asInts (page listed it.offset it.pageSize)).length =
        (page listed it.offset it.pageSize).length := List.length_map _
    have hends : (asInts (page listed it.offset it.pageSize) = [] ∨
        (total.toNat : Int) ≤ (it.offset + (asInts (page listed it.offset it.pageSize)).length : Nat)) ↔
        listed.length ≤ it.offset + it.pageSize := by
      rw [asInts_eq_nil, ← List.length_eq_zero_iff, hints, hlength, htotal]
      omega
    simp only [hends]
    rw [hints]
  · cases hfails
  · exact absurd hcopied (hnone _ _)

/-- The next page behind a front of the list makes a longer front. -/
theorem prefix_append_page {α : Type} {handed items : List α} (h : handed <+: items) (count : Nat) :
    handed ++ page items handed.length count <+: items := by
  obtain ⟨rest, rfl⟩ := h
  rw [page, List.drop_left]
  exact List.prefix_append_right_inj handed |>.2 (List.take_prefix count rest)

/-- What has been handed out and what is behind it is the same before a page as after it. -/
theorem append_page_drop {α : Type} (handed items : List α) (count : Nat) :
    handed ++ page items handed.length count ++
        items.drop (handed ++ page items handed.length count).length =
      handed ++ items.drop handed.length := by
  have hsplit := List.take_append_drop count (items.drop handed.length)
  have hlength := length_page items handed.length count
  rw [List.append_assoc]
  refine congrArg (handed ++ ·) ?_
  rw [List.length_append, hlength, ← List.drop_drop]
  rw [page]
  rcases Nat.le_total count (items.length - handed.length) with hle | hle
  · rw [Nat.min_eq_left hle]
    exact hsplit
  · rw [Nat.min_eq_right hle, List.take_of_length_le (by rw [List.length_drop]; exact hle)]
    have hempty : (items.drop handed.length).drop (items.length - handed.length) = [] :=
      List.drop_of_length_le (by rw [List.length_drop])
    rw [hempty, List.append_nil]

end Turn

/-! ## An iteration over any kind of session -/

/-- The sysmodule answers for the session with pages of this list. -/
def Serves (reads : Bool) (d : SearchDevice) (session : UInt64) (listed : List UInt64) : Prop :=
  ∃ total : UInt64, total.toNat = listed.length ∧ ∀ offset < 2 ^ 64, ∀ count ≤ 256,
    searchCopyResults reads session (UInt64.ofNat offset) (UInt64.ofNat count) d =
      .ok (page listed offset count) total

/-- It does not answer with addresses. -/
def Refuses (reads : Bool) (d : SearchDevice) (session : UInt64) : Prop :=
  ∀ offset count addresses total,
    searchCopyResults reads session offset count d ≠ .ok addresses total

/-- What may be said of the addresses that have been handed out: the steps of the sysmodule keep it,
    and so does the next page. -/
structure PageLaw (session : UInt64) (Holds : List UInt64 → SearchDevice → Prop) : Prop where
  step : ∀ handed d a, Holds handed d → d.Lawful a → Holds handed (d.step a)
  answers : ∀ handed d reads, Holds handed d →
    (∃ listed, Serves reads d session listed) ∨ Refuses reads d session
  page : ∀ handed d reads listed count, Holds handed d → Serves reads d session listed →
    count ≤ 256 → Holds (handed ++ page listed handed.length count) d
  bound : ∀ handed d, Holds handed d → handed.length < 2 ^ 64

/-- An iteration after a number of turns. -/
structure Iterating (session : UInt64) (pageSize : Nat)
    (Holds : List UInt64 → SearchDevice → Prop) (turns : Nat) (s : PagingSystem) : Prop where
  session_eq : s.iteration.session = session
  pageSize_eq : s.iteration.pageSize = pageSize
  handed : ∃ handed, s.iteration.yielded = asInts handed ∧ s.iteration.offset = handed.length ∧
    Holds handed s.device
  full : s.iteration.ended = none → s.iteration.offset = pageSize * turns

def PagingStep.isTurn : PagingStep → Bool
  | .device _ => false
  | .turn _ _ => true

section Iteration

variable {session : UInt64} {pageSize turns : Nat} {Holds : List UInt64 → SearchDevice → Prop}
  {s : PagingSystem}

/-- The turn gets a page. -/
theorem Iterating.served (law : PageLaw session Holds) (h : Iterating session pageSize Holds turns s)
    (hpositive : 0 < pageSize) (hsize : pageSize ≤ 256) (hrunning : s.iteration.ended = none)
    {reads : Bool} {listed : List UInt64} (hserves : Serves reads s.device session listed) :
    s.iteration.turn true reads s.device =
      { s.iteration with
        offset := s.iteration.offset + (page listed s.iteration.offset pageSize).length
        yielded := s.iteration.yielded ++ asInts (page listed s.iteration.offset pageSize)
        ended :=
          if listed.length ≤ s.iteration.offset + pageSize then some .returned else none } := by
  obtain ⟨handed, hyielded, hoffset, hholds⟩ := h.handed
  obtain ⟨total, htotal, hcopies⟩ := hserves
  have hbound : s.iteration.offset < 2 ^ 64 := by
    rw [hoffset]
    exact law.bound handed s.device hholds
  obtain rfl := h.pageSize_eq
  refine turn_page hrunning hbound hpositive hsize htotal ?_
  rw [h.session_eq]
  exact hcopies _ hbound _ hsize

/-- The turn gets no page. -/
theorem Iterating.refused (law : PageLaw session Holds)
    (h : Iterating session pageSize Holds turns s) (hsize : pageSize ≤ 256)
    (hrunning : s.iteration.ended = none) {answered reads : Bool}
    (hrefused : answered = false ∨ Refuses reads s.device session) :
    s.iteration.turn answered reads s.device = { s.iteration with ended := some .raised } := by
  obtain ⟨handed, hyielded, hoffset, hholds⟩ := h.handed
  have hbound : s.iteration.offset < 2 ^ 64 := by
    rw [hoffset]
    exact law.bound handed s.device hholds
  rcases @turn_cases s.device s.iteration answered reads hrunning hbound
    (by rw [h.pageSize_eq]; exact hsize) with ⟨addresses, total, hanswered, hcopied, -⟩ | ⟨-, hturn⟩
  · rcases hrefused with hlost | hrefuses
    · rw [hlost] at hanswered
      cases hanswered
    · rw [h.session_eq] at hcopied
      exact absurd hcopied (hrefuses _ _ _ _)
  · exact hturn

theorem Iterating.turn (law : PageLaw session Holds) (h : Iterating session pageSize Holds turns s)
    (hpositive : 0 < pageSize) (hsize : pageSize ≤ 256) (answered reads : Bool) :
    Iterating session pageSize Holds (turns + 1) (s.step (.turn answered reads)) := by
  obtain ⟨handed, hyielded, hoffset, hholds⟩ := h.handed
  cases hrunning : s.iteration.ended with
  | some ended =>
    have hturn : s.iteration.turn answered reads s.device = s.iteration := by
      rw [ResultIteration.turn, hrunning]
    rw [PagingSystem.step, hturn]
    refine ⟨h.session_eq, h.pageSize_eq, h.handed, ?_⟩
    intro hnone
    cases hrunning.symm.trans hnone
  | none =>
    by_cases hpage : answered = true ∧ ∃ listed, Serves reads s.device session listed
    · obtain ⟨rfl, listed, hserves⟩ := hpage
      have hturn := h.served law hpositive hsize hrunning hserves
      have hlength := length_page listed s.iteration.offset pageSize
      rw [PagingSystem.step, hturn]
      refine ⟨h.session_eq, h.pageSize_eq,
        ⟨handed ++ page listed handed.length pageSize, ?_, ?_, ?_⟩, ?_⟩
      · rw [asInts_append, ← hyielded, ← hoffset]
      · rw [List.length_append, ← hoffset]
      · exact law.page handed s.device reads listed pageSize hholds hserves hsize
      · intro hgoes
        -- the page was full
        have hfull := h.full hrunning
        have hmore : ¬ listed.length ≤ s.iteration.offset + pageSize := by
          intro hle
          rw [if_pos hle] at hgoes
          cases hgoes
        show s.iteration.offset + (page listed s.iteration.offset pageSize).length =
          pageSize * (turns + 1)
        rw [hlength, Nat.min_eq_left (by omega), hfull]
        ring
    · have hrefused : answered = false ∨ Refuses reads s.device session := by
        cases answered with
        | false => exact .inl rfl
        | true =>
          rcases law.answers handed s.device reads hholds with hserves | hrefuses
          · exact absurd ⟨rfl, hserves⟩ hpage
          · exact .inr hrefuses
      rw [PagingSystem.step, h.refused law hsize hrunning hrefused]
      refine ⟨h.session_eq, h.pageSize_eq, h.handed, ?_⟩
      intro hnone
      cases hnone

theorem Iterating.device (law : PageLaw session Holds)
    (h : Iterating session pageSize Holds turns s) {a : SearchDeviceStep}
    (hlawful : s.device.Lawful a) :
    Iterating session pageSize Holds turns (s.step (.device a)) := by
  obtain ⟨handed, hyielded, hoffset, hholds⟩ := h.handed
  exact ⟨h.session_eq, h.pageSize_eq,
    ⟨handed, hyielded, hoffset, law.step handed s.device a hholds hlawful⟩, h.full⟩

theorem Iterating.run (law : PageLaw session Holds) (hpositive : 0 < pageSize)
    (hsize : pageSize ≤ 256) {steps : List PagingStep}
    (h : Iterating session pageSize Holds turns s)
    (hsteps : EachStep PagingSystem.step PagingSystem.Lawful s steps) :
    Iterating session pageSize Holds (turns + steps.countP PagingStep.isTurn)
      (Runs.run PagingSystem.step s steps) := by
  induction steps generalizing s turns with
  | nil => exact h
  | cons a steps ih =>
    obtain ⟨hfirst, hrest⟩ := eachStep_cons.1 hsteps
    cases a with
    | device a =>
      have hnext := ih (h.device law hfirst) hrest
      rw [List.countP_cons_of_neg (by simp [PagingStep.isTurn])]
      exact hnext
    | turn answered reads =>
      have hnext := ih (h.turn law hpositive hsize answered reads) hrest
      rw [List.countP_cons_of_pos rfl]
      rw [Nat.add_right_comm, Nat.add_assoc] at hnext
      exact hnext

end Iteration

/-! ## Pages of an exact search -/

section Exact

open ExactSearch

variable {session : UInt64} {s : PagingSystem}

theorem exactCopyResults_page {results : List Nat} {e : ExactSearch.State} {offset count : Nat}
    (h : Since session results e) {x : Session} (hx : e.manager.session = some x)
    (hsame : x.sessionId = session) (hoffset : offset < 2 ^ 64) (hcount : count ≤ 256) :
    exactCopyResults session (UInt64.ofNat offset) (UInt64.ofNat count) e =
      .ok (page (x.status.results.map UInt64.ofNat) offset count)
        (UInt64.ofNat x.status.results.length) := by
  obtain ⟨hstored, hroom⟩ := h.counted x hx
  have hmax : SEARCH_MAX_RESULTS = 65536 := rfl
  have hid : session ≠ 0 ∧ x.sessionId = session := ⟨hsame ▸ (h.earlier x hx).1, hsame⟩
  have hsmall : ∀ n, n < 2 ^ 64 → (UInt64.ofNat n).toNat = n := by
    intro n hn
    rw [UInt64.toNat_ofNat', Nat.mod_eq_of_lt hn]
  have hoffset' := hsmall offset hoffset
  have hcount' := hsmall count (by omega)
  have hlength := hsmall x.status.results.length (by omega)
  have hcapped : pageCount (UInt64.ofNat count) = UInt64.ofNat count := by
    rw [pageCount, if_neg]
    rw [gt_iff_lt, UInt64.lt_iff_toNat_lt, hcount', SEARCH_MAX_PAGE_RESULTS]
    exact Nat.not_lt.2 hcount
  -- the number of addresses that are copied
  have hcopied : (if UInt64.ofNat offset ≥ UInt64.ofNat x.status.results.length then 0
      else if UInt64.ofNat count > UInt64.ofNat x.status.results.length - UInt64.ofNat offset then
        UInt64.ofNat x.status.results.length - UInt64.ofNat offset
      else UInt64.ofNat count).toNat = min count (x.status.results.length - offset) := by
    by_cases hbehind : x.status.results.length ≤ offset
    · have hge : UInt64.ofNat offset ≥ UInt64.ofNat x.status.results.length := by
        rw [ge_iff_le, UInt64.le_iff_toNat_le, hoffset', hlength]
        exact hbehind
      rw [if_pos hge, Nat.sub_eq_zero_of_le hbehind, Nat.min_zero]
      rfl
    · have hge : ¬ UInt64.ofNat offset ≥ UInt64.ofNat x.status.results.length := by
        rw [ge_iff_le, UInt64.le_iff_toNat_le, hoffset', hlength]
        exact hbehind
      have hleft : (UInt64.ofNat x.status.results.length - UInt64.ofNat offset).toNat =
          x.status.results.length - offset := by
        rw [UInt64.toNat_sub_of_le, hlength, hoffset']
        rw [UInt64.le_iff_toNat_le, hoffset', hlength]
        omega
      rw [if_neg hge]
      split
      · rename_i hmore
        rw [gt_iff_lt, UInt64.lt_iff_toNat_lt, hleft, hcount'] at hmore
        rw [hleft, Nat.min_eq_right hmore.le]
      · rename_i hmore
        rw [gt_iff_lt, UInt64.lt_iff_toNat_lt, hleft, hcount'] at hmore
        rw [hcount', Nat.min_eq_left (Nat.le_of_not_lt hmore)]
  have hpage : (page x.status.results offset (min count (x.status.results.length - offset))).map
      UInt64.ofNat = page (x.status.results.map UInt64.ofNat) offset count := by
    rw [page, page, List.map_take, List.map_drop, List.take_eq_take_min, List.length_drop,
      List.length_map, Nat.min_assoc, Nat.min_self, ← List.length_map UInt64.ofNat,
      ← List.length_drop, ← List.take_eq_take_min]
  unfold exactCopyResults
  rw [hx]
  dsimp only
  rw [if_pos hid, hstored, hcapped, hoffset', hcopied, hpage]

/-- What the steps of the sysmodule are for the exact manager. -/
theorem exact_of_step {d : SearchDevice} {a : SearchDeviceStep} (h : d.Lawful a) :
    (d.step a).exact = d.exact ∨
      ∃ e, IdsLeft d.exact e ∧ (d.step a).exact = ExactSearch.step d.exact e := by
  have hstart : ∀ request allocated world, d.exact.manager.nextSessionId.toNat < 2 ^ 63 →
      (d.startWith request allocated world).exact = d.exact ∨
        ∃ e, IdsLeft d.exact e ∧
          (d.startWith request allocated world).exact = ExactSearch.step d.exact e := by
    intro request allocated world hleft
    cases request with
    | error result => exact .inl rfl
    | ok request => exact .inr ⟨.start d.hasUnknownSession allocated request world, hleft, rfl⟩
  cases a with
  | start a process allocated world => exact hstart _ allocated world h
  | startRegion a process allocated world => exact hstart _ allocated world h
  | begin a =>
    rw [SearchDevice.step]
    split
    · exact .inl rfl
    · exact .inl rfl
  | beginQueue world => exact .inl rfl
  | refine sessionId a => exact .inl rfl
  | refineQueue world => exact .inl rfl
  | cancel sessionId =>
    rw [SearchDevice.step]
    split
    · exact .inl rfl
    · exact .inr ⟨.cancel sessionId, trivial, rfl⟩
  | close sessionId =>
    rw [SearchDevice.step]
    split
    · exact .inl rfl
    · exact .inr ⟨.close sessionId, trivial, rfl⟩
  | shutdown => exact .inr ⟨.shutdown, trivial, rfl⟩
  | exactWorker => exact .inr ⟨.worker, trivial, rfl⟩
  | unknownWorker answers => exact .inl rfl

theorem since_device {results : List Nat} {d : SearchDevice} (h : Since session results d.exact)
    {a : SearchDeviceStep} (hlawful : d.Lawful a) : Since session results (d.step a).exact := by
  rcases exact_of_step hlawful with hsame | ⟨e, hleft, hstep⟩
  · rw [hsame]
    exact h
  · rw [hstep]
    exact since_step h hleft

/-- The addresses are a front of the session's results. -/
def ExactHands (session : UInt64) (handed : List UInt64) (d : SearchDevice) : Prop :=
  ∃ found : List Nat, handed = found.map UInt64.ofNat ∧ found.length ≤ SEARCH_MAX_RESULTS ∧
    Since session found d.exact

/-- The session is there, or the answer is that it is not. -/
theorem exact_answers {results : List Nat} {d : SearchDevice}
    (hexact : SearchSystem.isUnknownId session = false) (h : Since session results d.exact)
    (reads : Bool) :
    (∃ x, d.exact.manager.session = some x ∧ x.sessionId = session ∧
        Serves reads d session (x.status.results.map UInt64.ofNat)) ∨
      Refuses reads d session := by
  have hroute : ∀ offset count, searchCopyResults reads session offset count d =
      exactCopyResults session offset count d.exact := by
    intro offset count
    rw [searchCopyResults, hexact, if_neg Bool.false_ne_true]
  cases hsession : d.exact.manager.session with
  | none =>
    refine .inr ?_
    intro offset count addresses total hcopied
    rw [hroute, exactCopyResults, hsession] at hcopied
    cases hcopied
  | some x =>
    by_cases hsame : x.sessionId = session
    · refine .inl ⟨x, rfl, hsame, UInt64.ofNat x.status.results.length, ?_, ?_⟩
      · have hroom := (h.counted x hsession).2
        have hmax : SEARCH_MAX_RESULTS = 65536 := rfl
        rw [UInt64.toNat_ofNat', Nat.mod_eq_of_lt (by omega), List.length_map]
      · intro offset hoffset count hcount
        rw [hroute, exactCopyResults_page h hsession hsame hoffset hcount]
    · refine .inr ?_
      intro offset count addresses total hcopied
      rw [hroute, exactCopyResults, hsession] at hcopied
      dsimp only at hcopied
      rw [if_neg (not_and_of_not_right _ hsame)] at hcopied
      cases hcopied

theorem pageLaw_exact (hexact : SearchSystem.isUnknownId session = false) :
    PageLaw session (ExactHands session) where
  step := by
    rintro handed d a ⟨found, hfound, hroom, hsince⟩ hlawful
    exact ⟨found, hfound, hroom, since_device hsince hlawful⟩
  answers := by
    rintro handed d reads ⟨found, -, -, hsince⟩
    rcases exact_answers hexact hsince reads with ⟨x, -, -, hserves⟩ | hrefuses
    · exact .inl ⟨_, hserves⟩
    · exact .inr hrefuses
  page := by
    rintro handed d reads listed count ⟨found, hfound, hroom, hsince⟩ ⟨total, -, hcopies⟩ hcount
    have hmax : SEARCH_MAX_RESULTS = 65536 := rfl
    have hlength : handed.length = found.length := by rw [hfound, List.length_map]
    have hcopied := hcopies handed.length (by omega) count hcount
    rcases exact_answers hexact hsince reads with ⟨x, hx, hsame, total', -, hcopies'⟩ | hrefuses
    · have hpages := hcopied.symm.trans (hcopies' handed.length (by omega) count hcount)
      obtain ⟨hpage, -⟩ := SearchResultsAnswer.ok.inj hpages
      have hlonger := prefix_append_page (hsince.begun x hx hsame) count
      refine ⟨found ++ page x.status.results found.length count, ?_, ?_, ?_⟩
      · rw [hpage, hlength, hfound, List.map_append]
        simp only [page, List.map_take, List.map_drop]
      · exact hlonger.length_le.trans (hsince.counted x hx).2
      · have hnow := (hsince.now hx).mono hlonger
        rwa [hsame] at hnow
    · exact absurd hcopied (hrefuses _ _ _ _)
  bound := by
    rintro handed d ⟨found, rfl, hroom, -⟩
    have hmax : SEARCH_MAX_RESULTS = 65536 := rfl
    rw [List.length_map]
    omega

end Exact

/-! ## Pages of an unknown search -/

section Unknown

open UnknownSearch

variable {session : UInt64} {older : List UInt64} {s : PagingSystem}

/-- What there is of the session is some of what there was, also behind what has been handed out. -/
def Handing (session : UInt64) (older handed : List UInt64) : UInt64 → List UInt64 → Prop :=
  fun other addresses => other = session →
    addresses.Sublist older ∧ (handed ++ addresses.drop handed.length).Sublist older

theorem shrinks_handing (session : UInt64) (older handed : List UInt64) :
    Shrinks (Handing session older handed) := by
  intro other addresses fewer hfewer h heq
  obtain ⟨hwithin, hbehind⟩ := h heq
  refine ⟨hfewer.trans hwithin, ?_⟩
  exact ((List.Sublist.refl handed).append (hfewer.drop handed.length)).trans hbehind

/-- What the steps of the sysmodule are for the unknown manager. -/
theorem unknown_of_step {d : SearchDevice} {a : SearchDeviceStep} (h : d.Lawful a) :
    (d.step a).unknown = d.unknown ∨
      ∃ u, Careful d.unknown u ∧ (d.step a).unknown = UnknownSearch.step d.unknown u := by
  have hstart : ∀ request allocated world,
      (d.startWith request allocated world).unknown = d.unknown := by
    intro request allocated world
    cases request with
    | error result => rfl
    | ok request => rfl
  cases a with
  | start a process allocated world => exact .inl (hstart _ allocated world)
  | startRegion a process allocated world => exact .inl (hstart _ allocated world)
  | begin a =>
    rw [SearchDevice.step]
    split
    · exact .inl rfl
    · exact .inr ⟨.begin a, trivial, rfl⟩
  | beginQueue world => exact .inr ⟨.beginQueue world, h, rfl⟩
  | refine sessionId a => exact .inr ⟨.refine sessionId a, trivial, rfl⟩
  | refineQueue world => exact .inr ⟨.refineQueue world, trivial, rfl⟩
  | cancel sessionId =>
    rw [SearchDevice.step]
    split
    · exact .inr ⟨.cancel sessionId, trivial, rfl⟩
    · exact .inl rfl
  | close sessionId =>
    rw [SearchDevice.step]
    split
    · exact .inr ⟨.close sessionId, trivial, rfl⟩
    · exact .inl rfl
  | shutdown => exact .inr ⟨.shutdown, trivial, rfl⟩
  | exactWorker => exact .inl rfl
  | unknownWorker answers => exact .inr ⟨.worker answers, h, rfl⟩

theorem inv_device {P : UInt64 → List UInt64 → Prop} (hP : Shrinks P) {d : SearchDevice}
    (h : UnknownSearch.Inv P d.unknown) {a : SearchDeviceStep} (hlawful : d.Lawful a) :
    UnknownSearch.Inv P (d.step a).unknown := by
  rcases unknown_of_step hlawful with hsame | ⟨u, hcareful, hstep⟩
  · rw [hsame]
    exact h
  · rw [hstep]
    exact UnknownSearch.inv_step hP h hcareful

/-- The session lists its results, or the answer has no addresses. -/
theorem unknown_answers {P : UInt64 → List UInt64 → Prop} {d : SearchDevice}
    (hunknown : SearchSystem.isUnknownId session = true) (h : UnknownSearch.Inv P d.unknown)
    (reads : Bool) :
    (∃ x addresses, d.unknown.manager.session = some x ∧ x.sessionId = session ∧
        x.state.isActive = false ∧ x.committed = true ∧
        Lists d.unknown.dir addresses x.candidates ∧ addresses.length = x.candidates.toNat ∧
        P session addresses ∧ reads = true ∧ Serves reads d session addresses) ∨
      Refuses reads d session := by
  have hroute : ∀ offset count, searchCopyResults reads session offset count d =
      unknownSearchCopyResults reads session offset count d.unknown := by
    intro offset count
    rw [searchCopyResults, hunknown, if_pos rfl]
  cases hsession : d.unknown.manager.session with
  | none =>
    refine .inr ?_
    intro offset count addresses total hcopied
    rw [hroute, unknownSearchCopyResults, hsession] at hcopied
    dsimp only at hcopied
    split at hcopied <;> cases hcopied
  | some x =>
    by_cases hlists : x.sessionId = session ∧ x.state.isActive = false ∧ x.committed = true ∧
        reads = true
    · obtain ⟨hsame, hinactive, hcommitted, rfl⟩ := hlists
      obtain ⟨addresses, hlisted, hlength, hP⟩ := h.results hsession hinactive hcommitted
      rw [hsame] at hP
      refine .inl ⟨x, addresses, rfl, hsame, hinactive, hcommitted, hlisted, hlength, hP, rfl,
        x.candidates, hlength.symm, ?_⟩
      intro offset hoffset count hcount
      have hoffset' : (UInt64.ofNat offset).toNat = offset := by
        rw [UInt64.toNat_ofNat', Nat.mod_eq_of_lt hoffset]
      have hcount' : (UInt64.ofNat count).toNat = count := by
        rw [UInt64.toNat_ofNat', Nat.mod_eq_of_lt (by omega)]
      have hcapped : pageCount (UInt64.ofNat count) = UInt64.ofNat count := by
        rw [pageCount, if_neg]
        rw [gt_iff_lt, UInt64.lt_iff_toNat_lt, hcount', SEARCH_MAX_PAGE_RESULTS]
        exact Nat.not_lt.2 hcount
      rw [hroute, unknownSearchCopyResults, hsession]
      dsimp only
      rw [if_neg (not_not.2 hsame), hinactive, if_neg Bool.false_ne_true, hcommitted,
        if_neg Bool.noConfusion, hcapped, hlisted]
      dsimp only
      rw [hoffset', hcount']
    · refine .inr ?_
      intro offset count addresses total hcopied
      rw [hroute, unknownSearchCopyResults, hsession] at hcopied
      dsimp only at hcopied
      split_ifs at hcopied with hother hactive hcommitted
      have hreads : reads = false := by
        by_contra hreads
        exact hlists ⟨not_not.1 hother, Bool.eq_false_of_not_eq_true hactive,
          Bool.eq_true_of_not_eq_false hcommitted, Bool.eq_true_of_not_eq_false hreads⟩
      rw [hreads] at hcopied
      cases hcopied

/-- The addresses are some of those of the start, and so is what is still behind them. -/
def UnknownHands (session : UInt64) (older handed : List UInt64) (d : SearchDevice) : Prop :=
  older.length < 2 ^ 64 ∧ handed.Sublist older ∧
    UnknownSearch.Inv (Handing session older handed) d.unknown

theorem pageLaw_unknown (hunknown : SearchSystem.isUnknownId session = true)
    (older : List UInt64) : PageLaw session (UnknownHands session older) where
  step := by
    rintro handed d a ⟨hbound, hwithin, hinv⟩ hlawful
    exact ⟨hbound, hwithin, inv_device (shrinks_handing session older handed) hinv hlawful⟩
  answers := by
    rintro handed d reads ⟨-, -, hinv⟩
    rcases unknown_answers hunknown hinv reads with
      ⟨x, addresses, -, -, -, -, -, -, -, -, hserves⟩ | hrefuses
    · exact .inl ⟨addresses, hserves⟩
    · exact .inr hrefuses
  page := by
    rintro handed d reads listed count ⟨hbound, hwithin, hinv⟩ ⟨total, -, hcopies⟩ hcount
    have hlength := hwithin.length_le
    have hcopied := hcopies handed.length (by omega) count hcount
    rcases unknown_answers hunknown hinv reads with ⟨x, addresses, hx, hsame, hinactive,
      hcommitted, hlists, hlisted, hhanding, -, total', -, hcopies'⟩ | hrefuses
    · have hpages := hcopied.symm.trans (hcopies' handed.length (by omega) count hcount)
      obtain ⟨hpage, -⟩ := SearchResultsAnswer.ok.inj hpages
      rw [hpage]
      obtain ⟨haddresses, hbehind⟩ := hhanding rfl
      have hnext := append_page_drop handed addresses count
      rw [← hnext] at hbehind
      refine ⟨hbound, (List.sublist_append_left _ _).trans hbehind,
        hinv.rebase hx hinactive hcommitted ?_ ?_⟩
      · intro hids other hle fewer heq
        rw [heq, ← hsame] at hle
        exact absurd ((hinv.session x hx).earlier hids) (UInt64.not_lt.2 hle)
      · intro others hothers hlength' _ _
        have hcandidates := x.candidates.toNat_lt
        obtain ⟨rfl, -⟩ := hlists.unique hothers (by omega) (by omega)
        exact ⟨haddresses, hbehind⟩
    · exact absurd hcopied (hrefuses _ _ _ _)
  bound := by
    rintro handed d ⟨hbound, hwithin, -⟩
    exact hwithin.length_le.trans_lt hbound

end Unknown

/-! ## Whole iterations -/

section Whole

variable {session : UInt64} {d : SearchDevice}

/-- What holds of the sysmodule after any run of it. -/
structure DeviceInv (d : SearchDevice) : Prop where
  exact : ExactSearch.Since 0 [] d.exact
  unknown : UnknownSearch.Inv (fun _ _ => True) d.unknown

theorem deviceInv_step (h : DeviceInv d) {a : SearchDeviceStep} (hlawful : d.Lawful a) :
    DeviceInv (d.step a) :=
  ⟨since_device h.exact hlawful, inv_device UnknownSearch.shrinks_true h.unknown hlawful⟩

theorem deviceInv_run (threadCreated threadStarted storageAvailable : Bool)
    {before : List SearchDeviceStep}
    (hbefore : EachStep SearchDevice.step SearchDevice.Lawful
      (SearchDevice.initial threadCreated threadStarted storageAvailable) before) :
    DeviceInv (run SearchDevice.step
      (SearchDevice.initial threadCreated threadStarted storageAvailable) before) := by
  have hstep : ∀ d a, DeviceInv d → d.Lawful a → DeviceInv (d.step a) :=
    fun _ _ h hlawful => deviceInv_step h hlawful
  refine invariant_of_eachStep hstep ⟨?_, ?_⟩ hbefore
  · exact ExactSearch.since_initial threadCreated threadStarted
  · exact UnknownSearch.inv_initial storageAvailable

theorem listed_exact (hexact : SearchSystem.isUnknownId session = false)
    {addresses : List UInt64} :
    Listed d session addresses ↔ ∃ x, d.exact.manager.session = some x ∧ x.sessionId = session ∧
      addresses = x.status.results.map UInt64.ofNat := by
  rw [Listed, hexact, if_neg Bool.false_ne_true]

theorem listed_unknown (hunknown : SearchSystem.isUnknownId session = true)
    {addresses : List UInt64} :
    Listed d session addresses ↔ ∃ x, d.unknown.manager.session = some x ∧ x.sessionId = session ∧
      x.state.isActive = false ∧ x.committed = true ∧
      UnknownSearch.Lists d.unknown.dir addresses x.candidates ∧
      addresses.length = x.candidates.toNat := by
  rw [Listed, hunknown, if_pos rfl]

/-- The start of an iteration. -/
theorem iterResults_some {pageSize : Int} {it : ResultIteration}
    (h : iterResults session pageSize = some it) :
    0 < pageSize.toNat ∧ pageSize.toNat ≤ 256 ∧
      it = { session := session, pageSize := pageSize.toNat, offset := 0, yielded := [],
             ended := none } := by
  unfold iterResults at h
  split_ifs at h with hrange
  refine ⟨by omega, by omega, (Option.some.inj h).symm⟩

/-- What an iteration has handed out, and what its next turn does if a line comes back. -/
structure PagesListed (session : UInt64) (pageSize : Nat) (older : List UInt64) (turns : Nat)
    (s : PagingSystem) : Prop where
  exact : SearchSystem.isUnknownId session = false → ∀ newer, Listed s.device session newer →
    older <+: newer ∧ s.iteration.yielded <+: asInts newer
  unknown : SearchSystem.isUnknownId session = true →
    s.iteration.yielded.Sublist (asInts older) ∧
      ∀ newer, Listed s.device session newer → newer.Sublist older
  full : s.iteration.ended = none → s.iteration.yielded.length = pageSize * turns
  returns : s.iteration.ended = none → ∀ newer, Listed s.device session newer →
    newer.length ≤ s.iteration.yielded.length + pageSize →
      (s.iteration.turn true true s.device).ended = some .returned ∧
        (SearchSystem.isUnknownId session = false ∨ newer.length = older.length →
          (s.iteration.turn true true s.device).yielded = asInts newer)
  goesOn : s.iteration.ended = none → ∀ newer, Listed s.device session newer →
    s.iteration.yielded.length + pageSize < newer.length →
      (s.iteration.turn true true s.device).ended = none
  raises : s.iteration.ended = none → (∀ newer, ¬ Listed s.device session newer) →
    (s.iteration.turn true true s.device).ended = some .raised

variable {older : List UInt64} {pageSize turns : Nat} {s : PagingSystem}

theorem Iterating.length_yielded {Holds : List UInt64 → SearchDevice → Prop}
    (h : Iterating session pageSize Holds turns s) :
    s.iteration.yielded.length = s.iteration.offset := by
  obtain ⟨handed, hyielded, hoffset, -⟩ := h.handed
  rw [hyielded, hoffset, asInts, List.length_map]

/-- Once a page reaches the end of the list, all of it has been handed out. -/
theorem length_handed (handed listed : List UInt64) {count : Nat}
    (hend : listed.length ≤ handed.length + count) :
    listed.length ≤ (handed ++ page listed handed.length count).length := by
  rw [List.length_append, length_page]
  omega

theorem pagesListed_exact (hexact : SearchSystem.isUnknownId session = false)
    (hpositive : 0 < pageSize) (hsize : pageSize ≤ 256) {found : List Nat}
    (holder : ExactSearch.Since session found s.device.exact)
    (h : Iterating session pageSize (ExactHands session) turns s) :
    PagesListed session pageSize (found.map UInt64.ofNat) turns s := by
  have hlaw := pageLaw_exact hexact
  have hserved : ∀ newer, Listed s.device session newer →
      Serves true s.device session newer := by
    intro newer hnewer
    obtain ⟨x, hx, hsame, rfl⟩ := (listed_exact hexact).1 hnewer
    rcases exact_answers hexact holder true with ⟨y, hy, -, hserves⟩ | hrefuses
    · obtain rfl := Option.some.inj (hx.symm.trans hy)
      exact hserves
    · have hcopied := @exactCopyResults_page session found s.device.exact 0 0 holder x hx hsame
        (by decide) (by decide)
      exfalso
      refine hrefuses (UInt64.ofNat 0) (UInt64.ofNat 0) _ _ (Eq.trans ?_ hcopied)
      rw [searchCopyResults, hexact, if_neg Bool.false_ne_true]
  have hfound : ∀ newer, Listed s.device session newer →
      ∀ handed, ExactHands session handed s.device → handed <+: newer := by
    intro newer hnewer handed hholds
    obtain ⟨x, hx, hsame, rfl⟩ := (listed_exact hexact).1 hnewer
    obtain ⟨front, rfl, -, hsince⟩ := hholds
    exact (hsince.begun x hx hsame).map UInt64.ofNat
  obtain ⟨handed, hyielded, hoffset, hholds⟩ := h.handed
  refine ⟨?_, ?_, ?_, ?_, ?_, ?_⟩
  · intro _ newer hnewer
    refine ⟨?_, ?_⟩
    · obtain ⟨x, hx, hsame, rfl⟩ := (listed_exact hexact).1 hnewer
      exact (holder.begun x hx hsame).map UInt64.ofNat
    · rw [hyielded]
      exact (hfound newer hnewer handed hholds).map _
  · intro hunknown
    rw [hexact] at hunknown
    cases hunknown
  · intro hrunning
    rw [h.length_yielded, h.full hrunning]
  · intro hrunning newer hnewer hend
    rw [h.length_yielded] at hend
    have hturn := h.served hlaw hpositive hsize hrunning (hserved newer hnewer)
    rw [hturn]
    refine ⟨if_pos hend, fun _ => ?_⟩
    rw [hoffset] at hend
    -- with the last page the front has become all of it
    have hfront := prefix_append_page (hfound newer hnewer handed hholds) pageSize
    have hall := hfront.eq_of_length_le (length_handed handed newer hend)
    show s.iteration.yielded ++ asInts (page newer s.iteration.offset pageSize) = asInts newer
    rw [hyielded, hoffset, ← asInts_append, hall]
  · intro hrunning newer hnewer hmore
    rw [h.length_yielded] at hmore
    have hturn := h.served hlaw hpositive hsize hrunning (hserved newer hnewer)
    rw [hturn]
    exact if_neg (Nat.not_le.2 hmore)
  · intro hrunning hnone
    have hrefuses : Refuses true s.device session := by
      rcases exact_answers hexact holder true with ⟨x, hx, hsame, -⟩ | hrefuses
      · -- a session that answers lists its results
        exact absurd ((listed_exact hexact).2 ⟨x, hx, hsame, rfl⟩) (hnone _)
      · exact hrefuses
    rw [h.refused hlaw hsize hrunning (.inr hrefuses)]

theorem pagesListed_unknown (hunknown : SearchSystem.isUnknownId session = true)
    (hpositive : 0 < pageSize) (hsize : pageSize ≤ 256)
    (h : Iterating session pageSize (UnknownHands session older) turns s) :
    PagesListed session pageSize older turns s := by
  have hlaw := pageLaw_unknown hunknown older
  obtain ⟨handed, hyielded, hoffset, hholds⟩ := h.handed
  obtain ⟨hbound, hwithin, hinv⟩ := hholds
  have hserved : ∀ newer, Listed s.device session newer →
      Serves true s.device session newer ∧ newer.Sublist older ∧
        (handed ++ newer.drop handed.length).Sublist older := by
    intro newer hnewer
    obtain ⟨x, hx, hsame, hinactive, hcommitted, hlists, hlength⟩ :=
      (listed_unknown hunknown).1 hnewer
    have hcandidates := x.candidates.toNat_lt
    rcases unknown_answers hunknown hinv true with
      ⟨y, addresses, hy, -, -, -, hlists', hlength', hhanding, -, hserves⟩ | hrefuses
    · obtain rfl := Option.some.inj (hx.symm.trans hy)
      obtain ⟨rfl, -⟩ := hlists.unique hlists' (by omega) (by omega)
      exact ⟨hserves, hhanding rfl⟩
    · exfalso
      refine hrefuses 0 0 (page newer 0 0) x.candidates ?_
      rw [searchCopyResults, hunknown, if_pos rfl, unknownSearchCopyResults, hx]
      dsimp only
      rw [if_neg (not_not.2 hsame), hinactive, if_neg Bool.false_ne_true, hcommitted,
        if_neg Bool.noConfusion, hlists]
      rfl
  refine ⟨?_, ?_, ?_, ?_, ?_, ?_⟩
  · intro hexact
    rw [hunknown] at hexact
    cases hexact
  · intro _
    refine ⟨?_, fun newer hnewer => (hserved newer hnewer).2.1⟩
    rw [hyielded]
    exact hwithin.map _
  · intro hrunning
    rw [h.length_yielded, h.full hrunning]
  · intro hrunning newer hnewer hend
    obtain ⟨hserves, hnewer, hbehind⟩ := hserved newer hnewer
    rw [h.length_yielded] at hend
    have hturn := h.served hlaw hpositive hsize hrunning hserves
    rw [hturn]
    refine ⟨if_pos hend, ?_⟩
    rintro (hexact | hsame)
    · rw [hunknown] at hexact
      cases hexact
    · -- nothing was dropped, so what has been handed out is as long as the list of the start
      rw [hoffset] at hend
      have hlonger := length_handed handed newer hend
      have hpage : (handed ++ page newer handed.length pageSize).Sublist older := by
        rw [← append_page_drop handed newer pageSize] at hbehind
        exact (List.sublist_append_left _ _).trans hbehind
      have hall := hpage.eq_of_length_le (by rw [← hsame]; exact hlonger)
      have hkept := hnewer.eq_of_length hsame
      show s.iteration.yielded ++ asInts (page newer s.iteration.offset pageSize) = asInts newer
      rw [hyielded, hoffset, ← asInts_append, hall, hkept]
  · intro hrunning newer hnewer hmore
    obtain ⟨hserves, -, -⟩ := hserved newer hnewer
    rw [h.length_yielded] at hmore
    have hturn := h.served hlaw hpositive hsize hrunning hserves
    rw [hturn]
    exact if_neg (Nat.not_le.2 hmore)
  · intro hrunning hnone
    have hrefuses : Refuses true s.device session := by
      rcases unknown_answers hunknown hinv true with
        ⟨x, addresses, hx, hsame, hinactive, hcommitted, hlists, hlength, -⟩ | hrefuses
      · exact absurd ((listed_unknown hunknown).2
          ⟨x, hx, hsame, hinactive, hcommitted, hlists, hlength⟩) (hnone addresses)
      · exact hrefuses
    rw [h.refused hlaw hsize hrunning (.inr hrefuses)]

/-- Whatever the worker and the commands of others do between the pages: of an exact search the
    iteration hands out a front of the results, and all that are stored when it returns; of an unknown
    search some of the results of the start, in order, and all there are unless some were dropped
    meanwhile. Every turn but the last hands out a whole page, and only a session that lists nothing
    ends the iteration with an exception. -/
theorem iter_results_pages (threadCreated threadStarted storageAvailable : Bool)
    (before : List SearchDeviceStep)
    (hbefore : EachStep SearchDevice.step SearchDevice.Lawful
      (SearchDevice.initial threadCreated threadStarted storageAvailable) before)
    {pageSize : Int} {it : ResultIteration} (hit : iterResults session pageSize = some it)
    (holder : Listed (run SearchDevice.step
      (SearchDevice.initial threadCreated threadStarted storageAvailable) before) session older)
    (steps : List PagingStep)
    (hsteps : EachStep PagingSystem.step PagingSystem.Lawful
      ⟨run SearchDevice.step
        (SearchDevice.initial threadCreated threadStarted storageAvailable) before, it⟩ steps) :
    PagesListed session pageSize.toNat older (steps.countP PagingStep.isTurn)
      (run PagingSystem.step
        ⟨run SearchDevice.step
          (SearchDevice.initial threadCreated threadStarted storageAvailable) before, it⟩ steps) := by
  obtain ⟨hpositive, hsize, rfl⟩ := iterResults_some hit
  have hinv := deviceInv_run threadCreated threadStarted storageAvailable hbefore
  cases hkind : SearchSystem.isUnknownId session with
  | false =>
    obtain ⟨x, hx, hsame, rfl⟩ := (listed_exact hkind).1 holder
    have hnow := hinv.exact.now hx
    rw [hsame] at hnow
    have hkept : ∀ (s : PagingSystem) a, ExactSearch.Since session x.status.results s.device.exact →
        s.Lawful a → ExactSearch.Since session x.status.results (s.step a).device.exact := by
      intro s a h hlawful
      cases a with
      | device a => exact since_device h hlawful
      | turn answered reads => exact h
    -- the results of the start stay a front of those of the session
    have hlater := invariant_of_eachStep hkept hnow hsteps
    refine pagesListed_exact hkind hpositive hsize hlater ?_
    have hstart : Iterating session pageSize.toNat (ExactHands session) 0
        ⟨run SearchDevice.step
          (SearchDevice.initial threadCreated threadStarted storageAvailable) before,
          { session := session, pageSize := pageSize.toNat, offset := 0, yielded := [],
            ended := none }⟩ :=
      ⟨rfl, rfl, ⟨[], rfl, rfl, [], rfl, Nat.zero_le _, hnow.mono List.nil_prefix⟩, fun _ => rfl⟩
    have hrun := hstart.run (pageLaw_exact hkind) hpositive hsize hsteps
    rwa [Nat.zero_add] at hrun
  | true =>
    obtain ⟨x, hx, hsame, hinactive, hcommitted, hlists, hlength⟩ := (listed_unknown hkind).1 holder
    have hcandidates := x.candidates.toNat_lt
    -- the invariant of all sessions is restated for this one, from what it lists now
    have hhanding := hinv.unknown.rebase (Q := Handing session older []) hx hinactive hcommitted
      (by
        intro hids other hle fewer heq
        rw [heq, ← hsame] at hle
        exact absurd ((hinv.unknown.session x hx).earlier hids) (UInt64.not_lt.2 hle))
      (by
        intro others hothers hlength' _ _
        obtain ⟨rfl, -⟩ := hlists.unique hothers (by omega) (by omega)
        exact ⟨List.Sublist.refl _, List.Sublist.refl _⟩)
    refine pagesListed_unknown hkind hpositive hsize ?_
    have hstart : Iterating session pageSize.toNat (UnknownHands session older) 0
        ⟨run SearchDevice.step
          (SearchDevice.initial threadCreated threadStarted storageAvailable) before,
          { session := session, pageSize := pageSize.toNat, offset := 0, yielded := [],
            ended := none }⟩ :=
      ⟨rfl, rfl, ⟨[], rfl, rfl, by omega, List.nil_sublist _, hhanding⟩, fun _ => rfl⟩
    have hrun := hstart.run (pageLaw_unknown hkind older) hpositive hsize hsteps
    rwa [Nat.zero_add] at hrun

/-! ### Three results, one by one, while the search goes on -/

/-- Up to the end of the chunk. -/
def threeFound : List SearchDeviceStep :=
  .start ⟨0x1000, 0x1004, [0x30, 0x30, 0x30, 0x30]⟩
      (UnknownSearch.oneProcess.process.map Prod.fst) true ExactSearch.zeroWorld ::
    List.replicate 4 .exactWorker

def twoTurns : List PagingStep :=
  [.turn true true, .device .exactWorker, .device (.cancel 1), .turn true true]

theorem lawful_threeFound : EachStep SearchDevice.step SearchDevice.Lawful
    (SearchDevice.initial true true true) threeFound := by
  have hids : (1 : UInt64).toNat < 2 ^ 63 := by decide
  refine eachStep_cons.2 ⟨hids, ?_⟩
  intro front a hfront
  obtain rfl := List.eq_of_mem_replicate
    (hfront.subset (List.mem_append_right front (List.mem_singleton_self a)))
  trivial

theorem lawful_twoTurns {s : PagingSystem} :
    EachStep PagingSystem.step PagingSystem.Lawful s twoTurns :=
  eachStep_cons.2 ⟨trivial, eachStep_cons.2 ⟨trivial, eachStep_cons.2 ⟨trivial,
    eachStep_cons.2 ⟨trivial, eachStep_nil⟩⟩⟩⟩

theorem iter_results_pages_three :
    ∃ it, iterResults 1 1 = some it ∧
      PagesListed 1 1 [0x1000, 0x1001, 0x1002] 2
        (run PagingSystem.step
          ⟨run SearchDevice.step (SearchDevice.initial true true true) threeFound, it⟩
          twoTurns) := by
  have hresults : (run SearchDevice.step (SearchDevice.initial true true true)
      threeFound).exact.manager.session.map (fun x => (x.sessionId, x.status.results)) =
        some (1, [0x1000, 0x1001, 0x1002]) := by
    decide
  obtain ⟨x, hx, heq⟩ := Option.map_eq_some_iff.1 hresults
  obtain ⟨hid, hfound⟩ := Prod.mk.inj heq
  have hlisted : Listed (run SearchDevice.step (SearchDevice.initial true true true) threeFound) 1
      [0x1000, 0x1001, 0x1002] := by
    refine (listed_exact (by decide)).2 ⟨x, hx, hid, ?_⟩
    rw [hfound]
    rfl
  have hpages := iter_results_pages true true true threeFound lawful_threeFound
    (rfl : iterResults 1 1 = some _) hlisted twoTurns lawful_twoTurns
  exact ⟨_, rfl, hpages⟩

end Whole

end SysAgent
