import SysAgent.Search.Completeness
import SysAgent.Search.ExactSteps

set_option autoImplicit false

/-! # The steps of an exact search make its run

Wherever the worker is, the run that `runSearch` describes leads from the start of the session to
where the worker is, for every way in which cancellations may still come. So a session that has ended
holds what `runSearch` returns. Once the worker has seen a cancellation it changes nothing more. -/

namespace SysAgent.ExactSearch

/-! ## The rest of a run -/

section Rest

/-- `runSearch` from within its inner loop. -/
def scanFrom (answers : SearchAnswers) (request : SearchRequest) (mappingEnd cursor : Nat)
    (carry : List UInt8) (status : SearchProgress) : SearchProgress :=
  match scanMapping answers request mappingEnd cursor carry status with
  | (status, _, true) => finishSearch status true .none
  | (status, cursor', false) => scanRange answers request cursor' status

/-- `runSearch` from where the worker is in its loops. -/
def rest (x : Session) (cancels : Cancels) : Worker → SearchProgress
  | .mapping cursor => scanRange (x.world.answers cancels) x.request cursor x.status
  | .chunk mappingEnd cursor carry =>
    scanFrom (x.world.answers cancels) x.request mappingEnd cursor carry x.status
  | .ending failure => finishSearch x.status cancels.atEnd failure
  | _ => x.status

/-- The session behind a turn. -/
def Session.behind (x : Session) (next : SearchProgress × Worker) : Session :=
  { x with status := next.1 }

variable {x : Session} {cancels : Cancels} {cursor mappingEnd : Nat} {carry : List UInt8}

/-- A turn of the outer loop that sees no cancellation. -/
theorem rest_mappingTurn (hquery : cancels.beforeQuery cursor = false) :
    rest x cancels (.mapping cursor) =
      rest (x.behind (mappingTurn x false cursor)) cancels (mappingTurn x false cursor).2 := by
  have hcancel : (x.world.answers cancels).cancelBeforeQuery cursor = false := hquery
  rw [rest, scanRange, hcancel]
  unfold mappingTurn
  by_cases hlt : cursor < x.request.finish
  · have hturn : cursor < x.request.finish ∧ false = false := ⟨hlt, rfl⟩
    rw [if_pos hlt, if_neg Bool.false_ne_true, if_pos hturn]
    cases hprocess : x.world.processIsCurrent cursor with
    | false =>
      have hanswer : (x.world.answers cancels).processIsCurrent cursor = false := hprocess
      rw [hanswer]
      rfl
    | true =>
      have hanswer : (x.world.answers cancels).processIsCurrent cursor = true := hprocess
      have hcurrent : ¬ (!true) = true := by decide
      have hcurrent' : ¬ true = false := by decide
      rw [hanswer, if_neg hcurrent, if_neg hcurrent']
      cases hquery : x.world.queryMapping cursor with
      | error result =>
        have hanswer : (x.world.answers cancels).queryMapping cursor = .error result := hquery
        rw [hanswer]
        rfl
      | ok info =>
        have hanswer : (x.world.answers cancels).queryMapping cursor = .ok info := hquery
        rw [hanswer]
        dsimp only
        split
        · rename_i haction
          simp only [haction]
          rfl
        · rename_i haction
          simp only [haction]
          rfl
        · rename_i haction
          simp only [haction]
          split
          · rename_i hscan
            simp [rest, scanFrom, Session.behind, hscan]
          · rename_i hscan
            simp [rest, scanFrom, Session.behind, hscan]
  · rw [if_neg hlt, if_neg (not_and_of_not_left _ hlt)]
    rfl

/-- A turn of the inner loop that sees no cancellation. -/
theorem rest_chunkTurn (hread : cancels.beforeRead cursor = false) :
    rest x cancels (.chunk mappingEnd cursor carry) =
      rest (x.behind (chunkTurn x false mappingEnd cursor carry)) cancels
        (chunkTurn x false mappingEnd cursor carry).2 := by
  have hcancel : (x.world.answers cancels).cancelBeforeRead cursor = false := hread
  rw [rest, scanFrom, scanMapping, hcancel]
  unfold chunkTurn
  by_cases hlt : cursor < mappingEnd
  · have hturn : cursor < mappingEnd ∧ false = false := ⟨hlt, rfl⟩
    rw [if_pos hlt, if_neg Bool.false_ne_true, if_pos hturn]
    cases hfails : x.world.readFails cursor with
    | true =>
      have hanswer : (x.world.answers cancels).readFails cursor = true := hfails
      rw [hanswer]
      rfl
    | false =>
      have hanswer : (x.world.answers cancels).readFails cursor = false := hfails
      rw [hanswer]
      rfl
  · rw [if_neg hlt, if_neg (not_and_of_not_left _ hlt)]
    rfl

end Rest

/-! ## Results are only added -/

section Results

variable (answers : SearchAnswers) (request : SearchRequest)

theorem foldl_recordMatch_results (status : SearchProgress) (found : List Nat) :
    status.results <+: (found.foldl recordMatch status).results ∧
      (found.foldl recordMatch status).state = status.state := by
  induction found generalizing status with
  | nil => exact ⟨List.prefix_refl _, rfl⟩
  | cons a found ih =>
    obtain ⟨hresults, hstate⟩ := ih (recordMatch status a)
    have hrecord : status.results <+: (recordMatch status a).results ∧
        (recordMatch status a).state = status.state := by
      unfold recordMatch
      dsimp only
      split
      · exact ⟨List.prefix_append _ _, rfl⟩
      · exact ⟨List.prefix_refl _, rfl⟩
    exact ⟨hrecord.1.trans hresults, hstate.trans hrecord.2⟩

theorem finishSearch_results (status : SearchProgress) (cancelled : Bool) (failure : SearchError) :
    (finishSearch status cancelled failure).results = status.results := by
  unfold finishSearch
  split
  · rfl
  · split <;> rfl

theorem scanMapping_results (mappingEnd cursor : Nat) (carry : List UInt8)
    (status : SearchProgress) :
    status.results <+: (scanMapping answers request mappingEnd cursor carry status).1.results := by
  fun_induction scanMapping answers request mappingEnd cursor carry status with
  | case1 => exact List.prefix_refl _
  | case2 cursor carry status hlt hcancel amount hfails ih => exact ih
  | case3 cursor carry status hlt hcancel amount hreads combined bufferAddress found counted overlap
      carrySize ih =>
    exact (foldl_recordMatch_results status _).1.trans ih
  | case4 => exact List.prefix_refl _

theorem scanRange_results (cursor : Nat) (status : SearchProgress) :
    status.results <+: (scanRange answers request cursor status).results := by
  fun_induction scanRange answers request cursor status with
  | case1 => rw [finishSearch_results]
  | case2 => rw [finishSearch_results]
  | case3 => rw [finishSearch_results]
  | case4 => rw [finishSearch_results]
  | case5 cursor status hlt hcancel hprocess info hquery plan hskip ih => exact ih
  | case6 cursor status hlt hcancel hprocess info hquery plan hread found last hscan =>
    rw [finishSearch_results]
    have hmapping := scanMapping_results answers request plan.finish cursor [] status
    rwa [hscan] at hmapping
  | case7 cursor status hlt hcancel hprocess info hquery plan hread found last hscan ih =>
    have hmapping := scanMapping_results answers request plan.finish cursor [] status
    rw [hscan] at hmapping
    exact hmapping.trans ih
  | case8 => rw [finishSearch_results]

theorem rest_results (x : Session) (cancels : Cancels) (pc : Worker) :
    x.status.results <+: (rest x cancels pc).results := by
  cases pc with
  | mapping cursor => exact scanRange_results _ _ cursor x.status
  | chunk mappingEnd cursor carry =>
    have hmapping := scanMapping_results (x.world.answers cancels) x.request mappingEnd cursor
      carry x.status
    rw [rest, scanFrom]
    split
    · rename_i hscan
      rw [hscan] at hmapping
      rw [finishSearch_results]
      exact hmapping
    · rename_i hscan
      rw [hscan] at hmapping
      exact hmapping.trans (scanRange_results _ _ _ _)
  | ending failure =>
    rw [rest, finishSearch_results]
  | look => exact List.prefix_refl _
  | taken => exact List.prefix_refl _
  | finishing state error => exact List.prefix_refl _
  | exited => exact List.prefix_refl _

end Results

/-! ## Where the worker has come from -/

/-- No cancellation is seen before the cursor. -/
def Cancels.Late (cancels : Cancels) (cursor : Nat) : Prop :=
  ∀ a < cursor, cancels.beforeQuery a = false ∧ cancels.beforeRead a = false

/-- The run of the session, with these cancellations. -/
def Session.runs (x : Session) (cancels : Cancels) : SearchProgress :=
  runSearch (x.world.answers cancels) x.request

/-- The run leads to where the worker is, whatever is cancelled from there on. In the inner loop the
    mapping has been queried at `first`. -/
def Reached (x : Session) : Worker → Prop
  | .mapping cursor =>
    ∀ cancels : Cancels, cancels.Late cursor → x.runs cancels = rest x cancels (.mapping cursor)
  | .chunk mappingEnd cursor carry =>
    ∃ first < mappingEnd, ∀ cancels : Cancels, cancels.Late cursor →
      cancels.beforeQuery first = false →
        x.runs cancels = rest x cancels (.chunk mappingEnd cursor carry)
  | .ending failure =>
    ∀ cancels : Cancels, (∀ cursor, cancels.Late cursor) →
      x.runs cancels = rest x cancels (.ending failure)
  | _ => False

/-- A run that is cancelled ends with what there is. -/
def Stopped (x : Session) : Prop :=
  ∃ cancels, x.runs cancels = finishSearch x.status true .none

/-- The run has ended like this. -/
def Ended (x : Session) (status : SearchProgress) : Prop :=
  isActive status.state = false ∧ ∃ cancels, x.runs cancels = status ∧
    (status.state ≠ .cancelled → cancels = .never)

/-- What a session is while the worker is there. -/
def WorkerHolds (m : Manager) (x : Session) : Worker → Prop
  | .look => x.status = newStatus .queued ∨ Ended x x.status
  | .exited => x.status = newStatus .queued ∨ Ended x x.status
  | .taken => x.status = newStatus .queued
  | .finishing state error =>
    isActive x.status.state = true ∧ Ended x { x.status with state := state, error := error }
  | pc => x.status.state = .running ∧ (Reached x pc ∨ m.shouldCancel = true ∧ Stopped x)

section Turns

variable {m : Manager} {x : Session} {cursor mappingEnd : Nat} {carry : List UInt8}

theorem late_never (cursor : Nat) : Cancels.never.Late cursor := by
  intro a _
  exact ⟨rfl, rfl⟩

theorem Cancels.Late.succ {cancels : Cancels} (h : cancels.Late cursor)
    (hquery : cancels.beforeQuery cursor = false) (hread : cancels.beforeRead cursor = false) :
    cancels.Late (cursor + 1) := by
  intro a ha
  rcases Nat.lt_succ_iff_lt_or_eq.1 ha with hlt | rfl
  · exact h a hlt
  · exact ⟨hquery, hread⟩

theorem Cancels.Late.of_le {cancels : Cancels} {later : Nat} (h : cancels.Late later)
    (hle : cursor ≤ later) : cancels.Late cursor :=
  fun a ha => h a (ha.trans_le hle)

/-- A cancellation that is seen before a mapping is queried. -/
theorem Reached.stopped_mapping (h : Reached x (.mapping cursor)) (hlt : cursor < x.request.finish) :
    Stopped x := by
  let cancels : Cancels :=
    { beforeQuery := fun a => a == cursor, beforeRead := fun _ => false, atEnd := true }
  have hlate : cancels.Late cursor := by
    intro a ha
    exact ⟨beq_false_of_ne ha.ne, rfl⟩
  have hseen : (x.world.answers cancels).cancelBeforeQuery cursor = true := beq_self_eq_true cursor
  refine ⟨cancels, ?_⟩
  rw [h cancels hlate, rest, scanRange, if_pos hlt, hseen, if_pos rfl]

/-- One that is seen before a chunk is read. -/
theorem Reached.stopped_chunk (h : Reached x (.chunk mappingEnd cursor carry))
    (hlt : cursor < mappingEnd) : Stopped x := by
  obtain ⟨first, -, hrest⟩ := h
  let cancels : Cancels :=
    { beforeQuery := fun _ => false, beforeRead := fun a => a == cursor, atEnd := true }
  have hlate : cancels.Late cursor := by
    intro a ha
    exact ⟨rfl, beq_false_of_ne ha.ne⟩
  have hseen : (x.world.answers cancels).cancelBeforeRead cursor = true := beq_self_eq_true cursor
  refine ⟨cancels, ?_⟩
  rw [hrest cancels hlate rfl, rest, scanFrom, scanMapping, if_pos hlt, hseen, if_pos rfl]

/-- One that is seen behind the loops. -/
theorem Reached.stopped_ending {failure : SearchError} (h : Reached x (.ending failure)) :
    Stopped x := by
  let cancels : Cancels :=
    { beforeQuery := fun _ => false, beforeRead := fun _ => false, atEnd := true }
  refine ⟨cancels, ?_⟩
  rw [h cancels fun _ _ _ => ⟨rfl, rfl⟩, rest]
  rfl

/-- What a turn of the outer loop can do. -/
theorem mappingTurn_next (x : Session) (cancelled : Bool) (cursor : Nat) :
    (mappingTurn x cancelled cursor).1.state = x.status.state ∧
      (mappingTurn x cancelled cursor).1.results = x.status.results ∧
      ((∃ failure, (mappingTurn x cancelled cursor).2 = .ending failure) ∨
        (∃ later, cursor < later ∧ (mappingTurn x cancelled cursor).2 = .mapping later) ∨
        ∃ last, cursor < last ∧ (mappingTurn x cancelled cursor).2 = .chunk last cursor []) := by
  unfold mappingTurn
  split_ifs with hlt hprocess
  · exact ⟨rfl, rfl, .inl ⟨_, rfl⟩⟩
  · split
    · exact ⟨rfl, rfl, .inl ⟨_, rfl⟩⟩
    · rename_i info hquery
      have hplan := @searchPlanMapping_progress cursor x.request.finish info.addr info.size
        info.readable
      dsimp only
      split
      · exact ⟨rfl, rfl, .inl ⟨_, rfl⟩⟩
      · rename_i haction
        exact ⟨rfl, rfl, .inr (.inl ⟨_, (hplan (by simp [haction])).1, rfl⟩)⟩
      · rename_i haction
        exact ⟨rfl, rfl, .inr (.inr ⟨_, (hplan (by simp [haction])).1, rfl⟩)⟩
  · exact ⟨rfl, rfl, .inl ⟨_, rfl⟩⟩

/-- What a turn of the inner loop can do. -/
theorem chunkTurn_next (x : Session) (cancelled : Bool) (mappingEnd cursor : Nat)
    (carry : List UInt8) :
    (chunkTurn x cancelled mappingEnd cursor carry).1.state = x.status.state ∧
      x.status.results <+: (chunkTurn x cancelled mappingEnd cursor carry).1.results ∧
      ((∃ later carried, cursor < later ∧
          (chunkTurn x cancelled mappingEnd cursor carry).2 = .chunk mappingEnd later carried) ∨
        chunkTurn x cancelled mappingEnd cursor carry = (x.status, .mapping cursor)) := by
  unfold chunkTurn
  by_cases hlt : cursor < mappingEnd ∧ cancelled = false
  · rw [if_pos hlt]
    have hamount : cursor < cursor + min SEARCH_CHUNK_SIZE (mappingEnd - cursor) := by
      simp only [SEARCH_CHUNK_SIZE]
      omega
    dsimp only
    split
    · exact ⟨rfl, List.prefix_refl _, .inl ⟨_, _, hamount, rfl⟩⟩
    · obtain ⟨hresults, hstate⟩ := foldl_recordMatch_results x.status
        (searchExactBufferAligned (carry ++ Scan.window x.world.memory cursor
          (min SEARCH_CHUNK_SIZE (mappingEnd - cursor))) x.request.pattern
          (cursor - carry.length) x.request.alignment)
      exact ⟨hstate, hresults, .inl ⟨_, _, hamount, rfl⟩⟩
  · rw [if_neg hlt]
    exact ⟨rfl, List.prefix_refl _, .inr rfl⟩

theorem Reached.mappingTurn (h : Reached x (.mapping cursor)) :
    Reached (x.behind (mappingTurn x false cursor)) (mappingTurn x false cursor).2 := by
  have hturn : ∀ cancels : Cancels, cancels.Late cursor → cancels.beforeQuery cursor = false →
      (x.behind (ExactSearch.mappingTurn x false cursor)).runs cancels =
        rest (x.behind (ExactSearch.mappingTurn x false cursor)) cancels
          (ExactSearch.mappingTurn x false cursor).2 := by
    intro cancels hlate hquery
    rw [← rest_mappingTurn hquery]
    exact h cancels hlate
  obtain ⟨-, -, ⟨failure, hnext⟩ | ⟨later, hlt, hnext⟩ | ⟨last, hlt, hnext⟩⟩ :=
    mappingTurn_next x false cursor
  · rw [hnext] at hturn ⊢
    intro cancels hlate
    exact hturn cancels (hlate cursor) (hlate (cursor + 1) cursor (Nat.lt_succ_self cursor)).1
  · rw [hnext] at hturn ⊢
    intro cancels hlate
    exact hturn cancels (hlate.of_le hlt.le) (hlate cursor hlt).1
  · rw [hnext] at hturn ⊢
    exact ⟨cursor, hlt, hturn⟩

theorem Reached.chunkTurn (h : Reached x (.chunk mappingEnd cursor carry)) :
    Reached (x.behind (chunkTurn x false mappingEnd cursor carry))
      (chunkTurn x false mappingEnd cursor carry).2 := by
  obtain ⟨first, hfirst, hrest⟩ := h
  have hturn : ∀ cancels : Cancels, cancels.Late cursor → cancels.beforeQuery first = false →
      cancels.beforeRead cursor = false →
      (x.behind (ExactSearch.chunkTurn x false mappingEnd cursor carry)).runs cancels =
        rest (x.behind (ExactSearch.chunkTurn x false mappingEnd cursor carry)) cancels
          (ExactSearch.chunkTurn x false mappingEnd cursor carry).2 := by
    intro cancels hlate hquery hread
    rw [← rest_chunkTurn hread]
    exact hrest cancels hlate hquery
  by_cases hlt : cursor < mappingEnd
  · obtain ⟨-, -, ⟨later, carried, hlater, hnext⟩ | hnext⟩ :=
      chunkTurn_next x false mappingEnd cursor carry
    · -- a cancellation that comes late enough for the next read is not seen by this one
      rw [hnext] at hturn ⊢
      refine ⟨first, hfirst, ?_⟩
      intro cancels hlate hquery
      exact hturn cancels (hlate.of_le hlater.le) hquery (hlate cursor hlater).2
    · have hread : (ExactSearch.chunkTurn x false mappingEnd cursor carry).2 ≠ .mapping cursor := by
        unfold ExactSearch.chunkTurn
        rw [if_pos ⟨hlt, rfl⟩]
        dsimp only
        split <;> simp
      exact absurd (congrArg Prod.snd hnext) hread
  · -- the mapping ends here, and `first` lies before the cursor
    have hnext : ExactSearch.chunkTurn x false mappingEnd cursor carry =
        (x.status, .mapping cursor) := by
      unfold ExactSearch.chunkTurn
      rw [if_neg (not_and_of_not_left _ hlt)]
    have hstays : ∀ cancels, rest x cancels (.chunk mappingEnd cursor carry) =
        rest x cancels (.mapping cursor) := by
      intro cancels
      have hscan : scanMapping (x.world.answers cancels) x.request mappingEnd cursor carry x.status =
          (x.status, cursor, false) := by
        rw [scanMapping, if_neg hlt]
      unfold rest scanFrom
      simp only [hscan]
    rw [hnext]
    intro cancels hlate
    have hrun := hrest cancels hlate (hlate first (hfirst.trans_le (Nat.le_of_not_lt hlt))).1
    rw [hstays] at hrun
    exact hrun

/-- A turn of a loop, from a state that the run leads to or that is cancelled. -/
theorem loop_mapping (hstate : x.status.state = .running)
    (h : Reached x (.mapping cursor) ∨ m.shouldCancel = true ∧ Stopped x) :
    WorkerHolds m (x.behind (mappingTurn x m.shouldCancel cursor))
      (mappingTurn x m.shouldCancel cursor).2 := by
  have hreached : Reached x (.mapping cursor) → m.shouldCancel = false ∨ ¬ cursor < x.request.finish →
      WorkerHolds m (x.behind (mappingTurn x m.shouldCancel cursor))
        (mappingTurn x m.shouldCancel cursor).2 := by
    intro hr hcase
    have hturn : mappingTurn x m.shouldCancel cursor = mappingTurn x false cursor := by
      rcases hcase with hcancel | hend
      · rw [hcancel]
      · unfold mappingTurn
        rw [if_neg (not_and_of_not_left _ hend), if_neg (not_and_of_not_left _ hend)]
    rw [hturn]
    have hnext := hr.mappingTurn
    obtain ⟨hkeeps, -, ⟨failure, hpc⟩ | ⟨later, hlt, hpc⟩ | ⟨last, hlt, hpc⟩⟩ :=
      mappingTurn_next x false cursor
    · rw [hpc] at hnext ⊢
      exact ⟨hkeeps.trans hstate, .inl hnext⟩
    · rw [hpc] at hnext ⊢
      exact ⟨hkeeps.trans hstate, .inl hnext⟩
    · rw [hpc] at hnext ⊢
      exact ⟨hkeeps.trans hstate, .inl hnext⟩
  have hstopped : m.shouldCancel = true → Stopped x →
      WorkerHolds m (x.behind (mappingTurn x m.shouldCancel cursor))
        (mappingTurn x m.shouldCancel cursor).2 := by
    intro hcancel hs
    have hturn : mappingTurn x m.shouldCancel cursor = (x.status, .ending .none) := by
      unfold mappingTurn
      rw [hcancel, if_neg (not_and_of_not_right _ Bool.noConfusion)]
    rw [hturn]
    exact ⟨hstate, .inr ⟨hcancel, hs⟩⟩
  rcases h with hr | ⟨hcancel, hs⟩
  · cases hcancel : m.shouldCancel with
    | false =>
      rw [← hcancel]
      exact hreached hr (.inl hcancel)
    | true =>
      rw [← hcancel]
      by_cases hlt : cursor < x.request.finish
      · exact hstopped hcancel (hr.stopped_mapping hlt)
      · exact hreached hr (.inr hlt)
  · exact hstopped hcancel hs

theorem loop_chunk (hstate : x.status.state = .running)
    (h : Reached x (.chunk mappingEnd cursor carry) ∨ m.shouldCancel = true ∧ Stopped x) :
    WorkerHolds m (x.behind (chunkTurn x m.shouldCancel mappingEnd cursor carry))
      (chunkTurn x m.shouldCancel mappingEnd cursor carry).2 := by
  have hreached : Reached x (.chunk mappingEnd cursor carry) →
      m.shouldCancel = false ∨ ¬ cursor < mappingEnd →
      WorkerHolds m (x.behind (chunkTurn x m.shouldCancel mappingEnd cursor carry))
        (chunkTurn x m.shouldCancel mappingEnd cursor carry).2 := by
    intro hr hcase
    have hturn : chunkTurn x m.shouldCancel mappingEnd cursor carry =
        chunkTurn x false mappingEnd cursor carry := by
      rcases hcase with hcancel | hend
      · rw [hcancel]
      · unfold chunkTurn
        rw [if_neg (not_and_of_not_left _ hend), if_neg (not_and_of_not_left _ hend)]
    rw [hturn]
    have hnext := hr.chunkTurn
    obtain ⟨hkeeps, -, ⟨later, carried, hlt, hpc⟩ | hpc⟩ :=
      chunkTurn_next x false mappingEnd cursor carry
    · rw [hpc] at hnext ⊢
      exact ⟨hkeeps.trans hstate, .inl hnext⟩
    · rw [hpc] at hnext ⊢
      exact ⟨hstate, .inl hnext⟩
  have hstopped : m.shouldCancel = true → Stopped x →
      WorkerHolds m (x.behind (chunkTurn x m.shouldCancel mappingEnd cursor carry))
        (chunkTurn x m.shouldCancel mappingEnd cursor carry).2 := by
    intro hcancel hs
    have hturn : chunkTurn x m.shouldCancel mappingEnd cursor carry =
        (x.status, .mapping cursor) := by
      unfold chunkTurn
      rw [hcancel, if_neg (not_and_of_not_right _ Bool.noConfusion)]
    rw [hturn]
    exact ⟨hstate, .inr ⟨hcancel, hs⟩⟩
  rcases h with hr | ⟨hcancel, hs⟩
  · cases hcancel : m.shouldCancel with
    | false =>
      rw [← hcancel]
      exact hreached hr (.inl hcancel)
    | true =>
      rw [← hcancel]
      by_cases hlt : cursor < mappingEnd
      · exact hstopped hcancel (hr.stopped_chunk hlt)
      · exact hreached hr (.inr hlt)
  · exact hstopped hcancel hs

/-- Behind the loops. -/
theorem loop_ending {failure : SearchError} (hstate : x.status.state = .running)
    (h : Reached x (.ending failure) ∨ m.shouldCancel = true ∧ Stopped x) :
    WorkerHolds m (x.behind (sessionTurn m x (.ending failure)))
      (sessionTurn m x (.ending failure)).2 := by
  have hactive : isActive x.status.state = true := by
    rw [hstate]
    rfl
  rw [sessionTurn]
  cases hcancel : m.shouldCancel with
  | true =>
    rw [if_pos rfl]
    have hstopped : Stopped x := by
      rcases h with hr | ⟨-, hs⟩
      · exact hr.stopped_ending
      · exact hs
    obtain ⟨cancels, hrun⟩ := hstopped
    refine ⟨hactive, rfl, cancels, hrun, ?_⟩
    intro hne
    exact absurd rfl hne
  | false =>
    rw [if_neg Bool.false_ne_true]
    rcases h with hr | ⟨hcontra, -⟩
    · have hrun := hr .never late_never
      by_cases hfailure : failure ≠ .none
      · rw [if_pos hfailure]
        refine ⟨hactive, rfl, .never, ?_, fun _ => rfl⟩
        refine hrun.trans ?_
        simp only [rest, finishSearch, Cancels.never, Bool.false_eq_true, if_false, if_pos hfailure,
          Session.behind]
      · rw [if_neg hfailure]
        refine ⟨hactive, rfl, .never, ?_, fun _ => rfl⟩
        refine hrun.trans ?_
        simp only [rest, finishSearch, Cancels.never, Bool.false_eq_true, if_false, if_neg hfailure,
          Session.behind]
    · rw [hcancel] at hcontra
      cases hcontra

/-- The start of a run. -/
theorem reached_start (hallocated : x.world.bufferAllocated = true)
    (hstatus : x.status = newStatus .running) : Reached x (.mapping x.request.start) := by
  intro cancels _
  have hanswer : (x.world.answers cancels).bufferAllocated = true := hallocated
  rw [Session.runs, runSearch, hanswer, rest, hstatus]
  rfl

theorem ended_outOfMemory (hallocated : x.world.bufferAllocated = false)
    (hstatus : x.status = newStatus .queued) :
    Ended x { x.status with state := .error, error := .outOfMemory } := by
  have hanswer : (x.world.answers .never).bufferAllocated = false := hallocated
  refine ⟨rfl, .never, ?_, fun _ => rfl⟩
  rw [Session.runs, runSearch, hanswer, hstatus]
  rfl

/-- Every turn of the worker. -/
theorem sessionTurn_holds {pc : Worker} (h : WorkerHolds m x pc) :
    WorkerHolds m (x.behind (sessionTurn m x pc)) (sessionTurn m x pc).2 := by
  cases pc with
  | look =>
    rw [sessionTurn]
    split_ifs with hexit hqueued
    · exact h
    · rcases h with hstatus | hended
      · exact hstatus
      · have hinactive := hended.1
        rw [hqueued] at hinactive
        cases hinactive
    · exact h
  | taken =>
    have hstatus : x.status = newStatus .queued := h
    rw [sessionTurn]
    split_ifs with hallocated
    · refine ⟨?_, ended_outOfMemory hallocated hstatus⟩
      rw [Session.behind, hstatus]
      rfl
    · refine ⟨rfl, .inl (reached_start (Bool.eq_true_of_not_eq_false hallocated) ?_)⟩
      rw [Session.behind, hstatus]
      rfl
  | mapping cursor => exact loop_mapping h.1 h.2
  | chunk mappingEnd cursor carry => exact loop_chunk h.1 h.2
  | ending failure => exact loop_ending h.1 h.2
  | finishing state error => exact .inr h.2
  | exited => exact h

end Turns

/-! ## Runs -/

section System

theorem Reached.results {x : Session} {pc : Worker} (h : Reached x pc) :
    x.status.results <+: (x.runs .never).results := by
  have hrun : x.runs .never = rest x .never pc := by
    cases pc with
    | mapping cursor => exact h .never (late_never cursor)
    | chunk mappingEnd cursor carry =>
      obtain ⟨first, -, hrest⟩ := h
      exact hrest .never (late_never cursor) rfl
    | ending failure => exact h .never late_never
    | look => exact h.elim
    | taken => exact h.elim
    | finishing state error => exact h.elim
    | exited => exact h.elim
  rw [hrun]
  exact rest_results x .never pc

/-- A turn only adds results. -/
theorem sessionTurn_results (m : Manager) (x : Session) (pc : Worker) :
    x.status.results <+: (sessionTurn m x pc).1.results := by
  cases pc with
  | look =>
    rw [sessionTurn]
    split_ifs <;> exact List.prefix_refl _
  | taken =>
    rw [sessionTurn]
    split_ifs <;> exact List.prefix_refl _
  | mapping cursor =>
    rw [sessionTurn, (mappingTurn_next x m.shouldCancel cursor).2.1]
  | chunk mappingEnd cursor carry =>
    exact (chunkTurn_next x m.shouldCancel mappingEnd cursor carry).2.1
  | ending failure =>
    rw [sessionTurn]
    split_ifs <;> exact List.prefix_refl _
  | finishing state error => exact List.prefix_refl _
  | exited => exact List.prefix_refl _

/-- Only a turn of the inner loop adds any. -/
theorem sessionTurn_results_eq (m : Manager) (x : Session) {pc : Worker}
    (h : ∀ mappingEnd cursor carry, pc ≠ .chunk mappingEnd cursor carry) :
    (sessionTurn m x pc).1.results = x.status.results := by
  cases pc with
  | look =>
    rw [sessionTurn]
    split_ifs <;> rfl
  | taken =>
    rw [sessionTurn]
    split_ifs <;> rfl
  | mapping cursor => exact (mappingTurn_next x m.shouldCancel cursor).2.1
  | chunk mappingEnd cursor carry => exact absurd rfl (h mappingEnd cursor carry)
  | ending failure =>
    rw [sessionTurn]
    split_ifs <;> rfl
  | finishing state error => rfl
  | exited => rfl

structure Inv (s : State) : Prop where
  absent : s.manager.session = none → s.worker = .look ∨ s.worker = .exited
  worker : ∀ x, s.manager.session = some x → WorkerHolds s.manager x s.worker
  results : ∀ x, s.manager.session = some x → x.status.results <+: (x.runs .never).results

variable {s : State}

theorem WorkerHolds.mono {m m' : Manager} {x : Session} {pc : Worker} (h : WorkerHolds m x pc)
    (hcancel : m.shouldCancel = true → m'.shouldCancel = true) : WorkerHolds m' x pc := by
  have hloop : ∀ pc, x.status.state = .running ∧
      (Reached x pc ∨ m.shouldCancel = true ∧ Stopped x) →
      x.status.state = .running ∧ (Reached x pc ∨ m'.shouldCancel = true ∧ Stopped x) := by
    rintro pc ⟨hstate, hr | ⟨hseen, hs⟩⟩
    · exact ⟨hstate, .inl hr⟩
    · exact ⟨hstate, .inr ⟨hcancel hseen, hs⟩⟩
  cases pc with
  | look => exact h
  | taken => exact h
  | mapping cursor => exact hloop _ h
  | chunk mappingEnd cursor carry => exact hloop _ h
  | ending failure => exact hloop _ h
  | finishing state error => exact h
  | exited => exact h

/-- The worker is in a run only while its session is active. -/
theorem Inv.resting (h : Inv s) (hinactive : s.manager.active = false) :
    s.worker = .look ∨ s.worker = .exited := by
  cases hsession : s.manager.session with
  | none => exact h.absent hsession
  | some x =>
    have hworker := h.worker x hsession
    have hstate : isActive x.status.state = false := by
      rwa [Manager.active, hsession] at hinactive
    have hqueued : x.status ≠ newStatus .queued := by
      intro hstatus
      rw [hstatus] at hstate
      cases hstate
    have hrunning : x.status.state ≠ .running := by
      intro hstatus
      rw [hstatus] at hstate
      cases hstate
    cases hpc : s.worker with
    | look => exact .inl rfl
    | exited => exact .inr rfl
    | taken =>
      rw [hpc] at hworker
      exact absurd hworker hqueued
    | mapping cursor =>
      rw [hpc] at hworker
      exact absurd hworker.1 hrunning
    | chunk mappingEnd cursor carry =>
      rw [hpc] at hworker
      exact absurd hworker.1 hrunning
    | ending failure =>
      rw [hpc] at hworker
      exact absurd hworker.1 hrunning
    | finishing state error =>
      rw [hpc] at hworker
      rw [hworker.1] at hstate
      cases hstate

/-- A step that touches nothing but the flags, and cancels if anything. -/
theorem Inv.withManager (h : Inv s) {m : Manager} (hsession : m.session = s.manager.session)
    (hcancel : s.manager.shouldCancel = true → m.shouldCancel = true) :
    Inv { s with manager := m } where
  absent := by
    intro hnone
    exact h.absent (hsession.symm.trans hnone)
  worker := by
    intro x hx
    exact (h.worker x (hsession.symm.trans hx)).mono hcancel
  results := by
    intro x hx
    exact h.results x (hsession.symm.trans hx)

theorem inv_queueSearch (h : Inv s) (otherSession allocated : Bool) (request : SearchRequest)
    (world : SearchWorld) : Inv (s.queueSearch otherSession allocated request world).2 := by
  unfold State.queueSearch
  split_ifs with hthread hother hactive hallocated
  · exact h
  · exact h
  · exact h
  · exact h
  · have hresting := h.resting (Bool.eq_false_of_not_eq_true hactive)
    refine ⟨?_, ?_, ?_⟩
    · intro hnone
      cases hnone
    · intro x hx
      obtain rfl := Option.some.inj hx
      rcases hresting with hpc | hpc
      · rw [hpc]
        exact .inl rfl
      · rw [hpc]
        exact .inl rfl
    · intro x hx
      obtain rfl := Option.some.inj hx
      exact List.nil_prefix

theorem inv_searchCancel (h : Inv s) (sessionId : UInt64) : Inv (s.searchCancel sessionId) := by
  unfold State.searchCancel
  split_ifs with hfound
  · exact h.withManager rfl fun _ => rfl
  · exact h

theorem inv_searchClose (h : Inv s) (sessionId : UInt64) : Inv (s.searchClose sessionId) := by
  unfold State.searchClose
  split_ifs with hfound
  · refine ⟨fun _ => h.resting (Bool.eq_false_of_not_eq_true hfound.2), ?_, ?_⟩
    · intro x hx
      cases hx
    · intro x hx
      cases hx
  · exact h

theorem inv_searchShutdown (h : Inv s) : Inv s.searchShutdown :=
  h.withManager rfl fun _ => rfl

theorem inv_workerStep (h : Inv s) : Inv s.workerStep := by
  unfold State.workerStep
  cases hsession : s.manager.session with
  | none =>
    dsimp only
    split
    · split_ifs with hexit
      · refine ⟨fun _ => .inr rfl, ?_, ?_⟩
        · intro x hx
          cases hsession.symm.trans hx
        · intro x hx
          cases hsession.symm.trans hx
      · exact h
    · exact h
  | some x =>
    -- the worker's place goes on by its turn, and only the turn of a chunk stores results
    have hworker := h.worker x hsession
    have hnext := sessionTurn_holds hworker
    refine ⟨?_, ?_, ?_⟩
    · intro hnone
      cases hnone
    · intro y hy
      obtain rfl := Option.some.inj hy
      exact hnext.mono id
    · intro y hy
      obtain rfl := Option.some.inj hy
      have hbefore := h.results x hsession
      by_cases hchunk : ∃ mappingEnd cursor carry, s.worker = .chunk mappingEnd cursor carry
      · obtain ⟨mappingEnd, cursor, carry, hpc⟩ := hchunk
        rw [hpc] at hworker
        -- without a cancellation the run leads on; with one the turn changes nothing
        cases hcancel : s.manager.shouldCancel with
        | false =>
          rcases hworker.2 with hr | ⟨hcontra, -⟩
          · have hled := hr.chunkTurn.results
            rw [← hcancel] at hled
            rw [hpc]
            exact hled
          · rw [hcancel] at hcontra
            cases hcontra
        | true =>
          have hturn : sessionTurn s.manager x s.worker = (x.status, .mapping cursor) := by
            rw [hpc, sessionTurn, chunkTurn, hcancel, if_neg (not_and_of_not_right _ Bool.noConfusion)]
          rw [hturn]
          exact hbefore
      · have hkept : (sessionTurn s.manager x s.worker).1.results = x.status.results :=
          sessionTurn_results_eq s.manager x fun mappingEnd cursor carry hpc =>
            hchunk ⟨mappingEnd, cursor, carry, hpc⟩
        rw [← hkept] at hbefore
        exact hbefore

theorem inv_step (h : Inv s) (a : Step) : Inv (step s a) := by
  cases a with
  | start otherSession allocated request world =>
    exact inv_queueSearch h otherSession allocated request world
  | cancel sessionId => exact inv_searchCancel h sessionId
  | close sessionId => exact inv_searchClose h sessionId
  | shutdown => exact inv_searchShutdown h
  | worker => exact inv_workerStep h

theorem inv_initial (threadCreated threadStarted : Bool) :
    Inv (initial threadCreated threadStarted) := by
  refine ⟨fun _ => .inl rfl, ?_, ?_⟩
  · intro x hx
    cases hx
  · intro x hx
    cases hx

end System

open Runs

/-- Whatever commands come while the worker is at it: a session that has ended holds what its run
    returns, with no cancellation unless it says so; and at every moment its results begin those of
    the run that nothing cancels. -/
theorem exact_session_runs (threadCreated threadStarted : Bool) (steps : List Step) {x : Session}
    (hx : (run step (initial threadCreated threadStarted) steps).manager.session = some x) :
    (isActive x.status.state = false →
      ∃ cancels, x.status = runSearch (x.world.answers cancels) x.request ∧
        (x.status.state ≠ .cancelled → cancels = .never)) ∧
      x.status.results <+: (runSearch (x.world.answers .never) x.request).results := by
  have hstep : ∀ t a, Inv t → Inv (step t a) := fun _ a ht => inv_step ht a
  have h := invariant_run hstep steps (inv_initial threadCreated threadStarted)
  refine ⟨?_, h.results x hx⟩
  intro hinactive
  have hactive : (run step (initial threadCreated threadStarted) steps).manager.active = false := by
    rwa [Manager.active, hx]
  have hended : x.status = newStatus .queued ∨ Ended x x.status := by
    have hworker := h.worker x hx
    rcases h.resting hactive with hpc | hpc
    · rw [hpc] at hworker
      exact hworker
    · rw [hpc] at hworker
      exact hworker
  rcases hended with hqueued | ⟨-, cancels, hrun, hnever⟩
  · rw [hqueued] at hinactive
    cases hinactive
  · exact ⟨cancels, hrun.symm, hnever⟩

/-- The world of `zeroPage`. -/
def zeroWorld : SearchWorld where
  memory := fun _ => 0
  bufferAllocated := true
  processIsCurrent := fun _ => true
  queryMapping := fun _ => .ok { addr := 0x1000, size := 0x1000, perm := Perm_R }
  readFails := fun _ => false

/-- A search for two zeros that is cancelled behind its first chunk, with a start in between that is
    refused. -/
def cancelledSearch : List Step :=
  [.start false true twoZeros zeroWorld, .worker, .worker, .start false true twoZeros zeroWorld,
    .worker, .worker, .cancel 1, .worker, .worker, .worker, .worker]

theorem exact_session_runs_cancelled :
    ∃ x, (run step (initial true true) cancelledSearch).manager.session = some x ∧
      x.status.state = .cancelled ∧ x.status.results = [0x1000, 0x1002] ∧
      (∃ cancels, x.status = runSearch (x.world.answers cancels) x.request) ∧
      x.status.results <+: (runSearch (x.world.answers .never) x.request).results := by
  have hstatus : (run step (initial true true) cancelledSearch).manager.session.map Session.status =
      some { newStatus .cancelled with
        scanned := 4, totalMatches := 2, storedMatches := 2, results := [0x1000, 0x1002] } := by
    decide
  obtain ⟨x, hx, heq⟩ := Option.map_eq_some_iff.1 hstatus
  obtain ⟨hend, hresults⟩ := exact_session_runs true true cancelledSearch hx
  have hinactive : isActive x.status.state = false := by
    rw [heq]
    rfl
  obtain ⟨cancels, hrun, -⟩ := hend hinactive
  refine ⟨x, hx, ?_, ?_, ⟨cancels, hrun⟩, hresults⟩
  · rw [heq]
    rfl
  · rw [heq]

/-! ## A session's results grow -/

section Growth

/-- There is a session id left that names an exact search. -/
def IdsLeft (s : State) : Step → Prop
  | .start _ _ _ _ => s.manager.nextSessionId.toNat < 2 ^ 63
  | _ => True

/-- The results are counted, and there is room for them. -/
def Counted (status : SearchProgress) : Prop :=
  status.storedMatches = status.results.length ∧ status.results.length ≤ SEARCH_MAX_RESULTS

/-- Whatever has the id has begun with these results. -/
structure Since (sessionId : UInt64) (results : List Nat) (s : State) : Prop where
  positive : 0 < s.manager.nextSessionId.toNat
  bounded : s.manager.nextSessionId.toNat ≤ 2 ^ 63
  issued : sessionId.toNat < s.manager.nextSessionId.toNat
  earlier : ∀ x, s.manager.session = some x →
    x.sessionId ≠ 0 ∧ x.sessionId.toNat < s.manager.nextSessionId.toNat
  counted : ∀ x, s.manager.session = some x → Counted x.status
  begun : ∀ x, s.manager.session = some x → x.sessionId = sessionId →
    results <+: x.status.results

variable {sessionId : UInt64} {results : List Nat} {s : State}

theorem counted_recordMatch {status : SearchProgress} (h : Counted status) (a : Nat) :
    Counted (recordMatch status a) := by
  obtain ⟨hstored, hroom⟩ := h
  unfold recordMatch
  dsimp only
  split
  · rename_i hlt
    refine ⟨?_, ?_⟩
    · rw [List.length_append, List.length_singleton, hstored]
    · rw [List.length_append, List.length_singleton]
      omega
  · exact ⟨hstored, hroom⟩

theorem counted_foldl {status : SearchProgress} (h : Counted status) (found : List Nat) :
    Counted (found.foldl recordMatch status) := by
  induction found generalizing status with
  | nil => exact h
  | cons a found ih => exact ih (counted_recordMatch h a)

theorem counted_chunkTurn {x : Session} (h : Counted x.status) (cancelled : Bool)
    (mappingEnd cursor : Nat) (carry : List UInt8) :
    Counted (chunkTurn x cancelled mappingEnd cursor carry).1 := by
  unfold chunkTurn
  by_cases hlt : cursor < mappingEnd ∧ cancelled = false
  · rw [if_pos hlt]
    dsimp only
    split
    · exact h
    · exact counted_foldl h _
  · rw [if_neg hlt]
    exact h

theorem counted_sessionTurn {m : Manager} {x : Session} (h : Counted x.status) (pc : Worker) :
    Counted (sessionTurn m x pc).1 := by
  cases pc with
  | look =>
    rw [sessionTurn]
    split_ifs <;> exact h
  | taken =>
    rw [sessionTurn]
    split_ifs <;> exact h
  | mapping cursor =>
    rw [sessionTurn, mappingTurn]
    split
    · split
      · exact h
      · split
        · exact h
        · dsimp only
          split <;> exact h
    · exact h
  | chunk mappingEnd cursor carry => exact counted_chunkTurn h _ mappingEnd cursor carry
  | ending failure =>
    rw [sessionTurn]
    split_ifs <;> exact h
  | finishing state error => exact h
  | exited => exact h

/-- A step that keeps the session or has none. -/
theorem Since.withSession (h : Since sessionId results s) {s' : State}
    (hnext : s'.manager.nextSessionId = s.manager.nextSessionId)
    (hsession : s'.manager.session = s.manager.session ∨ s'.manager.session = none) :
    Since sessionId results s' := by
  have hback : ∀ x, s'.manager.session = some x → s.manager.session = some x := by
    intro x hx
    rcases hsession with hsame | hnone
    · exact hsame.symm.trans hx
    · cases hnone.symm.trans hx
  refine ⟨?_, ?_, ?_, ?_, ?_, ?_⟩
  · rw [hnext]
    exact h.positive
  · rw [hnext]
    exact h.bounded
  · rw [hnext]
    exact h.issued
  · intro x hx
    rw [hnext]
    exact h.earlier x (hback x hx)
  · exact fun x hx => h.counted x (hback x hx)
  · exact fun x hx => h.begun x (hback x hx)

theorem since_queueSearch (h : Since sessionId results s)
    (hleft : s.manager.nextSessionId.toNat < 2 ^ 63) (otherSession allocated : Bool)
    (request : SearchRequest) (world : SearchWorld) :
    Since sessionId results (s.queueSearch otherSession allocated request world).2 := by
  unfold State.queueSearch
  split_ifs with hthread hother hactive hallocated
  · exact h
  · exact h
  · exact h
  · exact h
  · -- below `2^63` the next id does not wrap, so it skips no zero
    have hone : (1 : UInt64).toNat = 1 := rfl
    have hsum : (s.manager.nextSessionId + 1).toNat = s.manager.nextSessionId.toNat + 1 := by
      rw [UInt64.toNat_add, hone, Nat.mod_eq_of_lt (by omega)]
    have hnext : (SearchSystem.nextExactId s.manager.nextSessionId).toNat =
        s.manager.nextSessionId.toNat + 1 := by
      rw [SearchSystem.nextExactId, if_neg, hsum]
      intro hzero
      rw [hzero] at hsum
      cases hsum
    refine ⟨?_, ?_, ?_, ?_, ?_, ?_⟩
    · rw [hnext]
      omega
    · rw [hnext]
      omega
    · rw [hnext]
      exact h.issued.trans (Nat.lt_succ_self _)
    · intro x hx
      obtain rfl := Option.some.inj hx
      refine ⟨?_, ?_⟩
      · intro hzero
        have hpositive := h.positive
        rw [show s.manager.nextSessionId = 0 from hzero] at hpositive
        cases hpositive
      · rw [hnext]
        exact Nat.lt_succ_self _
    · intro x hx
      obtain rfl := Option.some.inj hx
      exact ⟨rfl, Nat.zero_le _⟩
    · -- the id is a new one
      intro x hx hsame
      obtain rfl := Option.some.inj hx
      have hissued := h.issued
      rw [← hsame] at hissued
      exact absurd hissued (lt_irrefl _)

theorem since_workerStep (h : Since sessionId results s) : Since sessionId results s.workerStep := by
  unfold State.workerStep
  cases hsession : s.manager.session with
  | none =>
    dsimp only
    split
    · split_ifs
      · exact h.withSession rfl (.inl rfl)
      · exact h
    · exact h
  | some x =>
    refine ⟨h.positive, h.bounded, h.issued, ?_, ?_, ?_⟩
    · intro y hy
      obtain rfl := Option.some.inj hy
      exact h.earlier x hsession
    · intro y hy
      obtain rfl := Option.some.inj hy
      exact counted_sessionTurn (h.counted x hsession) s.worker
    · intro y hy hsame
      obtain rfl := Option.some.inj hy
      exact (h.begun x hsession hsame).trans (sessionTurn_results s.manager x s.worker)

theorem since_step (h : Since sessionId results s) {a : Step} (hleft : IdsLeft s a) :
    Since sessionId results (step s a) := by
  cases a with
  | start otherSession allocated request world =>
    exact since_queueSearch h hleft otherSession allocated request world
  | cancel other =>
    unfold step State.searchCancel
    dsimp only
    split_ifs
    · exact h.withSession rfl (.inl rfl)
    · exact h
  | close other =>
    unfold step State.searchClose
    dsimp only
    split_ifs
    · exact h.withSession rfl (.inr rfl)
    · exact h
  | shutdown => exact h.withSession rfl (.inl rfl)
  | worker => exact since_workerStep h

theorem since_initial (threadCreated threadStarted : Bool) :
    Since 0 [] (initial threadCreated threadStarted) := by
  have hone : (1 : UInt64).toNat = 1 := rfl
  have hzero : (0 : UInt64).toNat = 0 := rfl
  refine ⟨?_, ?_, ?_, ?_, ?_, ?_⟩
  · show 0 < (1 : UInt64).toNat
    omega
  · show (1 : UInt64).toNat ≤ 2 ^ 63
    omega
  · show (0 : UInt64).toNat < (1 : UInt64).toNat
    omega
  · intro x hx
    cases hx
  · intro x hx
    cases hx
  · intro x hx
    cases hx

theorem Since.mono {fewer : List Nat} (h : Since sessionId results s) (hle : fewer <+: results) :
    Since sessionId fewer s :=
  { h with begun := fun x hx hsame => hle.trans (h.begun x hx hsame) }

/-- What a session has now it keeps. -/
theorem Since.now {other : UInt64} {fewer : List Nat} (h : Since other fewer s) {x : Session}
    (hx : s.manager.session = some x) : Since x.sessionId x.status.results s := by
  refine ⟨h.positive, h.bounded, (h.earlier x hx).2, h.earlier, h.counted, ?_⟩
  intro y hy _
  obtain rfl := Option.some.inj (hx.symm.trans hy)
  exact List.prefix_refl _

end Growth

end SysAgent.ExactSearch
