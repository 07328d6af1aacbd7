import Mathlib
import SysAgent.Search.Exact

set_option autoImplicit false

/-! # Completeness of the exact search

Which addresses a run must report, stated over the mappings and the chunks that could be read, and
that it reports exactly those. The inner loop carries `patternSize - 1` bytes from chunk to chunk:
an occurrence is found in the chunk that holds its last byte. -/

namespace SysAgent

/-! ## What a run must report -/

section Spec

variable (answers : SearchAnswers) (request : SearchRequest)

/-- The plan for the mapping found at `cursor`. -/
def SearchAnswers.plan (cursor : Nat) (info : MemoryInfo) : SearchRangePlan :=
  searchPlanMapping cursor request.finish info.addr info.size info.readable

/-- The outer loop comes from one cursor to another. -/
inductive Visits : Nat → Nat → Prop
  | refl (cursor : Nat) : Visits cursor cursor
  | step {cursor last : Nat} {info : MemoryInfo} : cursor < request.finish →
      answers.queryMapping cursor = .ok info →
      (SearchAnswers.plan request cursor info).action ≠ .invalid →
      Visits (SearchAnswers.plan request cursor info).finish last → Visits cursor last

/-- `[first, last)` is a readable mapping segment that the outer loop meets from `cursor` on. -/
def Segment (cursor first last : Nat) : Prop :=
  Visits answers request cursor first ∧ first < request.finish ∧
    ∃ info, answers.queryMapping first = .ok info ∧
      (SearchAnswers.plan request first info).action = .read ∧
      (SearchAnswers.plan request first info).finish = last

/-- The chunk of a segment that holds an address was read. -/
def ChunkRead (first a : Nat) : Prop :=
  answers.readFails (first + (a - first) / SEARCH_CHUNK_SIZE * SEARCH_CHUNK_SIZE) = false

/-- `a` is aligned, and the pattern is in memory at `a`. -/
def Matches (a : Nat) : Prop :=
  a % request.alignment = 0 ∧
    Scan.window answers.memory a request.pattern.length = request.pattern

/-- An address to report: the pattern occurs there inside a maximal run of chunks of one segment
    that were read. -/
def Reported (a : Nat) : Prop :=
  Matches answers request a ∧ ∃ first last lo hi, Segment answers request request.start first last ∧
    Scan.MaximalRun (ChunkRead answers first) first last lo hi ∧
    lo ≤ a ∧ a + request.pattern.length ≤ hi

/-- The same, for one segment and byte by byte. -/
def Inside (first last a : Nat) : Prop :=
  Matches answers request a ∧ first ≤ a ∧ a + request.pattern.length ≤ last ∧
    ∀ x, a ≤ x → x < a + request.pattern.length → ChunkRead answers first x

theorem reported_iff {a : Nat} :
    Reported answers request a ↔
      ∃ first last, Segment answers request request.start first last ∧
        Inside answers request first last a := by
  constructor
  · rintro ⟨hmatch, first, last, lo, hi, hseg, hrun, hlo, hhi⟩
    exact ⟨first, last, hseg, hmatch,
      (Scan.exists_maximalRun_iff _).1 ⟨lo, hi, hrun, hlo, hhi⟩⟩
  · rintro ⟨first, last, hseg, hmatch, hinside⟩
    obtain ⟨lo, hi, hrun, hlo, hhi⟩ := (Scan.exists_maximalRun_iff _).2 hinside
    exact ⟨hmatch, first, last, lo, hi, hseg, hrun, hlo, hhi⟩

end Spec

/-! ## Recording -/

/-- The status reports the addresses `found`, in order. -/
structure Records (status : SearchProgress) (found : List Nat) : Prop where
  total : status.totalMatches = found.length
  stored : status.storedMatches = min found.length SEARCH_MAX_RESULTS
  results : status.results = found.take SEARCH_MAX_RESULTS
  truncated : status.truncated = true ↔ SEARCH_MAX_RESULTS < found.length

theorem records_recordMatch {status : SearchProgress} {found : List Nat} (h : Records status found)
    (a : Nat) : Records (recordMatch status a) (found ++ [a]) := by
  have hlen : (found ++ [a]).length = found.length + 1 := by simp
  by_cases hroom : found.length < SEARCH_MAX_RESULTS
  · have hstored : status.storedMatches < SEARCH_MAX_RESULTS := by
      rw [h.stored]
      omega
    simp only [recordMatch, hstored, if_true]
    refine { total := ?_, stored := ?_, results := ?_, truncated := ?_ }
    · simp [h.total]
    · simp only [h.stored, hlen]
      omega
    · simp only [h.results]
      rw [List.take_of_length_le hroom.le, List.take_of_length_le (by omega)]
    · rw [h.truncated, hlen]
      omega
  · have hstored : ¬ status.storedMatches < SEARCH_MAX_RESULTS := by
      rw [h.stored]
      omega
    simp only [recordMatch, hstored, if_false]
    refine { total := ?_, stored := ?_, results := ?_, truncated := ?_ }
    · simp [h.total]
    · simp only [h.stored, hlen]
      omega
    · simp only [h.results]
      rw [List.take_append_of_le_length (by omega)]
    · rw [hlen]
      simp only [true_iff]
      omega

theorem records_foldl {status : SearchProgress} {found : List Nat} (h : Records status found)
    (more : List Nat) : Records (more.foldl recordMatch status) (found ++ more) := by
  induction more generalizing status found with
  | nil => simpa using h
  | cons a more ih =>
    have hnext := ih (records_recordMatch h a)
    rwa [List.append_assoc] at hnext

theorem Records.congr {status status' : SearchProgress} {found : List Nat} (h : Records status found)
    (htotal : status'.totalMatches = status.totalMatches)
    (hstored : status'.storedMatches = status.storedMatches)
    (hresults : status'.results = status.results)
    (htruncated : status'.truncated = status.truncated) : Records status' found :=
  { total := htotal.trans h.total, stored := hstored.trans h.stored
    results := hresults.trans h.results, truncated := by rw [htruncated]; exact h.truncated }

/-- Recording changes neither the state nor the progress. -/
theorem foldl_recordMatch_scanned (status : SearchProgress) (more : List Nat) :
    (more.foldl recordMatch status).scanned = status.scanned := by
  induction more generalizing status with
  | nil => rfl
  | cons a more ih =>
    rw [List.foldl_cons, ih, recordMatch]
    split <;> rfl

/-! ## One buffer -/

/-- The matcher finds the occurrences in a buffer that holds the memory from its address on. -/
theorem searchExactBufferAligned_window (memory : Nat → UInt8) {pattern : List UInt8}
    (hpattern : pattern ≠ []) {alignment : Nat} (halign : 0 < alignment) {lo n : Nat}
    (hbound : lo + n < 2 ^ 64) :
    searchExactBufferAligned (Scan.window memory lo n) pattern lo alignment =
      Scan.occurrences memory pattern (fun a => a % alignment == 0) lo (lo + n) := by
  have hpos : 0 < pattern.length := List.length_pos_iff.2 hpattern
  unfold searchExactBufferAligned Scan.occurrences
  split
  · rename_i hempty
    rw [Scan.length_window] at hempty
    have hnone : lo + n + 1 - (lo + pattern.length) = 0 := by omega
    rw [hnone]
    rfl
  · rename_i hsome
    simp only [not_or, Nat.not_lt, Scan.length_window] at hsome
    have hcount : lo + n + 1 - (lo + pattern.length) = n - pattern.length + 1 := by omega
    rw [hcount, Scan.length_window, List.range'_eq_map_range, List.filter_map]
    have hinner : ∀ offset ∈ List.range (n - pattern.length + 1),
        (u64 (lo + offset) % alignment == 0 &&
          ((Scan.window memory lo n).drop offset).take pattern.length == pattern) =
        ((fun a => a % alignment == 0 && Scan.window memory a pattern.length == pattern) ∘
          fun offset => lo + offset) offset := by
      intro offset hoffset
      rw [List.mem_range] at hoffset
      have hwin : min pattern.length (n - offset) = pattern.length := by omega
      rw [Scan.drop_window, Scan.take_window, hwin, u64_of_lt (by omega), Function.comp_apply]
    show List.map _ (List.filter _ (List.range (n - pattern.length + 1))) = _
    rw [List.filter_congr hinner]
    refine List.map_congr_left fun offset hoffset => ?_
    have hlt := List.mem_range.1 (List.mem_filter.1 hoffset).1
    exact u64_of_lt (by omega)

/-! ## The inner loop -/

section Inner

variable {answers : SearchAnswers} {request : SearchRequest}

/-- What the inner loop has done when it stands at `cursor` in the segment that starts at `first`:
    `seg` was found there after `found`, and `carry` ends the run of chunks read since `lo`. -/
structure MappingInv (answers : SearchAnswers) (request : SearchRequest) (first last cursor : Nat)
    (carry : List UInt8) (status : SearchProgress) (found seg : List Nat) : Prop where
  le_cursor : first ≤ cursor
  cursor_le : cursor ≤ last
  boundary : cursor < last → (cursor - first) % SEARCH_CHUNK_SIZE = 0
  records : Records status (found ++ seg)
  sorted : seg.Pairwise (· < ·)
  mem_seg : ∀ a, a ∈ seg ↔ Inside answers request first cursor a
  carried : ∃ lo, first ≤ lo ∧ lo ≤ cursor ∧
    (∀ x, lo ≤ x → x < cursor → ChunkRead answers first x) ∧
    (lo = first ∨ ¬ ChunkRead answers first (lo - 1)) ∧
    carry.length = min (cursor - lo) (request.pattern.length - 1) ∧
    carry = Scan.window answers.memory (cursor - carry.length) carry.length

/-- The whole of a chunk is in the chunk its first address is in. -/
theorem chunkRead_iff {first cursor x : Nat} (hle : first ≤ cursor)
    (hboundary : (cursor - first) % SEARCH_CHUNK_SIZE = 0) (hx : cursor ≤ x)
    (hx' : x < cursor + SEARCH_CHUNK_SIZE) :
    ChunkRead answers first x ↔ answers.readFails cursor = false := by
  have hstart : first + (x - first) / SEARCH_CHUNK_SIZE * SEARCH_CHUNK_SIZE = cursor := by
    simp only [SEARCH_CHUNK_SIZE] at *
    omega
  rw [ChunkRead, hstart]

theorem MappingInv.start {first last : Nat} {status : SearchProgress} {found : List Nat}
    (hle : first ≤ last) (h : Records status found) :
    MappingInv answers request first last first [] status found [] where
  le_cursor := Nat.le_refl _
  cursor_le := hle
  boundary := fun _ => by simp
  records := by simpa using h
  sorted := List.Pairwise.nil
  mem_seg := fun a => by
    have hpos := List.length_pos_iff.2 request.pattern_ne
    constructor
    · simp
    · rintro ⟨-, hle, hlt, -⟩
      omega
  carried := ⟨first, Nat.le_refl _, Nat.le_refl _, fun x _ _ => by omega, Or.inl rfl, by simp, rfl⟩

/-- A chunk that cannot be read ends the run. -/
theorem MappingInv.step_failed {first last cursor amount : Nat} {carry : List UInt8}
    {status status' : SearchProgress} {found seg : List Nat}
    (h : MappingInv answers request first last cursor carry status found seg)
    (hlt : cursor < last) (hamount : amount = min SEARCH_CHUNK_SIZE (last - cursor))
    (hfails : answers.readFails cursor = true) (hrecords : Records status' (found ++ seg)) :
    MappingInv answers request first last (cursor + amount) [] status' found seg where
  le_cursor := le_trans h.le_cursor (Nat.le_add_right _ _)
  cursor_le := by omega
  boundary := fun hmore => by
    have hboundary := h.boundary hlt
    have hle := h.le_cursor
    simp only [SEARCH_CHUNK_SIZE] at *
    omega
  records := hrecords
  sorted := h.sorted
  mem_seg := fun a => by
    rw [h.mem_seg]
    constructor
    · rintro ⟨hmatch, hfirst, hle, hall⟩
      exact ⟨hmatch, hfirst, by omega, hall⟩
    · rintro ⟨hmatch, hfirst, hle, hall⟩
      refine ⟨hmatch, hfirst, ?_, hall⟩
      -- an occurrence that ends in this chunk would have a byte of it read
      by_contra hover
      have hpos := List.length_pos_iff.2 request.pattern_ne
      have hle' := h.le_cursor
      have hread := hall (a + request.pattern.length - 1) (by omega) (by omega)
      rw [chunkRead_iff h.le_cursor (h.boundary hlt) (by omega) (by omega), hfails] at hread
      cases hread
  carried := by
    have hle := h.le_cursor
    have hpos : 0 < amount := by
      simp only [SEARCH_CHUNK_SIZE] at hamount
      omega
    refine ⟨cursor + amount, by omega, Nat.le_refl _, fun x hx hx' => by omega, Or.inr ?_,
      by simp, rfl⟩
    rw [chunkRead_iff h.le_cursor (h.boundary hlt) (by omega) (by omega), hfails]
    simp

/-- A chunk that was read: the occurrences that end in it are those in the combined buffer. -/
theorem MappingInv.step_read {first last cursor amount : Nat} {carry : List UInt8}
    {status status' : SearchProgress} {found seg : List Nat}
    (h : MappingInv answers request first last cursor carry status found seg)
    (hlt : cursor < last) (hlast : last < 2 ^ 64)
    (hamount : amount = min SEARCH_CHUNK_SIZE (last - cursor))
    (hread : answers.readFails cursor = false)
    (hrecords : Records status' (found ++ (seg ++
      searchExactBufferAligned (carry ++ Scan.window answers.memory cursor amount) request.pattern
        (cursor - carry.length) request.alignment)))
    {carrySize : Nat}
    (hcarry : carrySize = min (carry.length + amount) (request.pattern.length - 1)) :
    ∃ seg', MappingInv answers request first last (cursor + amount)
      ((carry ++ Scan.window answers.memory cursor amount).drop
        (carry.length + amount - carrySize)) status' found seg' := by
  obtain ⟨lo, hfirst, hlo, hall, hmax, hlen, hwindow⟩ := h.carried
  have hpos := List.length_pos_iff.2 request.pattern_ne
  have hcombined : carry ++ Scan.window answers.memory cursor amount =
      Scan.window answers.memory (cursor - carry.length) (carry.length + amount) := by
    have happend := Scan.window_append answers.memory (cursor - carry.length) carry.length amount
    rw [← hwindow, show cursor - carry.length + carry.length = cursor by omega] at happend
    exact happend
  have hchunk : ∀ x, cursor ≤ x → x < cursor + amount → ChunkRead answers first x := by
    intro x hx hx'
    rw [chunkRead_iff h.le_cursor (h.boundary hlt) hx (by omega)]
    exact hread
  rw [hcombined, searchExactBufferAligned_window _ request.pattern_ne request.alignment_pos
    (by omega)] at hrecords
  rw [hcombined, Scan.drop_window]
  have hcursor : cursor + amount ≤ last := by omega
  refine ⟨_, { le_cursor := le_trans h.le_cursor (Nat.le_add_right _ _), cursor_le := hcursor,
               boundary := ?_, records := hrecords, sorted := ?_, mem_seg := ?_, carried := ?_ }⟩
  · intro hmore
    have hboundary := h.boundary hlt
    have hle := h.le_cursor
    simp only [SEARCH_CHUNK_SIZE] at *
    omega
  · refine List.pairwise_append.2 ⟨h.sorted, Scan.occurrences_sorted _ _ _ _ _, ?_⟩
    intro a ha b hb
    have hinside := ((h.mem_seg a).1 ha).2.2.1
    have hlower := ((Scan.mem_occurrences _ _ _).1 hb).1
    omega
  · intro a
    rw [List.mem_append, h.mem_seg, Scan.mem_occurrences]
    constructor
    · rintro (⟨hmatch, hge, hle, hbytes⟩ | ⟨hge, hle, halign, hmatch⟩)
      · exact ⟨hmatch, hge, by omega, hbytes⟩
      · refine ⟨⟨by simpa using halign, hmatch⟩, by omega, by omega, fun x hx hx' => ?_⟩
        rcases Nat.lt_or_ge x cursor with hbefore | hafter
        · exact hall x (by omega) hbefore
        · exact hchunk x hafter (by omega)
    · rintro ⟨hmatch, hge, hle, hbytes⟩
      by_cases hearlier : a + request.pattern.length ≤ cursor
      · exact Or.inl ⟨hmatch, hge, hearlier, hbytes⟩
      · -- the run since `lo` covers all of the occurrence
        have hrun : lo ≤ a := by
          by_contra hbelow
          rcases hmax with rfl | hstop
          · omega
          · exact hstop (hbytes (lo - 1) (by omega) (by omega))
        exact Or.inr ⟨by omega, by omega, by simpa using hmatch.1, hmatch.2⟩
  · refine ⟨lo, hfirst, by omega, fun x hx hx' => ?_, hmax, ?_, ?_⟩
    · rcases Nat.lt_or_ge x cursor with hbefore | hafter
      · exact hall x hx hbefore
      · exact hchunk x hafter (by omega)
    · rw [Scan.length_window]
      omega
    · rw [Scan.length_window]
      congr 1
      omega

/-- Walking a segment to its end finds everything inside it. -/
theorem MappingInv.scanMapping {first last cursor cursor' : Nat} {carry : List UInt8}
    {status status' : SearchProgress} {found seg : List Nat}
    (h : MappingInv answers request first last cursor carry status found seg)
    (hlast : last < 2 ^ 64)
    (hrun : SysAgent.scanMapping answers request last cursor carry status =
      (status', cursor', false)) :
    ∃ seg', Records status' (found ++ seg') ∧ seg'.Pairwise (· < ·) ∧
      (∀ a, a ∈ seg' ↔ Inside answers request first last a) ∧
      status'.scanned = status.scanned + (last - cursor) := by
  revert hrun
  fun_induction SysAgent.scanMapping answers request last cursor carry status generalizing seg with
  | case1 =>
    intro hrun
    cases hrun
  | case2 cursor carry status hlt hcancel amount hfails =>
    rename_i ih
    intro hrun
    have hnext : MappingInv answers request first last (cursor + amount) []
        { status with
          readErrors := status.readErrors + 1
          scanned := status.scanned + amount } found seg :=
      h.step_failed hlt rfl hfails (h.records.congr rfl rfl rfl rfl)
    obtain ⟨seg', hrecords, hsorted, hmem, hscanned⟩ := ih hnext hrun
    refine ⟨seg', hrecords, hsorted, hmem, ?_⟩
    rw [hscanned]
    show status.scanned + amount + (last - (cursor + amount)) = status.scanned + (last - cursor)
    omega
  | case3 cursor carry status hlt hcancel amount hfails combined bufferAddress status1 status2
      overlap carrySize =>
    rename_i ih
    intro hrun
    have hlen : combined.length = carry.length + amount := by
      simp only [combined, List.length_append, Scan.length_window]
    have hcarry : carrySize = min (carry.length + amount) (request.pattern.length - 1) := by
      have hpos := List.length_pos_iff.2 request.pattern_ne
      have hoverlap : overlap = request.pattern.length - 1 := by
        simp only [overlap]
        split <;> omega
      simp only [carrySize, hlen, hoverlap]
      split <;> omega
    have hrecords : Records status2 (found ++ (seg ++ searchExactBufferAligned combined
        request.pattern bufferAddress request.alignment)) := by
      rw [← List.append_assoc]
      exact (records_foldl h.records _).congr rfl rfl rfl rfl
    obtain ⟨seg', hnext⟩ := h.step_read hlt hlast rfl (by simpa using hfails) hrecords hcarry
    rw [← hlen] at hnext
    obtain ⟨seg'', hrecords', hsorted, hmem, hscanned⟩ := ih hnext hrun
    refine ⟨seg'', hrecords', hsorted, hmem, ?_⟩
    rw [hscanned]
    show status1.scanned + amount + (last - (cursor + amount)) = status.scanned + (last - cursor)
    rw [foldl_recordMatch_scanned]
    omega
  | case4 cursor carry status hend =>
    intro hrun
    obtain ⟨rfl, -⟩ := Prod.mk.inj hrun
    obtain rfl : cursor = last := by
      have := h.cursor_le
      omega
    exact ⟨seg, h.records, h.sorted, h.mem_seg, by simp⟩

end Inner

/-! ## The outer loop -/

section Outer

variable {answers : SearchAnswers} {request : SearchRequest}

theorem finishSearch_done {status : SearchProgress} {cancelled : Bool} {failure : SearchError}
    (h : (finishSearch status cancelled failure).state = .done) :
    failure = .none ∧ finishSearch status cancelled failure =
      { status with state := .done, error := .none } := by
  unfold finishSearch at h ⊢
  split at h
  · cases h
  · rename_i hcancel
    split at h
    · cases h
    · rename_i hnone
      rw [if_neg hcancel, if_neg hnone]
      exact ⟨not_not.1 hnone, rfl⟩

/-- The segments met from a cursor: its own, if its mapping is readable, and those met from the end
    of that mapping. -/
theorem segment_iff {cursor first last : Nat} {info : MemoryInfo} (hlt : cursor < request.finish)
    (hinfo : answers.queryMapping cursor = .ok info)
    (hvalid : (SearchAnswers.plan request cursor info).action ≠ .invalid) :
    Segment answers request cursor first last ↔
      ((SearchAnswers.plan request cursor info).action = .read ∧ first = cursor ∧
        last = (SearchAnswers.plan request cursor info).finish) ∨
      Segment answers request (SearchAnswers.plan request cursor info).finish first last := by
  constructor
  · rintro ⟨hvisits, hfirst, info', hinfo', haction, hfinish⟩
    cases hvisits with
    | refl =>
      obtain rfl : info = info' := Except.ok.inj (hinfo.symm.trans hinfo')
      exact Or.inl ⟨haction, rfl, hfinish.symm⟩
    | step hlt' hinfo'' hvalid' hrest =>
      obtain rfl := Except.ok.inj (hinfo.symm.trans hinfo'')
      exact Or.inr ⟨hrest, hfirst, info', hinfo', haction, hfinish⟩
  · rintro (⟨haction, rfl, rfl⟩ | ⟨hvisits, hfirst, hseg⟩)
    · exact ⟨.refl _, hlt, info, hinfo, haction, rfl⟩
    · exact ⟨.step hlt hinfo hvalid hvisits, hfirst, hseg⟩

/-- A segment met from a cursor starts no earlier. -/
theorem Visits.le {cursor last : Nat} (h : Visits answers request cursor last) : cursor ≤ last := by
  induction h with
  | refl => exact Nat.le_refl _
  | step hlt hinfo hvalid hrest ih => exact le_trans (searchPlanMapping_progress hvalid).1.le ih

/-- The addresses to report from a cursor on. -/
def ReportedFrom (answers : SearchAnswers) (request : SearchRequest) (cursor a : Nat) : Prop :=
  ∃ first last, Segment answers request cursor first last ∧ Inside answers request first last a

theorem ReportedFrom.le {cursor a : Nat} (h : ReportedFrom answers request cursor a) :
    cursor ≤ a := by
  obtain ⟨first, last, hseg, hinside⟩ := h
  exact le_trans hseg.1.le hinside.2.1

/-- From a cursor on, a run that is done reports everything there is. -/
theorem scanRange_complete {cursor : Nat} {status : SearchProgress} {found : List Nat}
    (hle : cursor ≤ request.finish) (hrecords : Records status found)
    (hdone : (scanRange answers request cursor status).state = .done) :
    ∃ more, Records (scanRange answers request cursor status) (found ++ more) ∧
      more.Pairwise (· < ·) ∧ (∀ a, a ∈ more ↔ ReportedFrom answers request cursor a) ∧
      (scanRange answers request cursor status).scanned =
        status.scanned + (request.finish - cursor) := by
  revert hdone
  fun_induction scanRange answers request cursor status generalizing found with
  | case1 | case6 =>
    intro hdone
    exact absurd (finishSearch_done hdone).2 (by simp [finishSearch])
  | case2 | case3 | case4 =>
    intro hdone
    cases (finishSearch_done hdone).1
  | case5 cursor status hlt hcancel hcurrent info hinfo plan haction =>
    rename_i ih
    intro hdone
    have hvalid : plan.action ≠ .invalid := by simp [haction]
    obtain ⟨hstep, hfinish⟩ := searchPlanMapping_progress hvalid
    obtain ⟨more, hrecords', hsorted, hmem, hscanned⟩ :=
      ih hfinish (hrecords.congr rfl rfl rfl rfl) hdone
    refine ⟨more, hrecords', hsorted, fun a => ?_, ?_⟩
    · rw [hmem]
      have hnot : ¬ plan.action = .read := by simp [haction]
      constructor
      · rintro ⟨first, last, hseg, hinside⟩
        exact ⟨first, last, (segment_iff hlt hinfo hvalid).2 (Or.inr hseg), hinside⟩
      · rintro ⟨first, last, hseg, hinside⟩
        rcases (segment_iff hlt hinfo hvalid).1 hseg with ⟨hread, -, -⟩ | hseg
        · exact absurd hread hnot
        · exact ⟨first, last, hseg, hinside⟩
    · rw [hscanned]
      show status.scanned + (plan.finish - cursor) + (request.finish - plan.finish) =
        status.scanned + (request.finish - cursor)
      have hstep' : cursor < plan.finish := hstep
      have hfinish' : plan.finish ≤ request.finish := hfinish
      omega
  | case7 cursor status hlt hcancel hcurrent info hinfo plan haction status' cursor' hscan =>
    rename_i ih
    intro hdone
    have hvalid : plan.action ≠ .invalid := by simp [haction]
    obtain ⟨hstep, hfinish⟩ := searchPlanMapping_progress hvalid
    have hstep' : cursor < plan.finish := hstep
    have hfinish' : plan.finish ≤ request.finish := hfinish
    obtain rfl : cursor' = plan.finish := scanMapping_cursor answers request hstep'.le hscan
    have hinv : MappingInv answers request cursor plan.finish cursor [] status found [] :=
      .start hstep'.le hrecords
    obtain ⟨seg, hrecords', hsorted, hmem, hscanned⟩ :=
      hinv.scanMapping (lt_of_le_of_lt hfinish' request.finish_lt) hscan
    obtain ⟨more, hrecords'', hsorted', hmem', hscanned'⟩ := ih hfinish' hrecords' hdone
    refine ⟨seg ++ more, by rwa [← List.append_assoc], ?_, fun a => ?_, ?_⟩
    · refine List.pairwise_append.2 ⟨hsorted, hsorted', fun a ha b hb => ?_⟩
      have hbefore := ((hmem a).1 ha).2.2.1
      have hafter := ((hmem' b).1 hb).le
      have hpos := List.length_pos_iff.2 request.pattern_ne
      omega
    · rw [List.mem_append, hmem, hmem']
      constructor
      · rintro (hinside | ⟨first, last, hseg, hinside⟩)
        · exact ⟨cursor, plan.finish,
            (segment_iff hlt hinfo hvalid).2 (Or.inl ⟨haction, rfl, rfl⟩), hinside⟩
        · exact ⟨first, last, (segment_iff hlt hinfo hvalid).2 (Or.inr hseg), hinside⟩
      · rintro ⟨first, last, hseg, hinside⟩
        rcases (segment_iff hlt hinfo hvalid).1 hseg with ⟨-, rfl, rfl⟩ | hseg
        · exact Or.inl hinside
        · exact Or.inr ⟨first, last, hseg, hinside⟩
    · rw [hscanned', hscanned]
      omega
  | case8 cursor status hend =>
    intro hdone
    rw [(finishSearch_done hdone).2]
    refine ⟨[], ?_, .nil, fun a => ?_, ?_⟩
    · rw [List.append_nil]
      exact hrecords.congr rfl rfl rfl rfl
    · constructor
      · simp
      · rintro ⟨first, last, ⟨hvisits, hfirst, -⟩, -⟩
        have := hvisits.le
        omega
    · show status.scanned = status.scanned + (request.finish - cursor)
      omega

/-! ## The whole run -/

/-- Nothing stops the run: it is not cancelled, the process stays, and every mapping is answered by
    one that `searchPlanMapping` accepts. Reads may fail. -/
structure Undisturbed (answers : SearchAnswers) (request : SearchRequest) : Prop where
  allocated : answers.bufferAllocated = true
  query : ∀ cursor, answers.cancelBeforeQuery cursor = false
  read : ∀ cursor, answers.cancelBeforeRead cursor = false
  atEnd : answers.cancelAtEnd = false
  current : ∀ cursor, answers.processIsCurrent cursor = true
  mapping : ∀ cursor, request.start ≤ cursor → cursor < request.finish →
    ∃ info, answers.queryMapping cursor = .ok info ∧
      (SearchAnswers.plan request cursor info).action ≠ .invalid

theorem scanMapping_undisturbed (h : Undisturbed answers request) (last cursor : Nat)
    (carry : List UInt8) (status : SearchProgress) :
    (scanMapping answers request last cursor carry status).2.2 = false := by
  fun_induction scanMapping answers request last cursor carry status with
  | case1 cursor carry status hlt hcancel =>
    rw [h.read] at hcancel
    cases hcancel
  | case2 _ _ _ _ _ _ _ ih => exact ih
  | case3 _ _ _ _ _ _ _ _ _ _ _ _ _ ih => exact ih
  | case4 => rfl

theorem scanRange_undisturbed (h : Undisturbed answers request) {cursor : Nat}
    (hstart : request.start ≤ cursor) (status : SearchProgress) :
    (scanRange answers request cursor status).state = .done := by
  fun_induction scanRange answers request cursor status with
  | case1 cursor status hlt hcancel =>
    rw [h.query] at hcancel
    cases hcancel
  | case2 cursor status hlt hcancel hcurrent =>
    rw [h.current] at hcurrent
    cases hcurrent
  | case3 cursor status hlt hcancel hcurrent result hquery =>
    obtain ⟨info, hinfo, -⟩ := h.mapping cursor hstart hlt
    cases hquery.symm.trans hinfo
  | case4 cursor status hlt hcancel hcurrent info hquery plan haction =>
    obtain ⟨info', hinfo, hvalid⟩ := h.mapping cursor hstart hlt
    cases hquery.symm.trans hinfo
    exact absurd haction hvalid
  | case5 cursor status hlt hcancel hcurrent info hquery plan haction ih =>
    have hstep := searchPlanMapping_progress (show plan.action ≠ .invalid by simp [haction])
    exact ih (le_trans hstart hstep.1.le)
  | case6 cursor status hlt hcancel hcurrent info hquery plan haction status' cursor' hscan =>
    have hread := scanMapping_undisturbed h plan.finish cursor [] status
    rw [hscan] at hread
    cases hread
  | case7 cursor status hlt hcancel hcurrent info hquery plan haction status' cursor' hscan ih =>
    have hstep := searchPlanMapping_progress (show plan.action ≠ .invalid by simp [haction])
    have hend := scanMapping_cursor answers request hstep.1.le hscan
    exact ih (by omega)
  | case8 cursor status hend => simp [finishSearch, h.atEnd]

/-- An undisturbed run ends done. -/
theorem runSearch_undisturbed (h : Undisturbed answers request) :
    (runSearch answers request).state = .done := by
  simp only [runSearch, h.allocated, Bool.not_true, Bool.false_eq_true, if_false]
  exact scanRange_undisturbed h (Nat.le_refl _) _

/-- What a run that is done must have reported. -/
structure SearchComplete (answers : SearchAnswers) (request : SearchRequest)
    (status : SearchProgress) (found : List Nat) : Prop where
  mem_found : ∀ a, a ∈ found ↔ Reported answers request a
  sorted : found.Pairwise (· < ·)
  records : Records status found
  scanned : status.scanned = request.finish - request.start

/-- A run that ends done has reported exactly the addresses at which the pattern occurs inside a
    run of chunks it could read. -/
theorem runSearch_complete (answers : SearchAnswers) (request : SearchRequest)
    (hdone : (runSearch answers request).state = .done) :
    ∃ found, SearchComplete answers request (runSearch answers request) found := by
  unfold runSearch at hdone ⊢
  split at hdone
  · cases hdone
  · rename_i hbuffer
    rw [if_neg hbuffer]
    have hrecords : Records
        { state := .running, error := .none, scanned := 0, totalMatches := 0, storedMatches := 0,
          readErrors := 0, truncated := false, results := [] } [] :=
      { total := rfl, stored := rfl, results := rfl, truncated := by decide }
    obtain ⟨found, hfound, hsorted, hmem, hscanned⟩ :=
      scanRange_complete request.start_lt.le hrecords hdone
    refine ⟨found, fun a => ?_, hsorted, hfound, ?_⟩
    · rw [hmem, reported_iff]
      rfl
    · rw [hscanned, Nat.zero_add]

end Outer

/-- One readable page of zeros. -/
def zeroPage : SearchAnswers :=
  { memory := fun _ => 0, bufferAllocated := true, cancelBeforeQuery := fun _ => false,
    cancelBeforeRead := fun _ => false, cancelAtEnd := false, processIsCurrent := fun _ => true,
    queryMapping := fun _ => .ok { addr := 0x1000, size := 0x1000, perm := Perm_R },
    readFails := fun _ => false }

/-- Two zero bytes, at even addresses of the first four bytes. -/
def twoZeros : SearchRequest :=
  { start := 0x1000, finish := 0x1004, pattern := [0, 0], alignment := 2, start_lt := by decide,
    finish_lt := by decide, pattern_ne := by decide, pattern_le := by decide,
    alignment_pos := by decide }

theorem runSearch_complete_zeroPage :
    ∃ found, SearchComplete zeroPage twoZeros (runSearch zeroPage twoZeros) found := by
  refine runSearch_complete zeroPage twoZeros ?_
  refine runSearch_undisturbed { allocated := rfl, query := fun _ => rfl, read := fun _ => rfl,
                                 atEnd := rfl, current := fun _ => rfl, mapping := ?_ }
  intro cursor hstart hfinish
  refine ⟨_, rfl, ?_⟩
  have hstart' : 0x1000 ≤ cursor := hstart
  have hfinish' : cursor < 0x1004 := hfinish
  interval_cases cursor <;> decide

end SysAgent
