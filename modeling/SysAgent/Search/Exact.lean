import Mathlib
import SysAgent.Lib.Scan
import SysAgent.Search.Range

set_option autoImplicit false

/-! # The exact search (`search.c`, `search_match.c`)

`runSearch` walks the mappings of `[start, end)` and the chunks of every readable one. What the
outside answers on the way is given for each cursor: the cursor only grows, so that nothing is asked
twice at one of them. A `true` of `shouldCancel` stays true, which ends the run where it is first
seen. -/

namespace SysAgent

def SEARCH_CHUNK_SIZE : Nat := 0x40000
def SEARCH_MAX_PATTERN_SIZE : Nat := 256
def SEARCH_MAX_RESULTS : Nat := 65536

inductive SearchState
  | idle
  | queued
  | running
  | done
  | cancelled
  | error
  deriving DecidableEq, Repr

/-- The error of a search: libnx codes by name, or the result of the failing query. -/
inductive SearchError
  | none
  | outOfMemory
  | notFound
  | badInput
  | query (result : UInt32)
  deriving DecidableEq, Repr

/-- The part of the search status that a run changes. -/
structure SearchProgress where
  state : SearchState
  error : SearchError
  scanned : Nat
  totalMatches : Nat
  storedMatches : Nat
  readErrors : Nat
  truncated : Bool
  /-- `manager.results`, the first `storedMatches` entries. -/
  results : List Nat
  deriving DecidableEq, Repr

/-- What `queueSearch` is called with. -/
structure SearchRequest where
  start : Nat
  finish : Nat
  pattern : List UInt8
  alignment : Nat
  start_lt : start < finish
  finish_lt : finish < 2 ^ 64
  pattern_ne : pattern ≠ []
  pattern_le : pattern.length ≤ SEARCH_MAX_PATTERN_SIZE
  alignment_pos : 0 < alignment

/-- What the outside answers during one run. -/
structure SearchAnswers where
  memory : Nat → UInt8
  bufferAllocated : Bool
  /-- `shouldCancel` before the mapping at a cursor is queried. -/
  cancelBeforeQuery : Nat → Bool
  /-- `shouldCancel` before the chunk at a cursor is read. -/
  cancelBeforeRead : Nat → Bool
  cancelAtEnd : Bool
  processIsCurrent : Nat → Bool
  queryMapping : Nat → Except UInt32 MemoryInfo
  readFails : Nat → Bool

/-! ## The matcher -/

/-- `searchExactBufferAligned`: the addresses passed to the callback, in order. -/
def searchExactBufferAligned (buffer pattern : List UInt8) (bufferAddress alignment : Nat) :
    List Nat :=
  if pattern.length = 0 ∨ buffer.length < pattern.length ∨ alignment = 0 then []
  else
    let last := buffer.length - pattern.length
    ((List.range (last + 1)).filter fun offset =>
      u64 (bufferAddress + offset) % alignment == 0 &&
        (buffer.drop offset).take pattern.length == pattern).map fun offset =>
          u64 (bufferAddress + offset)

/-- `recordMatch`. -/
def recordMatch (status : SearchProgress) (address : Nat) : SearchProgress :=
  let status := { status with totalMatches := status.totalMatches + 1 }
  if status.storedMatches < SEARCH_MAX_RESULTS then
    { status with
      results := status.results ++ [address]
      storedMatches := status.storedMatches + 1 }
  else { status with truncated := true }

/-! ## The run -/

section Run

variable (answers : SearchAnswers) (request : SearchRequest)

/-- The inner loop of `runSearch`: the chunks of a mapping from `cursor` on, with the bytes carried
    over from the last one. Returns the status, the cursor reached, and whether the run was
    cancelled. -/
def scanMapping (mappingEnd cursor : Nat) (carry : List UInt8) (status : SearchProgress) :
    SearchProgress × Nat × Bool :=
  if cursor < mappingEnd then
    if answers.cancelBeforeRead cursor then (status, cursor, true)
    else
      let amount := min SEARCH_CHUNK_SIZE (mappingEnd - cursor)
      if answers.readFails cursor then
        scanMapping mappingEnd (cursor + amount) []
          { status with
            readErrors := status.readErrors + 1
            scanned := status.scanned + amount }
      else
        let combined := carry ++ Scan.window answers.memory cursor amount
        let bufferAddress := cursor - carry.length
        let status := (searchExactBufferAligned combined request.pattern bufferAddress
          request.alignment).foldl recordMatch status
        let status := { status with scanned := status.scanned + amount }
        let overlap := if request.pattern.length > 1 then request.pattern.length - 1 else 0
        let carrySize := if combined.length < overlap then combined.length else overlap
        scanMapping mappingEnd (cursor + amount) (combined.drop (combined.length - carrySize))
          status
  else (status, cursor, false)
termination_by mappingEnd - cursor
decreasing_by all_goals simp only [SEARCH_CHUNK_SIZE]; omega

/-- A mapping that was not cancelled has been walked to its end. -/
theorem scanMapping_cursor {mappingEnd cursor cursor' : Nat} {carry : List UInt8}
    {status status' : SearchProgress} (hle : cursor ≤ mappingEnd)
    (h : scanMapping answers request mappingEnd cursor carry status = (status', cursor', false)) :
    cursor' = mappingEnd := by
  revert h
  fun_induction scanMapping answers request mappingEnd cursor carry status with
  | case1 =>
    intro h
    cases h
  | case2 _ _ _ _ _ _ _ ih => exact ih (by omega)
  | case3 _ _ _ _ _ _ _ _ _ _ _ _ _ ih => exact ih (by omega)
  | case4 cursor _ _ hend =>
    intro h
    cases h
    omega

/-- The end of a run: what the loops left, unless it was cancelled. -/
def finishSearch (status : SearchProgress) (cancelled : Bool) (failure : SearchError) :
    SearchProgress :=
  if cancelled then { status with state := .cancelled, error := .none }
  else if failure ≠ .none then { status with state := .error, error := failure }
  else { status with state := .done, error := .none }

/-- The outer loop of `runSearch`: the mappings from `cursor` on. -/
def scanRange (cursor : Nat) (status : SearchProgress) : SearchProgress :=
  if cursor < request.finish then
    if answers.cancelBeforeQuery cursor then finishSearch status true .none
    else if !answers.processIsCurrent cursor then
      finishSearch status answers.cancelAtEnd .notFound
    else
      match answers.queryMapping cursor with
      | .error result => finishSearch status answers.cancelAtEnd (.query result)
      | .ok info =>
        let plan := searchPlanMapping cursor request.finish info.addr info.size info.readable
        match _haction : plan.action with
        | .invalid => finishSearch status answers.cancelAtEnd .badInput
        | .skip =>
          scanRange plan.finish { status with scanned := status.scanned + (plan.finish - cursor) }
        | .read =>
          match _hscan : scanMapping answers request plan.finish cursor [] status with
          | (status, _, true) => finishSearch status true .none
          | (status, cursor', false) => scanRange cursor' status
  else finishSearch status answers.cancelAtEnd .none
termination_by request.finish - cursor
decreasing_by
  · have hplan := searchPlanMapping_progress (show plan.action ≠ .invalid by simp [_haction])
    omega
  · have hplan := searchPlanMapping_progress (show plan.action ≠ .invalid by simp [_haction])
    have hend := scanMapping_cursor answers request hplan.1.le _hscan
    omega

/-- `runSearch`, from the state that `queueSearch` sets. -/
def runSearch : SearchProgress :=
  let status : SearchProgress :=
    { state := .running, error := .none, scanned := 0, totalMatches := 0, storedMatches := 0,
      readErrors := 0, truncated := false, results := [] }
  if !answers.bufferAllocated then { status with state := .error, error := .outOfMemory }
  else scanRange answers request request.start status

end Run

end SysAgent
