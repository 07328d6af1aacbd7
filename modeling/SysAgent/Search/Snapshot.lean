import Mathlib
import SysAgent.Search.Range
import SysAgent.Store.Image

set_option autoImplicit false

/-! # The first pass of an unknown search (`unknown_search.c`)

`runBegin` walks the mappings of `[start, end)` and stores the aligned values of every readable one,
a block for each chunk. As in the exact search, what the outside answers is given for each cursor. A
pass that is cancelled or fails removes its file, which is `none` here; the calls of the store are
the ones in `Store.Writer`. -/

namespace SysAgent

def UNKNOWN_CHUNK_SIZE : Nat := 0x40000

/-- What `unknownSearchBegin` sets up for the worker, as it is in the header of the session. -/
structure BeginRequest where
  metadata : SearchStoreMetadata
  start_lt : metadata.start < metadata.finish
  alignment_valid : searchAlignmentIsValid metadata.alignment.toNat = true
  width_valid : metadata.width.toNat ∈ [1, 2, 4, 8]

namespace BeginRequest

def start (r : BeginRequest) : Nat := r.metadata.start.toNat
def finish (r : BeginRequest) : Nat := r.metadata.finish.toNat
def alignment (r : BeginRequest) : Nat := r.metadata.alignment.toNat
def width (r : BeginRequest) : Nat := r.metadata.width.toNat

theorem width_cases (r : BeginRequest) :
    r.width = 1 ∨ r.width = 2 ∨ r.width = 4 ∨ r.width = 8 := by
  simpa [width] using r.width_valid

/-- The alignments that are accepted. -/
theorem alignment_cases (r : BeginRequest) : ∃ k ≤ 8, r.alignment = 2 ^ k := by
  have hall : ∀ a ≤ 256, searchAlignmentIsValid a = true → ∃ k ≤ 8, a = 2 ^ k := by
    decide +kernel
  have hle : r.alignment ≤ 256 := by
    have hvalid := r.alignment_valid
    simp only [searchAlignmentIsValid, Bool.and_eq_true, decide_eq_true_eq] at hvalid
    exact hvalid.1.2
  exact hall _ hle r.alignment_valid

theorem alignment_pos (r : BeginRequest) : 0 < r.alignment := by
  obtain ⟨k, -, hk⟩ := r.alignment_cases
  rw [hk]
  exact Nat.two_pow_pos k

theorem start_lt_finish (r : BeginRequest) : r.start < r.finish :=
  UInt64.lt_iff_toNat_lt.1 r.start_lt

theorem finish_lt (r : BeginRequest) : r.finish < 2 ^ 64 :=
  r.metadata.finish.toNat_lt

/-- The bytes of a full chunk. -/
def maximumSpan (r : BeginRequest) : Nat :=
  let span := UNKNOWN_CHUNK_SIZE / r.width * r.alignment
  if span > UNKNOWN_CHUNK_SIZE then UNKNOWN_CHUNK_SIZE else span

theorem maximumSpan_bounds (r : BeginRequest) :
    0x8000 ≤ r.maximumSpan ∧ r.maximumSpan ≤ UNKNOWN_CHUNK_SIZE := by
  have hwidth : 0x8000 ≤ UNKNOWN_CHUNK_SIZE / r.width := by
    rcases r.width_cases with h | h | h | h <;> rw [h] <;> decide
  have hspan := Nat.le_trans hwidth (Nat.le_mul_of_pos_right _ r.alignment_pos)
  have hchunk : 0x8000 ≤ UNKNOWN_CHUNK_SIZE := by decide
  unfold maximumSpan
  dsimp only
  split_ifs <;> omega

end BeginRequest

/-- `alignUp`. -/
def alignUp (value alignment : Nat) : Nat :=
  let mask := alignment - 1
  if value > UINT64_MAX - mask then UINT64_MAX else (value + mask) &&& (UINT64_MAX ^^^ mask)

/-- The last slots of a chunk are dropped as long as they reach past the mapping. -/
def dropSlots (r : BeginRequest) (mappingEnd first : Nat) : Nat → Nat
  | 0 => 0
  | slots + 1 =>
    if u64 (first + slots * r.alignment + r.width) > mappingEnd then
      dropSlots r mappingEnd first slots
    else slots + 1

/-- The number of slots of the chunk of `amount` bytes at `cursor`. -/
def chunkSlots (r : BeginRequest) (mappingEnd cursor amount : Nat) : Nat :=
  let first := alignUp cursor r.alignment
  if first ≠ UINT64_MAX ∧ first < cursor + amount ∧ u64 (first + r.width) ≤ mappingEnd then
    dropSlots r mappingEnd first
      ((cursor + amount - first + r.alignment - 1) / r.alignment % 2 ^ 32)
  else 0

/-- The block of a chunk, from the scratch buffer `raw`; there is none without a slot. -/
def chunkBlock (r : BeginRequest) (raw : Nat → UInt8) (mappingEnd cursor amount : Nat) :
    Option (BlockCall r.metadata.width.toNat) :=
  let first := alignUp cursor r.alignment
  let slots := UInt32.ofNat (chunkSlots r mappingEnd cursor amount)
  if hslots : slots = 0 then none
  else
    some
      { base := UInt64.ofNat first
        slotCount := slots
        values := (List.range (slots.toNat * r.metadata.width.toNat)).map fun i =>
          raw (first + i / r.width * r.alignment - cursor + i % r.width)
        mask := none
        slots_pos := hslots
        values_len := by rw [List.length_map, List.length_range]
        mask_len := fun _ h => nomatch h }

/-- What the outside answers during a pass. -/
structure BeginAnswers where
  memory : Nat → UInt8
  buffersAllocated : Bool
  /-- The pause, if one was asked for, and the resume at the end. -/
  pauseSucceeds : Bool
  /-- `cancelled` before the mapping at a cursor is queried. -/
  cancelBeforeQuery : Nat → Bool
  /-- `cancelled` before the chunk at a cursor is read. -/
  cancelBeforeRead : Nat → Bool
  cancelAtEnd : Bool
  processIsCurrent : Nat → Bool
  queryMemory : Nat → Except UInt32 MemoryInfo
  readFails : Nat → Bool

section Pass

variable (answers : BeginAnswers) (r : BeginRequest)

/-- The inner loop: the blocks of a mapping from `cursor` on, and what is left in the scratch
    buffer. -/
def beginMapping (mappingEnd cursor : Nat) (raw : Nat → UInt8) :
    Option (List (BlockCall r.metadata.width.toNat) × (Nat → UInt8)) :=
  if cursor < mappingEnd then
    if answers.cancelBeforeRead cursor then none
    else
      let amount := min r.maximumSpan (mappingEnd - cursor)
      let readSize :=
        if amount + r.width - 1 ≤ mappingEnd - cursor then amount + r.width - 1 else amount
      if answers.readFails cursor then none
      else
        let raw := fun i => if i < readSize then answers.memory (cursor + i) else raw i
        (beginMapping mappingEnd (cursor + amount) raw).map fun (blocks, raw') =>
          ((chunkBlock r raw mappingEnd cursor amount).toList ++ blocks, raw')
  else some ([], raw)
termination_by mappingEnd - cursor
decreasing_by
  have hspan := r.maximumSpan_bounds.1
  omega

/-- The outer loop: the blocks of the mappings from `cursor` on. -/
def beginRange (cursor : Nat) (raw : Nat → UInt8) :
    Option (List (BlockCall r.metadata.width.toNat)) :=
  if cursor < r.finish then
    if answers.cancelBeforeQuery cursor || !answers.processIsCurrent cursor then none
    else
      match answers.queryMemory cursor with
      | .error _ => none
      | .ok info =>
        let plan := searchPlanMapping cursor r.finish info.addr info.size info.readable
        match _haction : plan.action with
        | .invalid => none
        | .skip => beginRange plan.finish raw
        | .read =>
          match beginMapping answers r plan.finish cursor raw with
          | none => none
          | some (blocks, raw) => (beginRange plan.finish raw).map (blocks ++ ·)
  else if answers.cancelAtEnd then none
  else some []
termination_by r.finish - cursor
decreasing_by
  all_goals
    have hplan := searchPlanMapping_progress (show plan.action ≠ .invalid by simp [_haction])
    omega

/-- `runBegin`: the blocks that it hands to the store, if the pass ends as done. `raw` is what the
    allocation of the scratch buffer holds. -/
def runBegin (raw : Nat → UInt8) : Option (List (BlockCall r.metadata.width.toNat)) :=
  if !answers.buffersAllocated || !answers.pauseSucceeds then none
  else beginRange answers r r.start raw

end Pass

end SysAgent
