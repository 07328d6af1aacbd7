import Mathlib
import SysAgent.Search.Refinement

set_option autoImplicit false

/-! # What a first pass stores (`unknown_search.c`)

`runBegin` reads a chunk and, if all of them are inside of the mapping, the `width - 1` bytes behind
it. If only some of them are, the last values of the chunk take the others from the scratch buffer.
The ends of the values are compared in 64 bits. `ChunkFits` is what a chunk needs for neither to
matter. -/

namespace SysAgent

open StoreResult

/-! ## The content of a session -/

/-- The candidates of the blocks, with their addresses and values. -/
def contentOf {width : Nat} (alignment : Nat) (calls : List (BlockCall width)) :
    List (Nat × List UInt8) :=
  calls.flatMap fun call => call.slots.map fun slot =>
    (call.base.toNat + slot * alignment, slotValue call.values width slot)

/-- The candidates of a block that was read. -/
def blockContent (metadata : SearchStoreMetadata) (block : DecodedBlock) :
    List (Nat × List UInt8) :=
  ((List.range block.header.slotCount.toNat).filter (bitIsSet block.mask)).map fun slot =>
    (block.header.base.toNat + slot * metadata.alignment.toNat,
      slotValue block.values metadata.width.toNat slot)

/-- The candidates of the next blocks; the buffers are those of the block before. -/
def readContent (metadata : SearchStoreMetadata) :
    Nat → SearchStoreReader → List UInt8 → List UInt8 → StoreResult (List (Nat × List UInt8))
  | 0, _, _, _ => ok []
  | left + 1, reader, values, mask => do
    let (block, next) ← searchStoreReaderNext true reader values mask
    let rest ← readContent metadata left next block.values block.mask
    ok (blockContent metadata block ++ rest)

/-- The blocks of the session, read in buffers that hold anything, contain these candidates. -/
def SessionContains (metadata : SearchStoreMetadata) (dir : Directory SessionFile)
    (content : List (Nat × List UInt8)) : Prop :=
  ∃ reader, searchStoreReaderOpen true dir .current = ok reader ∧
    reader.header.metadata = metadata ∧
    ∀ values mask, values.length = valuesBuffer → mask.length = maskBuffer →
      readContent metadata reader.header.blockCount.toNat reader values mask = ok content

section Session

variable {metadata : SearchStoreMetadata} {dir : Directory SessionFile}
  {kept : List (BlockCall metadata.width.toNat)}

theorem contentOf_append {width : Nat} (alignment : Nat) (calls more : List (BlockCall width)) :
    contentOf alignment (calls ++ more) = contentOf alignment calls ++ contentOf alignment more :=
  List.flatMap_append

theorem contentOf_keptCalls {width : Nat} (alignment : Nat) (calls : List (BlockCall width)) :
    contentOf alignment (keptCalls calls) = contentOf alignment calls := by
  induction calls with
  | nil => rfl
  | cons call calls ih =>
    rw [← List.singleton_append, contentOf_append, ← ih, ← contentOf_append]
    by_cases hslots : call.slots = []
    · have hskip : keptCalls ([call] ++ calls) = keptCalls calls :=
        List.filter_cons_of_neg (by simp [hslots])
      rw [hskip, contentOf_append]
      simp [contentOf, hslots]
    · have hkeep : keptCalls ([call] ++ calls) = [call] ++ keptCalls calls :=
        List.filter_cons_of_pos (by simp [hslots])
      rw [hkeep]

theorem readContent_stored (h : SessionHolds metadata dir kept)
    (before after : List (BlockCall metadata.width.toNat)) (hkept : kept = before ++ after)
    (position : Nat) {values mask : List UInt8} (hvalues : values.length = valuesBuffer)
    (hmask : mask.length = maskBuffer) :
    readContent metadata after.length
        (readerAt metadata (storedBlocks 0 kept) (storedBlocks 0 before) position) values mask =
      ok (contentOf metadata.alignment.toNat after) := by
  induction after generalizing before position values mask with
  | nil => rfl
  | cons call after ih =>
    have hmem : call ∈ kept := by
      rw [hkept]
      exact List.mem_append_right _ List.mem_cons_self
    have hfit := h.fitting call hmem
    have hslotsLe := hfit.slots_le h.storable.width_pos
    have hvaluesFit := hfit.values
    have hslots := h.storable.slots call hmem
    have hbuffers : valuesBuffer = UNKNOWN_CHUNK_SIZE + 8 ∧
        maskBuffer = UNKNOWN_CHUNK_SIZE / 8 + 8 := ⟨rfl, rfl⟩
    obtain ⟨values', mask', position', hnext, hread, hbits⟩ :=
      searchStoreReaderNext_image h.storable.width h.storable.width8 h.storable.length
        (storedBlocks_split hkept hslots) (h.storable.size call hmem) hslots position
        (show call.slotCount.toNat * metadata.width.toNat ≤ values.length by omega)
        (show (call.slotCount.toNat + 7) / 8 ≤ mask.length by omega)
    obtain ⟨hvalues', hmask'⟩ := length_of_next hnext
    have hrest := ih (before ++ [call]) (by rw [hkept, List.append_assoc]; rfl) position'
      (hvalues'.trans hvalues) (hmask'.trans hmask)
    rw [storedBlocks_snoc hslots] at hrest
    have hblock : blockContent metadata ⟨(call.stored (candidates before)).header, values', mask'⟩ =
        contentOf metadata.alignment.toNat [call] := by
      have hfilter : (List.range call.slotCount.toNat).filter (bitIsSet mask') = call.slots := by
        rw [← call.decodedSlots_eq hfit.clean.noWrap mask]
        exact List.filter_congr fun slot _ => by rw [bitIsSet_eq, hbits]
      rw [blockContent, call.stored_header]
      simp only [hfilter]
      rw [contentOf, List.flatMap_singleton]
      exact List.map_congr_left fun slot hslot => by rw [hread slot hslot]
    rw [List.length_cons, readContent, hnext, ok_bind]
    simp only
    rw [hrest, ok_bind, hblock, ← contentOf_append]
    rfl

theorem SessionHolds.contains (h : SessionHolds metadata dir kept) :
    SessionContains metadata dir (contentOf metadata.alignment.toNat kept) := by
  refine ⟨_, h.opens, rfl, fun values mask hvalues hmask => ?_⟩
  rw [h.blockCount]
  exact readContent_stored h [] kept rfl _ hvalues hmask

end Session

/-! ## What it is to be -/

section Expected

variable (r : BeginRequest)

/-- The readable segments of the range from `cursor` on, as `searchPlanMapping` clips them; `none`
    where the walk does not get to the end. -/
def readSegments (queryMemory : Nat → Except UInt32 MemoryInfo) (cursor : Nat) :
    Option (List (Nat × Nat)) :=
  if cursor < r.finish then
    match queryMemory cursor with
    | .error _ => none
    | .ok info =>
      let plan := searchPlanMapping cursor r.finish info.addr info.size info.readable
      match _haction : plan.action with
      | .invalid => none
      | .skip => readSegments queryMemory plan.finish
      | .read => (readSegments queryMemory plan.finish).map ((cursor, plan.finish) :: ·)
  else some []
termination_by r.finish - cursor
decreasing_by
  all_goals
    have hplan := searchPlanMapping_progress (show plan.action ≠ .invalid by simp [_haction])
    omega

/-- An aligned value inside of a segment that ends at `finish`. -/
def IsValue (finish a : Nat) : Prop := a % r.alignment = 0 ∧ a + r.width ≤ finish

instance (finish a : Nat) : Decidable (IsValue r finish a) :=
  inferInstanceAs (Decidable (_ ∧ _))

def segmentAddresses (segment : Nat × Nat) : List Nat :=
  (List.range' segment.1 (segment.2 - segment.1)).filter fun a => decide (IsValue r segment.2 a)

def valueAt (memory : Nat → UInt8) (width a : Nat) : List UInt8 :=
  (List.range width).map fun j => memory (a + j)

/-- Every value of the segments, in ascending order of the addresses. -/
def snapshot (memory : Nat → UInt8) (segments : List (Nat × Nat)) : List (Nat × List UInt8) :=
  segments.flatMap fun segment => (segmentAddresses r segment).map fun a =>
    (a, valueAt memory r.width a)

end Expected

/-! ## The chunks -/

section Chunks

variable (r : BeginRequest)

def chunkAmount (mappingEnd cursor : Nat) : Nat := min r.maximumSpan (mappingEnd - cursor)

def readSize (mappingEnd cursor : Nat) : Nat :=
  if chunkAmount r mappingEnd cursor + r.width - 1 ≤ mappingEnd - cursor then
    chunkAmount r mappingEnd cursor + r.width - 1
  else chunkAmount r mappingEnd cursor

/-- Where the chunks of a mapping start. -/
def chunkStarts (mappingEnd cursor : Nat) : List Nat :=
  if cursor < mappingEnd then
    cursor :: chunkStarts mappingEnd (cursor + chunkAmount r mappingEnd cursor)
  else []
termination_by mappingEnd - cursor
decreasing_by
  have hspan := r.maximumSpan_bounds.1
  unfold chunkAmount
  omega

/-- The chunks of a segment, with its end. -/
def chunksOf (segment : Nat × Nat) : List (Nat × Nat) :=
  (chunkStarts r segment.2 segment.1).map fun cursor => (segment.2, cursor)

/-- The end of no value of the chunk wraps around, unless its first one does not fit either. -/
def NoWrap (mappingEnd cursor : Nat) : Prop :=
  ∀ a, cursor ≤ a → a < cursor + chunkAmount r mappingEnd cursor → a % r.alignment = 0 →
    2 ^ 64 ≤ a + r.width → mappingEnd < alignUp cursor r.alignment + r.width ∧
      alignUp cursor r.alignment + r.width < 2 ^ 64

/-- A value that reaches past its chunk is read whole. -/
structure ChunkFits (mappingEnd cursor : Nat) : Prop where
  noWrap : NoWrap r mappingEnd cursor
  whole : ∀ a, cursor ≤ a → a < cursor + chunkAmount r mappingEnd cursor →
    IsValue r mappingEnd a → cursor + chunkAmount r mappingEnd cursor < a + r.width →
      cursor + (chunkAmount r mappingEnd cursor + r.width - 1) ≤ mappingEnd

def chunkAddresses (mappingEnd cursor : Nat) : List Nat :=
  (List.range' cursor (chunkAmount r mappingEnd cursor)).filter fun a =>
    decide (IsValue r mappingEnd a)

variable {r} {mappingEnd cursor : Nat}

theorem chunkAmount_bounds (hlt : cursor < mappingEnd) :
    0 < chunkAmount r mappingEnd cursor ∧
      cursor + chunkAmount r mappingEnd cursor ≤ mappingEnd ∧
        chunkAmount r mappingEnd cursor ≤ UNKNOWN_CHUNK_SIZE := by
  obtain ⟨hspan, hmax⟩ := r.maximumSpan_bounds
  unfold chunkAmount
  omega

theorem lt_of_mem_chunkStarts {start : Nat} (h : start ∈ chunkStarts r mappingEnd cursor) :
    start < mappingEnd := by
  induction hn : mappingEnd - cursor using Nat.strong_induction_on generalizing cursor with
  | _ n ih =>
    rw [chunkStarts] at h
    split_ifs at h with hlt
    · have hamount := (chunkAmount_bounds (r := r) hlt).1
      rcases List.mem_cons.1 h with rfl | hrest
      · exact hlt
      · exact ih _ (by omega) hrest rfl
    · cases h

/-- The values of a segment are those of its chunks. -/
theorem segmentAddresses_eq (mappingEnd cursor : Nat) :
    segmentAddresses r (cursor, mappingEnd) =
      (chunkStarts r mappingEnd cursor).flatMap (chunkAddresses r mappingEnd) := by
  induction hn : mappingEnd - cursor using Nat.strong_induction_on generalizing cursor with
  | _ n ih =>
    rw [chunkStarts]
    by_cases hlt : cursor < mappingEnd
    · obtain ⟨hamount, hend, -⟩ := chunkAmount_bounds (r := r) hlt
      have hlength : mappingEnd - cursor = chunkAmount r mappingEnd cursor +
          (mappingEnd - (cursor + chunkAmount r mappingEnd cursor)) := by omega
      rw [if_pos hlt, List.flatMap_cons, ← ih _ (by omega) _ rfl]
      unfold segmentAddresses chunkAddresses
      dsimp only
      rw [hlength, ← List.range'_append_1, List.filter_append]
    · have hnone : mappingEnd - cursor = 0 := by omega
      rw [if_neg hlt]
      unfold segmentAddresses
      dsimp only
      rw [hnone]
      rfl

end Chunks

/-! ## The slots of a chunk -/

section Slots

variable {r : BeginRequest} {mappingEnd cursor : Nat}

theorem BeginRequest.alignment_le (r : BeginRequest) : r.alignment ≤ 256 := by
  have hvalid := r.alignment_valid
  simp only [searchAlignmentIsValid, Bool.and_eq_true, decide_eq_true_eq] at hvalid
  exact hvalid.1.2

/-- The multiples of the alignment end with the address space. -/
theorem lt_two_pow_of_aligned {a : Nat} (ha : a % r.alignment = 0) (hlt : a < 2 ^ 64) :
    a + r.alignment ≤ 2 ^ 64 := by
  obtain ⟨k, hk, hpower⟩ := r.alignment_cases
  obtain ⟨m, rfl⟩ := Nat.dvd_of_mod_eq_zero ha
  have hdvd : r.alignment ∣ 2 ^ 64 := by
    rw [hpower]
    exact pow_dvd_pow 2 (by omega)
  obtain ⟨n, hn⟩ := hdvd
  rw [hn] at hlt ⊢
  have hmn : m + 1 ≤ n := Nat.lt_of_mul_lt_mul_left hlt
  calc r.alignment * m + r.alignment = r.alignment * (m + 1) := by ring
    _ ≤ r.alignment * n := Nat.mul_le_mul_left _ hmn

/-- The first multiple of the alignment from `cursor` on. -/
theorem alignUp_least (hcursor : cursor < UINT64_MAX) :
    (alignUp cursor r.alignment = UINT64_MAX →
      ∀ a, cursor ≤ a → a < 2 ^ 64 → a % r.alignment ≠ 0) ∧
    (alignUp cursor r.alignment ≠ UINT64_MAX →
      cursor ≤ alignUp cursor r.alignment ∧ alignUp cursor r.alignment % r.alignment = 0 ∧
        ∀ a, cursor ≤ a → a % r.alignment = 0 → alignUp cursor r.alignment ≤ a) := by
  have hpos := r.alignment_pos
  have hmax : UINT64_MAX = 2 ^ 64 - 1 := rfl
  constructor
  · intro htop a hle hlt ha
    have hend := lt_two_pow_of_aligned ha hlt
    unfold alignUp at htop
    dsimp only at htop
    by_cases hlarge : cursor > UINT64_MAX - (r.alignment - 1)
    · omega
    · rw [if_neg hlarge] at htop
      have hmask := Nat.and_le_left (n := cursor + (r.alignment - 1))
        (m := UINT64_MAX ^^^ (r.alignment - 1))
      rw [htop] at hmask
      -- the sum is the last number of all, and it is a multiple
      obtain ⟨k, -, hpower⟩ := r.alignment_cases
      have hsum : cursor + (r.alignment - 1) < 2 ^ 64 := by omega
      rw [hpower] at htop hsum
      rw [and_not_mask hsum] at htop
      cases k with
      | zero =>
        rw [pow_zero] at hpower
        omega
      | succ k =>
        rw [pow_succ] at htop
        have heven : 2 ∣ UINT64_MAX := by
          rw [← htop]
          exact ⟨2 ^ k * ((cursor + (2 ^ k * 2 - 1)) / (2 ^ k * 2)), by ring⟩
        exact absurd heven (by decide)
  · intro hne
    rw [alignUp_eq hne]
    have hlower : cursor ≤ r.alignment * slotsBelow r cursor := by
      have hdiv := Nat.lt_mul_div_succ (cursor + r.alignment - 1) hpos
      unfold slotsBelow
      rw [Nat.mul_add] at hdiv
      omega
    refine ⟨hlower, Nat.mul_mod_right _ _, fun a hle ha => ?_⟩
    obtain ⟨m, rfl⟩ := Nat.dvd_of_mod_eq_zero ha
    refine Nat.mul_le_mul_left _ ?_
    unfold slotsBelow
    rw [Nat.div_le_iff_le_mul_add_pred hpos]
    omega

/-- The slots that are left when no end wraps around. -/
theorem lt_dropSlots_iff {first slots : Nat}
    (hnoWrap : ∀ k < slots, first + k * r.alignment + r.width < 2 ^ 64) (k : Nat) :
    k < dropSlots r mappingEnd first slots ↔
      k < slots ∧ first + k * r.alignment + r.width ≤ mappingEnd := by
  induction slots with
  | zero => exact ⟨fun h => absurd h (Nat.not_lt_zero k), fun h => h.1⟩
  | succ slots ih =>
    have hlast := hnoWrap slots (Nat.lt_succ_self slots)
    rw [dropSlots, u64_of_lt hlast]
    split_ifs with hdrop
    · rw [ih fun k hk => hnoWrap k (Nat.lt_succ_of_lt hk)]
      constructor
      · intro h
        exact ⟨Nat.lt_succ_of_lt h.1, h.2⟩
      · intro h
        refine ⟨lt_of_le_of_ne (Nat.lt_succ_iff.1 h.1) ?_, h.2⟩
        rintro rfl
        omega
    · constructor
      · intro h
        have hle := Nat.mul_le_mul_right r.alignment (Nat.lt_succ_iff.1 h)
        exact ⟨h, by omega⟩
      · exact And.left

/-- The number of multiples of the alignment in `length` bytes that start with one. -/
theorem lt_steps_iff {length : Nat} (hlength : 0 < length) (k : Nat) :
    k < (length + r.alignment - 1) / r.alignment ↔ k * r.alignment < length := by
  have hpos := r.alignment_pos
  rw [Nat.lt_iff_add_one_le, Nat.le_div_iff_mul_le hpos, Nat.add_mul]
  omega

/-- The slots before the last ones are dropped. -/
theorem steps_lt {first amount : Nat} (hcursor : cursor ≤ first)
    (hamount : amount ≤ UNKNOWN_CHUNK_SIZE) :
    (cursor + amount - first + r.alignment - 1) / r.alignment < 2 ^ 32 := by
  have hle := Nat.div_le_self (cursor + amount - first + r.alignment - 1) r.alignment
  have hsmall := r.alignment_le
  have hchunk : UNKNOWN_CHUNK_SIZE = 0x40000 := rfl
  omega

/-- The slots of a chunk are its values. -/
theorem exists_slot_iff (hlt : cursor < mappingEnd) (hend : mappingEnd < 2 ^ 64)
    (hnoWrap : NoWrap r mappingEnd cursor) (a : Nat) :
    (∃ k < chunkSlots r mappingEnd cursor (chunkAmount r mappingEnd cursor),
        a = alignUp cursor r.alignment + k * r.alignment) ↔
      cursor ≤ a ∧ a < cursor + chunkAmount r mappingEnd cursor ∧ IsValue r mappingEnd a := by
  obtain ⟨hamount, hinside, hchunk⟩ := chunkAmount_bounds (r := r) hlt
  have hmax : UINT64_MAX = 2 ^ 64 - 1 := rfl
  have hpos := r.alignment_pos
  have hwidth : r.width ≤ 8 := by
    rcases r.width_cases with hw | hw | hw | hw <;> omega
  obtain ⟨htop, hleast⟩ := alignUp_least (r := r) (show cursor < UINT64_MAX by omega)
  unfold chunkSlots
  dsimp only
  by_cases hnone : alignUp cursor r.alignment = UINT64_MAX
  · -- `alignUp` has given up: no multiple is left below 2^64
    rw [if_neg fun h => h.1 hnone]
    constructor
    · rintro ⟨k, hk, -⟩
      exact absurd hk (Nat.not_lt_zero k)
    · rintro ⟨hle, hlast, haligned, -⟩
      exact absurd haligned (htop hnone a hle (by omega))
  · obtain ⟨hcursor, hmultiple, hfirst⟩ := hleast hnone
    by_cases hinChunk : alignUp cursor r.alignment < cursor + chunkAmount r mappingEnd cursor ∧
        u64 (alignUp cursor r.alignment + r.width) ≤ mappingEnd
    · obtain ⟨hstarts, hfits⟩ := hinChunk
      have hends : ∀ k, alignUp cursor r.alignment + k * r.alignment <
          cursor + chunkAmount r mappingEnd cursor →
            alignUp cursor r.alignment + k * r.alignment + r.width < 2 ^ 64 := by
        intro k hk
        by_contra hwrap
        have haligned : (alignUp cursor r.alignment + k * r.alignment) % r.alignment = 0 := by
          rw [Nat.add_mul_mod_self_right]
          exact hmultiple
        obtain ⟨hbeyond, hsmall⟩ := hnoWrap _ (by omega) hk haligned (by omega)
        rw [u64_of_lt hsmall] at hfits
        omega
      have hsteps := steps_lt (r := r) hcursor hchunk
      have hcount : ∀ k, k < (cursor + chunkAmount r mappingEnd cursor -
          alignUp cursor r.alignment + r.alignment - 1) / r.alignment ↔
            alignUp cursor r.alignment + k * r.alignment <
              cursor + chunkAmount r mappingEnd cursor := by
        intro k
        rw [lt_steps_iff (by omega)]
        omega
      rw [if_pos ⟨hnone, hstarts, hfits⟩, Nat.mod_eq_of_lt hsteps]
      constructor
      · rintro ⟨k, hk, rfl⟩
        obtain ⟨hk, hvalue⟩ := (lt_dropSlots_iff (fun k hk => hends k ((hcount k).1 hk)) k).1 hk
        refine ⟨by omega, (hcount k).1 hk, ?_, hvalue⟩
        rw [Nat.add_mul_mod_self_right]
        exact hmultiple
      · rintro ⟨hle, hlast, haligned, hvalue⟩
        have hbelow := hfirst a hle haligned
        obtain ⟨k, hk⟩ : r.alignment ∣ a - alignUp cursor r.alignment :=
          Nat.dvd_sub (Nat.dvd_of_mod_eq_zero haligned) (Nat.dvd_of_mod_eq_zero hmultiple)
        have ha : a = alignUp cursor r.alignment + k * r.alignment := by
          rw [Nat.mul_comm k]
          omega
        refine ⟨k, ?_, ha⟩
        rw [lt_dropSlots_iff fun k hk => hends k ((hcount k).1 hk), hcount, ← ha]
        exact ⟨hlast, hvalue⟩
    · rw [if_neg fun h => hinChunk h.2]
      constructor
      · rintro ⟨k, hk, -⟩
        exact absurd hk (Nat.not_lt_zero k)
      · rintro ⟨hle, hlast, haligned, hvalue⟩
        have hbelow := hfirst a hle haligned
        refine absurd ⟨by omega, ?_⟩ hinChunk
        rw [u64_of_lt (by omega)]
        omega

theorem chunkAddresses_eq (hlt : cursor < mappingEnd) (hend : mappingEnd < 2 ^ 64)
    (hnoWrap : NoWrap r mappingEnd cursor) :
    chunkAddresses r mappingEnd cursor =
      (List.range (chunkSlots r mappingEnd cursor (chunkAmount r mappingEnd cursor))).map fun k =>
        alignUp cursor r.alignment + k * r.alignment := by
  have hpos := r.alignment_pos
  have hleft : (chunkAddresses r mappingEnd cursor).Pairwise (· < ·) :=
    List.Pairwise.filter _ List.pairwise_lt_range'
  refine hleft.eq_of_mem_iff ?_ fun a => ?_
  · rw [List.pairwise_map]
    refine List.pairwise_lt_range.imp fun {i j} hij => ?_
    have hmul := Nat.mul_lt_mul_of_pos_right hij hpos
    omega
  · have hslot := exists_slot_iff hlt hend hnoWrap a
    unfold chunkAddresses
    simp only [List.mem_filter, List.mem_range'_1, decide_eq_true_eq, List.mem_map, List.mem_range]
    rw [and_assoc, ← hslot]
    constructor
    · rintro ⟨k, hk, ha⟩
      exact ⟨k, hk, ha.symm⟩
    · rintro ⟨k, hk, ha⟩
      exact ⟨k, hk, ha.symm⟩

/-- Where an end wraps around, there is a slot that ends behind the address space. -/
theorem exists_wrapped_slot (hlt : cursor < mappingEnd) (hend : mappingEnd < 2 ^ 64)
    (hwraps : ¬ NoWrap r mappingEnd cursor) :
    ∃ k < chunkSlots r mappingEnd cursor (chunkAmount r mappingEnd cursor),
      2 ^ 64 ≤ alignUp cursor r.alignment + k * r.alignment + r.width := by
  obtain ⟨hamount, hinside, hchunk⟩ := chunkAmount_bounds (r := r) hlt
  have hmax : UINT64_MAX = 2 ^ 64 - 1 := rfl
  have hpos := r.alignment_pos
  have hwidth : r.width ≤ 8 := by
    rcases r.width_cases with hw | hw | hw | hw <;> omega
  obtain ⟨htop, hleast⟩ := alignUp_least (r := r) (show cursor < UINT64_MAX by omega)
  unfold NoWrap at hwraps
  push Not at hwraps
  obtain ⟨a, hle, hlast, haligned, hwrap, hunless⟩ := hwraps
  have hne : alignUp cursor r.alignment ≠ UINT64_MAX :=
    fun h => htop h a hle (by omega) haligned
  obtain ⟨hcursor, hmultiple, hfirst⟩ := hleast hne
  have hbelow := hfirst a hle haligned
  have hwrapped : ∀ x, x < 2 ^ 64 → 2 ^ 64 ≤ x + r.width → x ≤ mappingEnd →
      u64 (x + r.width) ≤ mappingEnd := by
    intro x hx hover hxEnd
    have hmod : u64 (x + r.width) = x + r.width - 2 ^ 64 := by
      unfold u64
      omega
    omega
  have hfits : u64 (alignUp cursor r.alignment + r.width) ≤ mappingEnd := by
    -- where the sum wraps around, the source takes the value to end early
    by_cases hover : 2 ^ 64 ≤ alignUp cursor r.alignment + r.width
    · exact hwrapped _ (by omega) hover (by omega)
    · rw [u64_of_lt (by omega)]
      by_contra hbeyond
      exact hover (hunless (by omega))
  have hsteps := steps_lt (r := r) hcursor hchunk
  obtain ⟨k, hk⟩ : r.alignment ∣ a - alignUp cursor r.alignment :=
    Nat.dvd_sub (Nat.dvd_of_mod_eq_zero haligned) (Nat.dvd_of_mod_eq_zero hmultiple)
  have ha : a = alignUp cursor r.alignment + k * r.alignment := by
    rw [Nat.mul_comm k]
    omega
  unfold chunkSlots
  dsimp only
  rw [if_pos ⟨hne, by omega, hfits⟩, Nat.mod_eq_of_lt hsteps]
  have hcount := fun k => lt_steps_iff (r := r)
    (show 0 < cursor + chunkAmount r mappingEnd cursor - alignUp cursor r.alignment by omega) k
  have hkLast := (hcount k).2 (by omega)
  cases hslots : (cursor + chunkAmount r mappingEnd cursor - alignUp cursor r.alignment +
      r.alignment - 1) / r.alignment with
  | zero => omega
  | succ slots =>
    have hstep := (hcount slots).1 (by omega)
    have hmore := Nat.mul_le_mul_right r.alignment (show k ≤ slots by omega)
    have hkept : dropSlots r mappingEnd (alignUp cursor r.alignment) (slots + 1) = slots + 1 := by
      rw [dropSlots, if_neg]
      have hsmall := hwrapped (alignUp cursor r.alignment + slots * r.alignment) (by omega)
        (by omega) (by omega)
      omega
    rw [hkept]
    exact ⟨slots, Nat.lt_succ_self slots, by omega⟩

end Slots

/-! ## The pass -/

section Pass

variable {r : BeginRequest} {memory raw scratch : Nat → UInt8} {cursor : Nat}

/-- The scratch buffer after `size` bytes were read. -/
def filled (memory : Nat → UInt8) (cursor size : Nat) (scratch : Nat → UInt8) : Nat → UInt8 :=
  fun i => if i < size then memory (cursor + i) else scratch i

/-- The scratch buffer holds what it held at first, or bytes of the chunks before. -/
def LeftOver (memory raw : Nat → UInt8) (cursor : Nat) (scratch : Nat → UInt8) : Prop :=
  ∀ i, scratch i = raw i ∨ ∃ before < cursor, scratch i = memory (before + i)

theorem leftOver_start (memory raw : Nat → UInt8) (cursor : Nat) :
    LeftOver memory raw cursor raw := fun _ => .inl rfl

theorem LeftOver.filled (h : LeftOver memory raw cursor scratch) (size : Nat) {next : Nat}
    (hlt : cursor < next) : LeftOver memory raw next (filled memory cursor size scratch) := by
  intro i
  unfold SysAgent.filled
  -- a byte of this chunk, or one that an earlier chunk has left behind
  split_ifs
  · exact .inr ⟨cursor, hlt, rfl⟩
  · rcases h i with hraw | ⟨before, hbefore, hread⟩
    · exact .inl hraw
    · exact .inr ⟨before, by omega, hread⟩

/-- The block that a pass stores for a chunk, with the scratch buffer before it. -/
def storedChunk (r : BeginRequest) (memory : Nat → UInt8) (chunk : Nat × Nat)
    (scratch : Nat → UInt8) : List (BlockCall r.metadata.width.toNat) :=
  (chunkBlock r (filled memory chunk.2 (readSize r chunk.1 chunk.2) scratch) chunk.1 chunk.2
    (chunkAmount r chunk.1 chunk.2)).toList

/-- The blocks are those of the chunks, each from a scratch buffer with left-over bytes. -/
def StoresChunks (r : BeginRequest) (memory raw : Nat → UInt8) (chunks : List (Nat × Nat))
    (blocks : List (BlockCall r.metadata.width.toNat)) : Prop :=
  ∃ parts : List ((Nat × Nat) × (Nat → UInt8)), parts.map Prod.fst = chunks ∧
    (∀ part ∈ parts, LeftOver memory raw part.1.2 part.2) ∧
      blocks = parts.flatMap fun part => storedChunk r memory part.1 part.2

theorem StoresChunks.append {chunks more : List (Nat × Nat)}
    {blocks behind : List (BlockCall r.metadata.width.toNat)}
    (h : StoresChunks r memory raw chunks blocks) (h' : StoresChunks r memory raw more behind) :
    StoresChunks r memory raw (chunks ++ more) (blocks ++ behind) := by
  obtain ⟨parts, rfl, hleft, rfl⟩ := h
  obtain ⟨parts', rfl, hleft', rfl⟩ := h'
  refine ⟨parts ++ parts', List.map_append, fun part hpart => ?_, List.flatMap_append.symm⟩
  rcases List.mem_append.1 hpart with hpart | hpart
  · exact hleft part hpart
  · exact hleft' part hpart

theorem beginMapping_chunks {answers : BeginAnswers} {mappingEnd : Nat} {scratch' : Nat → UInt8}
    {blocks : List (BlockCall r.metadata.width.toNat)}
    (h : beginMapping answers r mappingEnd cursor scratch = some (blocks, scratch'))
    (hle : cursor ≤ mappingEnd) (hleft : LeftOver answers.memory raw cursor scratch) :
    LeftOver answers.memory raw mappingEnd scratch' ∧
      StoresChunks r answers.memory raw (chunksOf r (cursor, mappingEnd)) blocks := by
  -- on what is left of the mapping, where the buffer holds bytes of the chunks before
  induction hn : mappingEnd - cursor using Nat.strong_induction_on
    generalizing cursor scratch blocks with
  | _ n ih =>
    rw [beginMapping] at h
    unfold chunksOf
    dsimp only
    rw [chunkStarts]
    by_cases hlt : cursor < mappingEnd
    · rw [if_pos hlt] at h ⊢
      split_ifs at h with hcancel hfails
      obtain ⟨⟨rest, last⟩, hrest, hjoined⟩ := Option.map_eq_some_iff.1 h
      obtain ⟨rfl, rfl⟩ := Prod.mk.inj hjoined
      obtain ⟨hamount, hinside, -⟩ := chunkAmount_bounds (r := r) hlt
      have hbehind : LeftOver answers.memory raw (cursor + chunkAmount r mappingEnd cursor)
          (filled answers.memory cursor (readSize r mappingEnd cursor) scratch) :=
        hleft.filled _ (by omega)
      have hless : mappingEnd - (cursor + chunkAmount r mappingEnd cursor) < n := by omega
      obtain ⟨hlast, hchunks⟩ := ih _ hless hrest hinside hbehind rfl
      refine ⟨hlast, ?_⟩
      have hfirst : StoresChunks r answers.memory raw [(mappingEnd, cursor)]
          (storedChunk r answers.memory (mappingEnd, cursor) scratch) := by
        refine ⟨[((mappingEnd, cursor), scratch)], rfl, fun part hpart => ?_, ?_⟩
        · rw [List.mem_singleton.1 hpart]
          exact hleft
        · rw [List.flatMap_singleton]
      exact hfirst.append hchunks
    · rw [if_neg hlt] at h ⊢
      obtain ⟨rfl, rfl⟩ := Prod.mk.inj (Option.some.inj h)
      refine ⟨?_, [], rfl, fun _ hpart => absurd hpart List.not_mem_nil, rfl⟩
      rwa [show mappingEnd = cursor by omega]

section Steps

variable {queryMemory : Nat → Except UInt32 MemoryInfo} {info : MemoryInfo}

theorem readSegments_skip (hlt : cursor < r.finish) (hquery : queryMemory cursor = .ok info)
    (haction : (searchPlanMapping cursor r.finish info.addr info.size info.readable).action =
      .skip) :
    readSegments r queryMemory cursor = readSegments r queryMemory
      (searchPlanMapping cursor r.finish info.addr info.size info.readable).finish := by
  rw [readSegments, if_pos hlt, hquery]
  dsimp only
  split
  · rename_i hinvalid
    cases haction.symm.trans hinvalid
  · rfl
  · rename_i hread
    cases haction.symm.trans hread

theorem readSegments_read (hlt : cursor < r.finish) (hquery : queryMemory cursor = .ok info)
    (haction : (searchPlanMapping cursor r.finish info.addr info.size info.readable).action =
      .read) :
    readSegments r queryMemory cursor = (readSegments r queryMemory
      (searchPlanMapping cursor r.finish info.addr info.size info.readable).finish).map
        ((cursor,
          (searchPlanMapping cursor r.finish info.addr info.size info.readable).finish) :: ·) := by
  rw [readSegments, if_pos hlt, hquery]
  dsimp only
  split
  · rename_i hinvalid
    cases haction.symm.trans hinvalid
  · rename_i hskip
    cases haction.symm.trans hskip
  · rfl

/-- The segments are inside of the range, and the layout is that of their chunks. -/
theorem readSegments_spec {segments : List (Nat × Nat)} (hle : cursor ≤ r.finish)
    (h : readSegments r queryMemory cursor = some segments) :
    (∀ segment ∈ segments, segment.2 ≤ r.finish) ∧
      ∃ counts, layoutSlots r queryMemory cursor = some counts := by
  induction hn : r.finish - cursor using Nat.strong_induction_on generalizing cursor segments with
  | _ n ih =>
    rw [readSegments] at h
    by_cases hlt : cursor < r.finish
    · rw [if_pos hlt] at h
      cases hquery : queryMemory cursor with
      | error result =>
        rw [hquery] at h
        cases h
      | ok info =>
        rw [hquery] at h
        dsimp only at h
        split at h
        · cases h
        · rename_i haction
          have hplan := searchPlanMapping_progress (show (searchPlanMapping cursor r.finish
            info.addr info.size info.readable).action ≠ .invalid by rw [haction]; decide)
          rw [layoutSlots_skip hlt hquery haction]
          exact ih _ (by omega) hplan.2 h rfl
        · rename_i haction
          have hplan := searchPlanMapping_progress (show (searchPlanMapping cursor r.finish
            info.addr info.size info.readable).action ≠ .invalid by rw [haction]; decide)
          obtain ⟨rest, hrest, rfl⟩ := Option.map_eq_some_iff.1 h
          obtain ⟨hends, counts, hcounts⟩ := ih _ (by omega) hplan.2 hrest rfl
          rw [layoutSlots_read hlt hquery haction, hcounts]
          refine ⟨fun segment hsegment => ?_, _, rfl⟩
          rcases List.mem_cons.1 hsegment with rfl | hbehind
          · exact hplan.2
          · exact hends segment hbehind
    · rw [if_neg hlt] at h
      obtain rfl := Option.some.inj h
      rw [layoutSlots, if_neg hlt]
      exact ⟨fun _ hsegment => absurd hsegment List.not_mem_nil, _, rfl⟩

end Steps

/-- A pass that ends as done stores the chunks of the readable segments. -/
theorem beginRange_chunks {answers : BeginAnswers}
    {blocks : List (BlockCall r.metadata.width.toNat)}
    (h : beginRange answers r cursor scratch = some blocks)
    (hleft : LeftOver answers.memory raw cursor scratch) :
    ∃ segments, readSegments r answers.queryMemory cursor = some segments ∧
      StoresChunks r answers.memory raw (segments.flatMap (chunksOf r)) blocks := by
  -- on what is left of the range: no mapping leaves the cursor where it is
  induction hn : r.finish - cursor using Nat.strong_induction_on
    generalizing cursor scratch blocks with
  | _ n ih =>
    rw [beginRange] at h
    by_cases hlt : cursor < r.finish
    · rw [if_pos hlt] at h
      split_ifs at h with hstopped
      cases hquery : answers.queryMemory cursor with
      | error result =>
        rw [hquery] at h
        cases h
      | ok info =>
        rw [hquery] at h
        dsimp only at h
        split at h
        · cases h
        · rename_i haction
          have hplan := searchPlanMapping_progress (show (searchPlanMapping cursor r.finish
            info.addr info.size info.readable).action ≠ .invalid by rw [haction]; decide)
          rw [readSegments_skip hlt hquery haction]
          refine ih _ (by omega) h (fun i => ?_) rfl
          rcases hleft i with hraw | ⟨before, hbefore, hread⟩
          · exact .inl hraw
          · exact .inr ⟨before, by omega, hread⟩
        · rename_i haction
          have hplan := searchPlanMapping_progress (show (searchPlanMapping cursor r.finish
            info.addr info.size info.readable).action ≠ .invalid by rw [haction]; decide)
          split at h
          · cases h
          · rename_i mapped scratch' hmapped
            obtain ⟨rest, hrest, rfl⟩ := Option.map_eq_some_iff.1 h
            obtain ⟨hbehind, hchunks⟩ := beginMapping_chunks hmapped hplan.1.le hleft
            obtain ⟨segments, hsegments, hmore⟩ := ih _ (by omega) hrest hbehind rfl
            rw [readSegments_read hlt hquery haction, hsegments]
            exact ⟨_, rfl, hchunks.append hmore⟩
    · rw [if_neg hlt] at h
      split_ifs at h with hcancel
      obtain rfl := Option.some.inj h
      rw [readSegments, if_neg hlt]
      exact ⟨[], rfl, [], rfl, fun _ hpart => absurd hpart List.not_mem_nil, rfl⟩

end Pass

/-! ## The values of a chunk -/

section Values

variable {r : BeginRequest} {memory : Nat → UInt8} {mappingEnd cursor : Nat}

theorem alignUp_lt (r : BeginRequest) (value : Nat) : alignUp value r.alignment < 2 ^ 64 := by
  have hmax : UINT64_MAX = 2 ^ 64 - 1 := rfl
  have hsmall := r.alignment_le
  unfold alignUp
  dsimp only
  split_ifs with hlarge
  · omega
  · have hle := Nat.and_le_left (n := value + (r.alignment - 1))
      (m := UINT64_MAX ^^^ (r.alignment - 1))
    omega

theorem slotValue_range (f : Nat → UInt8) {slots width slot : Nat} (hslot : slot < slots) :
    slotValue ((List.range (slots * width)).map f) width slot =
      (List.range width).map fun j => f (slot * width + j) := by
  have hroom := Nat.mul_le_mul_right width (Nat.succ_le_of_lt hslot)
  rw [Nat.succ_mul] at hroom
  refine List.ext_getElem? fun j => ?_
  rw [getElem?_slotValue]
  by_cases hj : j < width
  · rw [if_pos hj]
    simp only [List.getElem?_map]
    rw [List.getElem?_range (by omega), List.getElem?_range hj]
    rfl
  · rw [if_neg hj, List.getElem?_eq_none]
    rw [List.length_map, List.length_range]
    omega

/-- The content of a block is what was in the scratch buffer. -/
theorem contentOf_chunkBlock (buffer : Nat → UInt8) (amount : Nat) :
    contentOf r.alignment (chunkBlock r buffer mappingEnd cursor amount).toList =
      (List.range (chunkSlots r mappingEnd cursor amount)).map fun k =>
        (alignUp cursor r.alignment + k * r.alignment, (List.range r.width).map fun j =>
          buffer (alignUp cursor r.alignment + k * r.alignment - cursor + j)) := by
  have hnat : (UInt32.ofNat (chunkSlots r mappingEnd cursor amount)).toNat =
      chunkSlots r mappingEnd cursor amount := by
    rw [UInt32.toNat_ofNat', Nat.mod_eq_of_lt (chunkSlots_lt r mappingEnd cursor amount)]
  unfold chunkBlock
  dsimp only
  by_cases hzero : UInt32.ofNat (chunkSlots r mappingEnd cursor amount) = 0
  · rw [hzero, UInt32.toNat_zero] at hnat
    rw [dif_pos hzero, ← hnat]
    rfl
  · rw [dif_neg hzero]
    unfold contentOf BlockCall.slots candidateSlots
    rw [Option.toList_some, List.flatMap_singleton]
    dsimp only
    rw [hnat]
    refine List.map_congr_left fun k hk => ?_
    have hk := List.mem_range.1 hk
    have hbase : (UInt64.ofNat (alignUp cursor r.alignment)).toNat =
        alignUp cursor r.alignment := by
      rw [UInt64.toNat_ofNat', Nat.mod_eq_of_lt (alignUp_lt r cursor)]
    rw [hbase, slotValue_range _ hk]
    refine congrArg (Prod.mk _) (List.map_congr_left fun j hj => ?_)
    have hj : j < r.width := List.mem_range.1 hj
    have hdiv : (k * r.width + j) / r.width = k := by
      rw [Nat.mul_comm, Nat.mul_add_div (by omega), Nat.div_eq_of_lt hj, Nat.add_zero]
    have hmod : (k * r.width + j) % r.width = j := by
      rw [Nat.mul_comm, Nat.mul_add_mod, Nat.mod_eq_of_lt hj]
    have hwidth : k * r.metadata.width.toNat + j = k * r.width + j := rfl
    rw [hwidth, hdiv, hmod]

/-- A chunk that fits is stored with its values, whatever the scratch buffer held. -/
theorem contentOf_storedChunk (hlt : cursor < mappingEnd) (hend : mappingEnd < 2 ^ 64)
    (fits : ChunkFits r mappingEnd cursor) (scratch : Nat → UInt8) :
    contentOf r.alignment (storedChunk r memory (mappingEnd, cursor) scratch) =
      (chunkAddresses r mappingEnd cursor).map fun a => (a, valueAt memory r.width a) := by
  obtain ⟨hamount, hinside, -⟩ := chunkAmount_bounds (r := r) hlt
  rw [storedChunk, contentOf_chunkBlock, chunkAddresses_eq hlt hend fits.noWrap, List.map_map]
  refine List.map_congr_left fun k hk => congrArg (Prod.mk _) (List.map_congr_left fun j hj => ?_)
  obtain ⟨hle, hlast, hvalue⟩ := (exists_slot_iff hlt hend fits.noWrap _).1
    ⟨k, List.mem_range.1 hk, rfl⟩
  have hj := List.mem_range.1 hj
  have hread : alignUp cursor r.alignment + k * r.alignment - cursor + j <
      readSize r mappingEnd cursor := by
    unfold readSize
    by_cases hcrosses : cursor + chunkAmount r mappingEnd cursor <
        alignUp cursor r.alignment + k * r.alignment + r.width
    · -- the value crosses into the next chunk, so the look-ahead is read with it
      have hwhole := fits.whole _ hle hlast hvalue hcrosses
      rw [if_pos (by omega)]
      omega
    · split_ifs <;> omega
  unfold filled
  dsimp only
  rw [if_pos hread]
  congr 1
  omega

end Values

/-! ## Exactly when a pass is exact -/

section Exact

variable (r : BeginRequest) (queryMemory : Nat → Except UInt32 MemoryInfo)

/-- Each pass over the mappings that ends as done, whatever is in the memory and in the scratch
    buffer, stores every value of the readable segments and nothing else, and a commit of it leaves
    a session that contains what was stored. -/
def SnapshotExact : Prop :=
  ∀ (answers : BeginAnswers) (raw : Nat → UInt8) (calls : List (BlockCall r.metadata.width.toNat)),
    answers.queryMemory = queryMemory → runBegin answers r raw = some calls →
      (∃ segments, readSegments r queryMemory r.start = some segments ∧
        contentOf r.alignment calls = snapshot r answers.memory segments) ∧
      ∀ dir, @CommitsTo (makeStoreMetadata r 0) calls false dir →
        SessionContains (makeStoreMetadata r 0) dir (contentOf r.alignment calls)

def ChunksFit : Prop :=
  ∀ segments, readSegments r queryMemory r.start = some segments →
    ∀ chunk ∈ segments.flatMap (chunksOf r), ChunkFits r chunk.1 chunk.2

variable {r queryMemory}

theorem chunk_bounds {segments : List (Nat × Nat)}
    (h : readSegments r queryMemory r.start = some segments) {chunk : Nat × Nat}
    (hchunk : chunk ∈ segments.flatMap (chunksOf r)) :
    chunk.2 < chunk.1 ∧ chunk.1 < 2 ^ 64 := by
  obtain ⟨segment, hsegment, hchunk⟩ := List.mem_flatMap.1 hchunk
  obtain ⟨cursor, hcursor, rfl⟩ := List.mem_map.1 hchunk
  have hend := (readSegments_spec r.start_lt_finish.le h).1 segment hsegment
  exact ⟨lt_of_mem_chunkStarts hcursor, hend.trans_lt r.finish_lt⟩

theorem contentOf_flatMap {α : Type} {width : Nat} (alignment : Nat) (l : List α)
    (f : α → List (BlockCall width)) :
    contentOf alignment (l.flatMap f) = l.flatMap fun a => contentOf alignment (f a) :=
  List.flatMap_assoc

theorem snapshot_eq (memory : Nat → UInt8) (segments : List (Nat × Nat)) :
    snapshot r memory segments = (segments.flatMap (chunksOf r)).flatMap fun chunk =>
      (chunkAddresses r chunk.1 chunk.2).map fun a => (a, valueAt memory r.width a) := by
  rw [snapshot, List.flatMap_assoc]
  refine congrArg List.flatten (List.map_congr_left fun segment _ => ?_)
  obtain ⟨first, last⟩ := segment
  rw [segmentAddresses_eq, List.map_flatMap, chunksOf, List.flatMap_map]

/-- Where all chunks fit, the blocks are exact. -/
theorem contentOf_chunks {memory raw : Nat → UInt8} {chunks : List (Nat × Nat)}
    {calls : List (BlockCall r.metadata.width.toNat)}
    (hstores : StoresChunks r memory raw chunks calls)
    (hbounds : ∀ chunk ∈ chunks, chunk.2 < chunk.1 ∧ chunk.1 < 2 ^ 64)
    (hfits : ∀ chunk ∈ chunks, ChunkFits r chunk.1 chunk.2) :
    contentOf r.alignment calls = chunks.flatMap fun chunk =>
      (chunkAddresses r chunk.1 chunk.2).map fun a => (a, valueAt memory r.width a) := by
  obtain ⟨parts, rfl, -, rfl⟩ := hstores
  rw [contentOf_flatMap, List.flatMap_map]
  refine congrArg List.flatten (List.map_congr_left fun part hpart => ?_)
  have hmem := List.mem_map_of_mem (f := Prod.fst) hpart
  obtain ⟨hlt, hend⟩ := hbounds _ hmem
  exact contentOf_storedChunk hlt hend (hfits _ hmem) part.2

/-- A first pass that is committed can be read back, whatever it has stored. -/
theorem contains_of_begin {answers : BeginAnswers} {raw : Nat → UInt8}
    {calls : List (BlockCall r.metadata.width.toNat)} {dir : Directory SessionFile}
    (hrun : runBegin answers r raw = some calls)
    (hcommits : @CommitsTo (makeStoreMetadata r 0) calls false dir) :
    SessionContains (makeStoreMetadata r 0) dir (contentOf r.alignment calls) := by
  obtain ⟨hwidth, hwidth8⟩ := makeStoreMetadata_width r 0
  have hfitting : ∀ call ∈ calls, Fitting (makeStoreMetadata r 0) call := by
    intro call hcall
    have hfit := runBegin_fitting hrun call hcall
    exact ⟨hfit.values, hfit.span, hfit.clean⟩
  have hcontains := (sessionHolds_of_commit hwidth hwidth8 hfitting hcommits).contains
  exact Eq.subst (motive := SessionContains (makeStoreMetadata r 0) dir)
    (contentOf_keptCalls r.alignment calls) hcontains

theorem snapshotExact_of_fits (h : ChunksFit r queryMemory) : SnapshotExact r queryMemory := by
  rintro answers raw calls rfl hrun
  refine ⟨?_, fun dir hcommits => ?_⟩
  · have hrange := hrun
    unfold runBegin at hrange
    split_ifs at hrange
    obtain ⟨segments, hsegments, hstores⟩ :=
      beginRange_chunks hrange (leftOver_start answers.memory raw r.start)
    refine ⟨segments, hsegments, ?_⟩
    rw [snapshot_eq]
    exact contentOf_chunks hstores (fun _ hchunk => chunk_bounds hsegments hchunk)
      (h segments hsegments)
  · exact contains_of_begin hrun hcommits

/-- What a pass in which nothing fails stores. -/
theorem exists_pass (memory : Nat → UInt8) {segments : List (Nat × Nat)}
    (h : readSegments r queryMemory r.start = some segments) :
    ∃ calls, runBegin { quietAnswers queryMemory with memory } r (fun _ => 0) = some calls ∧
      StoresChunks r memory (fun _ => 0) (segments.flatMap (chunksOf r)) calls := by
  obtain ⟨-, counts, hcounts⟩ := readSegments_spec r.start_lt_finish.le h
  have hquiet : Quiet { quietAnswers queryMemory with memory } :=
    ⟨fun _ => rfl, fun _ => rfl, fun _ => rfl, rfl⟩
  obtain ⟨calls, hcalls⟩ := beginRange_quiet hquiet hcounts fun _ => 0
  obtain ⟨segments', hsegments, hstores⟩ :=
    beginRange_chunks hcalls (leftOver_start memory (fun _ => 0) r.start)
  obtain rfl := Option.some.inj (h.symm.trans hsegments)
  exact ⟨calls, hcalls, hstores⟩

/-- An entry of the block of a chunk is one of the snapshot, if the pass is exact. -/
theorem SnapshotExact.entry (hexact : SnapshotExact r queryMemory) (memory : Nat → UInt8)
    {segments : List (Nat × Nat)} (h : readSegments r queryMemory r.start = some segments)
    {chunk : Nat × Nat} (hchunk : chunk ∈ segments.flatMap (chunksOf r)) :
    ∃ scratch, LeftOver memory (fun _ => 0) chunk.2 scratch ∧
      ∀ entry ∈ contentOf r.alignment (storedChunk r memory chunk scratch),
        entry ∈ snapshot r memory segments := by
  obtain ⟨calls, hrun, hstores⟩ := exists_pass memory h
  obtain ⟨⟨segments', hsegments, hcontent⟩, -⟩ := hexact _ _ calls rfl hrun
  obtain rfl := Option.some.inj (h.symm.trans hsegments)
  obtain ⟨parts, hparts, hleft, rfl⟩ := hstores
  rw [← hparts] at hchunk
  obtain ⟨part, hpart, rfl⟩ := List.mem_map.1 hchunk
  refine ⟨part.2, hleft part hpart, fun entry hentry => ?_⟩
  rw [contentOf_flatMap] at hcontent
  have hmem : entry ∈ parts.flatMap fun part =>
      contentOf r.alignment (storedChunk r memory part.1 part.2) :=
    List.mem_flatMap.2 ⟨part, hpart, hentry⟩
  rw [hcontent] at hmem
  exact hmem

theorem mem_snapshot {memory : Nat → UInt8} {segments : List (Nat × Nat)} {a : Nat}
    {value : List UInt8} (h : (a, value) ∈ snapshot r memory segments) :
    value = valueAt memory r.width a ∧ ∃ segment ∈ segments, IsValue r segment.2 a := by
  obtain ⟨segment, hsegment, h⟩ := List.mem_flatMap.1 h
  obtain ⟨a', ha', heq⟩ := List.mem_map.1 h
  obtain ⟨rfl, rfl⟩ := Prod.mk.inj heq
  exact ⟨rfl, segment, hsegment, of_decide_eq_true (List.mem_filter.1 ha').2⟩

theorem fits_of_snapshotExact (hexact : SnapshotExact r queryMemory) :
    ChunksFit r queryMemory := by
  intro segments hsegments chunk hchunk
  obtain ⟨hlt, hend⟩ := chunk_bounds hsegments hchunk
  have hnoWrap : NoWrap r chunk.1 chunk.2 := by
    by_contra hwraps
    obtain ⟨k, hk, hover⟩ := exists_wrapped_slot hlt hend hwraps
    obtain ⟨scratch, -, hentries⟩ := hexact.entry (fun _ => 0) hsegments hchunk
    rw [storedChunk, contentOf_chunkBlock] at hentries
    obtain ⟨-, segment, hsegment, -, hvalue⟩ :=
      mem_snapshot (hentries _ (List.mem_map.2 ⟨k, List.mem_range.2 hk, rfl⟩))
    have hfinish := (readSegments_spec r.start_lt_finish.le hsegments).1 segment hsegment
    have hlast := r.finish_lt
    omega
  refine ⟨hnoWrap, fun a hle hlast hvalue hcrosses => ?_⟩
  by_contra hshort
  obtain ⟨k, hk, ha⟩ := (exists_slot_iff hlt hend hnoWrap a).2 ⟨hle, hlast, hvalue⟩
  -- the first byte that is not read is the only one that is not zero
  obtain ⟨scratch, hleft, hentries⟩ := hexact.entry
    (fun x => if x = chunk.2 + chunkAmount r chunk.1 chunk.2 then 1 else 0) hsegments hchunk
  rw [storedChunk, contentOf_chunkBlock] at hentries
  obtain ⟨hstored, -⟩ := mem_snapshot (hentries _ (List.mem_map.2 ⟨k, List.mem_range.2 hk, rfl⟩))
  rw [← ha] at hstored
  have hbyte := congrArg (fun bytes => bytes[chunk.2 + chunkAmount r chunk.1 chunk.2 - a]?) hstored
  have hj : chunk.2 + chunkAmount r chunk.1 chunk.2 - a < r.width := by omega
  unfold valueAt at hbyte
  simp only [List.getElem?_map] at hbyte
  rw [List.getElem?_range hj, Option.map_some, Option.map_some, Option.some.injEq,
    if_pos (by omega)] at hbyte
  have hsize : readSize r chunk.1 chunk.2 = chunkAmount r chunk.1 chunk.2 := by
    unfold readSize
    rw [if_neg (by omega)]
  have hindex : a - chunk.2 + (chunk.2 + chunkAmount r chunk.1 chunk.2 - a) =
      chunkAmount r chunk.1 chunk.2 := by omega
  rw [hindex, hsize, filled, if_neg (Nat.lt_irrefl _)] at hbyte
  -- the byte behind the chunk is not read: it is the buffer's, or one from below
  rcases hleft (chunkAmount r chunk.1 chunk.2) with hraw | ⟨before, hbefore, hread⟩
  · exact absurd (show (0 : UInt8) = 1 from hraw.symm.trans hbyte) (by decide)
  · rw [hread] at hbyte
    dsimp only at hbyte
    rw [if_neg (by omega)] at hbyte
    exact absurd hbyte (by decide)

/-- A pass is exact, whatever the memory holds, exactly when each of its chunks fits. -/
theorem snapshot_exact_iff (r : BeginRequest) (queryMemory : Nat → Except UInt32 MemoryInfo) :
    SnapshotExact r queryMemory ↔ ChunksFit r queryMemory :=
  ⟨fits_of_snapshotExact, snapshotExact_of_fits⟩

end Exact

/-- A full chunk of four-byte values, and one byte more. -/
def oneByteMore : BeginRequest where
  metadata :=
    { byteMetadata with
      start := 0x1000
      finish := 0x11001
      alignment := 1
      width := 4 }
  start_lt := by decide
  alignment_valid := by decide
  width_valid := by decide

def wholeMapping : Nat → Except UInt32 MemoryInfo :=
  fun _ => .ok { addr := 0x1000, size := 0x11000, perm := 1 }

/-- The last value has its last byte behind the chunk, where nothing is read. -/
theorem last_value_is_not_read : ¬ SnapshotExact oneByteMore wholeMapping := by
  rw [snapshot_exact_iff]
  intro h
  have hsegments : readSegments oneByteMore wholeMapping oneByteMore.start =
      some [(0x1000, 0x11001)] := by decide +kernel
  have hchunk : (0x11001, 0x1000) ∈ [(0x1000, 0x11001)].flatMap (chunksOf oneByteMore) := by
    rw [List.flatMap_singleton, chunksOf, chunkStarts, if_pos (by decide)]
    exact List.mem_cons_self
  have hamount : chunkAmount oneByteMore 0x11001 0x1000 = 0x10000 := by decide
  have hwidth : oneByteMore.width = 4 := rfl
  have hwhole := (h _ hsegments _ hchunk).whole 0x10FFD (by decide) (by rw [hamount]; decide)
    (by decide) (by rw [hamount, hwidth]; decide)
  rw [hamount, hwidth] at hwhole
  exact absurd hwhole (by decide)

end SysAgent
