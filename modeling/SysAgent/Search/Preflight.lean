import Mathlib
import SysAgent.Search.Snapshot
import SysAgent.Store.RoundTrip

set_option autoImplicit false

/-! # The storage that a first pass takes (`search_store.c`, `unknown_search.c`)

`unknownSearchBegin` compares the free space with `searchStoreEstimateMaximum`, which takes the range
as one mapping: a block for each full chunk and two more. A pass writes at least one block for each
readable mapping that holds a value, however short the mapping is. -/

namespace SysAgent

/-! ## The estimate -/

/-- `searchStoreEstimateMaximum`. -/
def searchStoreEstimateMaximum (size alignment : UInt64) (width : UInt32) : UInt64 :=
  let uint64Max : UInt64 := 0xFFFFFFFFFFFFFFFF
  if alignment == 0 || width == 0 then uint64Max
  else
    let slots := size / alignment + 1
    if slots > (uint64Max - UInt64.ofNat sizeofHeader) / width.toUInt64 then uint64Max
    else
      let maximumSpan := ((0x40000 : UInt32) / width).toUInt64 * alignment
      let maximumSpan := if maximumSpan > 0x40000 then 0x40000 else maximumSpan
      let blocks := size / maximumSpan + 2
      let perBlock := UInt64.ofNat sizeofBlockHeader + UInt64.ofNat sizeofIndexEntry
      if blocks > uint64Max / perBlock then uint64Max
      else
        let overhead := blocks * perBlock
        let bitmap := (slots + 7) / 8
        if slots * width.toUInt64 > uint64Max - UInt64.ofNat sizeofHeader - overhead - bitmap then
          uint64Max
        else UInt64.ofNat sizeofHeader + overhead + bitmap + slots * width.toUInt64

namespace BeginRequest

variable (r : BeginRequest)

/-- The size of the range, from which the estimate is made. -/
def size : Nat := r.finish - r.start

/-- The estimate for a request. -/
def estimate : UInt64 :=
  searchStoreEstimateMaximum (UInt64.ofNat r.size) r.metadata.alignment r.metadata.width

/-- The slots that the estimate counts on, in a range that may start anywhere. -/
def rangeSlots : Nat := r.size / r.alignment + 1

/-- What `searchStoreEstimateMaximum` computes where no operation wraps around. -/
def idealEstimate : Nat :=
  sizeofHeader + (r.size / r.maximumSpan + 2) * (sizeofBlockHeader + sizeofIndexEntry) +
    (r.rangeSlots + 7) / 8 + r.rangeSlots * r.width

theorem size_lt : r.size < 2 ^ 64 := by
  have hfinish := r.finish_lt
  unfold size
  omega

theorem span_toNat : (if ((0x40000 : UInt32) / r.metadata.width).toUInt64 * r.metadata.alignment >
      0x40000 then 0x40000
    else ((0x40000 : UInt32) / r.metadata.width).toUInt64 * r.metadata.alignment).toNat =
      r.maximumSpan := by
  have hwidth : ((0x40000 : UInt32) / r.metadata.width).toUInt64.toNat =
      UNKNOWN_CHUNK_SIZE / r.width := by
    rw [UInt32.toNat_toUInt64, UInt32.toNat_div]
    rfl
  have hdiv : UNKNOWN_CHUNK_SIZE / r.width ≤ UNKNOWN_CHUNK_SIZE := Nat.div_le_self _ _
  have halignment : r.alignment ≤ 256 := by
    obtain ⟨k, hk, heq⟩ := r.alignment_cases
    rw [heq]
    exact Nat.pow_le_pow_right (by decide) hk
  have hproduct := Nat.mul_le_mul hdiv halignment
  have hchunk : UNKNOWN_CHUNK_SIZE = 0x40000 := rfl
  have hmul : (((0x40000 : UInt32) / r.metadata.width).toUInt64 * r.metadata.alignment).toNat =
      UNKNOWN_CHUNK_SIZE / r.width * r.alignment := by
    rw [UInt64.toNat_mul, hwidth]
    exact Nat.mod_eq_of_lt (lt_of_le_of_lt hproduct (by decide))
  have hlimit : (0x40000 : UInt64).toNat = UNKNOWN_CHUNK_SIZE := rfl
  unfold maximumSpan
  dsimp only
  by_cases hlarge : UNKNOWN_CHUNK_SIZE / r.width * r.alignment > UNKNOWN_CHUNK_SIZE
  · rw [if_pos hlarge, if_pos (by rw [gt_iff_lt, UInt64.lt_iff_toNat_lt, hmul, hlimit]; exact hlarge)]
    exact hlimit
  · rw [if_neg hlarge,
      if_neg (by rw [gt_iff_lt, UInt64.lt_iff_toNat_lt, hmul, hlimit]; exact hlarge)]
    exact hmul

/-- Counting the slots wraps around for the whole address space in steps of one. -/
theorem rangeSlots_lt_iff : r.rangeSlots < 2 ^ 64 ↔ ¬ (r.size = UINT64_MAX ∧ r.alignment = 1) := by
  have hsize := r.size_lt
  have hpos := r.alignment_pos
  have hmax : UINT64_MAX = 2 ^ 64 - 1 := rfl
  unfold rangeSlots
  by_cases hone : r.alignment = 1
  · rw [hone, Nat.div_one]
    omega
  · have hhalf : r.size / r.alignment ≤ r.size / 2 :=
      Nat.div_le_div_left (by omega) (by decide)
    constructor
    · exact fun _ h => hone h.2
    · omega

theorem blocks_toNat {span : UInt64} (hspan : span.toNat = r.maximumSpan) :
    (UInt64.ofNat r.size / span + 2).toNat = r.size / r.maximumSpan + 2 ∧
      r.size / r.maximumSpan + 2 ≤ 2 ^ 49 + 2 := by
  have hsize := r.size_lt
  have hle : r.size / r.maximumSpan ≤ r.size / 0x8000 :=
    Nat.div_le_div_left r.maximumSpan_bounds.1 (by decide)
  have htwo : (2 : UInt64).toNat = 2 := rfl
  rw [UInt64.toNat_add, UInt64.toNat_div, hspan, UInt64.toNat_ofNat', Nat.mod_eq_of_lt hsize, htwo,
    Nat.mod_eq_of_lt (by omega)]
  exact ⟨rfl, by omega⟩

/-- The estimate is what it is meant to be, unless the number of slots wraps around. -/
theorem estimate_toNat (hestimate : r.estimate.toNat ≠ UINT64_MAX) (hslots : r.rangeSlots < 2 ^ 64) :
    r.estimate.toNat = r.idealEstimate := by
  obtain ⟨span, hspanEq⟩ : ∃ span, span =
      if ((0x40000 : UInt32) / r.metadata.width).toUInt64 * r.metadata.alignment > 0x40000 then
        0x40000
      else ((0x40000 : UInt32) / r.metadata.width).toUInt64 * r.metadata.alignment := ⟨_, rfl⟩
  have hspan : span.toNat = r.maximumSpan := hspanEq ▸ r.span_toNat
  obtain ⟨hblocks, hblocksLe⟩ := r.blocks_toNat hspan
  obtain ⟨blocks, hblocksEq⟩ : ∃ blocks, blocks = UInt64.ofNat r.size / span + 2 := ⟨_, rfl⟩
  obtain ⟨slots, hslotsEq⟩ : ∃ slots, slots = UInt64.ofNat r.size / r.metadata.alignment + 1 :=
    ⟨_, rfl⟩
  rw [← hblocksEq] at hblocks
  have hslotsNat : slots.toNat = r.rangeSlots := by
    have hone : (1 : UInt64).toNat = 1 := rfl
    rw [hslotsEq, UInt64.toNat_add, UInt64.toNat_div, UInt64.toNat_ofNat',
      Nat.mod_eq_of_lt r.size_lt, hone]
    exact Nat.mod_eq_of_lt hslots
  have hwidth : r.metadata.width.toUInt64.toNat = r.width := UInt32.toNat_toUInt64 _
  have hwidthPos : 0 < r.width := by
    rcases r.width_cases with h | h | h | h <;> omega
  have hzero : (r.metadata.alignment == 0 || r.metadata.width == 0) = false := by
    rw [Bool.or_eq_false_iff, beq_eq_false_iff_ne, beq_eq_false_iff_ne]
    refine ⟨fun h => r.alignment_pos.ne' ?_, fun h => hwidthPos.ne' ?_⟩
    · rw [alignment, h]
      rfl
    · rw [width, h]
      rfl
  revert hestimate
  simp only [estimate, searchStoreEstimateMaximum, hzero, ← hspanEq, ← hblocksEq, ← hslotsEq]
  have hmax : (0xFFFFFFFFFFFFFFFF : UInt64).toNat = UINT64_MAX := rfl
  have hheader : (UInt64.ofNat sizeofHeader).toNat = 160 := rfl
  have hper : (UInt64.ofNat sizeofBlockHeader + UInt64.ofNat sizeofIndexEntry).toNat = 72 := rfl
  rw [if_neg Bool.false_ne_true]
  split_ifs with hmany hblocksMany hlarge
  · exact fun h => absurd hmax h
  · exact fun h => absurd hmax h
  · exact fun h => absurd hmax h
  · intro _
    rw [gt_iff_lt, UInt64.not_lt, UInt64.le_iff_toNat_le] at hmany hblocksMany hlarge
    have hproduct : r.rangeSlots * r.width ≤ UINT64_MAX - 160 := by
      rw [UInt64.toNat_div, UInt64.toNat_sub_of_le _ _ (by decide), hmax, hheader, hwidth,
        hslotsNat] at hmany
      exact (Nat.le_div_iff_mul_le hwidthPos).1 hmany
    have hproductNat : (slots * r.metadata.width.toUInt64).toNat = r.rangeSlots * r.width := by
      rw [UInt64.toNat_mul, hslotsNat, hwidth]
      exact Nat.mod_eq_of_lt (by unfold UINT64_MAX at hproduct; omega)
    have hoverhead : (blocks * (UInt64.ofNat sizeofBlockHeader +
        UInt64.ofNat sizeofIndexEntry)).toNat = (r.size / r.maximumSpan + 2) * 72 := by
      rw [UInt64.toNat_mul, hper, hblocks]
      exact Nat.mod_eq_of_lt (by omega)
    have hle := Nat.le_mul_of_pos_right r.rangeSlots hwidthPos
    have hmaxNat : UINT64_MAX = 2 ^ 64 - 1 := rfl
    have hbitmap : ((slots + 7) / 8).toNat = (r.rangeSlots + 7) / 8 := by
      have hseven : (7 : UInt64).toNat = 7 := rfl
      have height : (8 : UInt64).toNat = 8 := rfl
      rw [UInt64.toNat_div, UInt64.toNat_add, hslotsNat, hseven, height,
        Nat.mod_eq_of_lt (by omega)]
    have hfirst : ((0xFFFFFFFFFFFFFFFF : UInt64) - UInt64.ofNat sizeofHeader).toNat =
        UINT64_MAX - 160 := rfl
    have hsecond := UInt64.toNat_sub_of_le _ _ (show blocks * (UInt64.ofNat sizeofBlockHeader +
        UInt64.ofNat sizeofIndexEntry) ≤ 0xFFFFFFFFFFFFFFFF - UInt64.ofNat sizeofHeader by
      rw [UInt64.le_iff_toNat_le, hoverhead, hfirst]
      omega)
    have hthird := UInt64.toNat_sub_of_le _ _ (show (slots + 7) / 8 ≤
        0xFFFFFFFFFFFFFFFF - UInt64.ofNat sizeofHeader -
          blocks * (UInt64.ofNat sizeofBlockHeader + UInt64.ofNat sizeofIndexEntry) by
      rw [UInt64.le_iff_toNat_le, hbitmap, hsecond, hoverhead, hfirst]
      omega)
    rw [hproductNat, hthird, hsecond, hoverhead, hbitmap, hfirst] at hlarge
    have hsizes : sizeofHeader = 160 ∧ sizeofBlockHeader + sizeofIndexEntry = 72 := ⟨rfl, rfl⟩
    rw [UInt64.toNat_add, UInt64.toNat_add, UInt64.toNat_add, hproductNat, hoverhead, hbitmap,
      hheader, idealEstimate, hsizes.1, hsizes.2]
    omega

end BeginRequest

/-! ## The size of the file -/

/-- A block without a mask stores all slots. -/
theorem BlockCall.payloadSize_of_none {width : Nat} {call : BlockCall width}
    (h : call.mask = none) :
    call.slots.length = call.slotCount.toNat ∧ call.payloadSize = call.slotCount.toNat * width := by
  have hslots : call.slots.length = call.slotCount.toNat := by
    simp only [BlockCall.slots, candidateSlots, h, List.length_range]
  refine ⟨hslots, ?_⟩
  rw [BlockCall.payloadSize, hslots, chooseRepresentation, if_neg (not_not.2 rfl)]

/-- Each block takes its header, its index entry and its values. -/
theorem length_image_of_none {metadata : SearchStoreMetadata}
    {calls : List (BlockCall metadata.width.toNat)} (h : ∀ call ∈ calls, call.mask = none) :
    (imageBytes metadata (storedBlocks 0 calls)).length =
      sizeofHeader + (sizeofBlockHeader + sizeofIndexEntry) * calls.length +
        (calls.map fun call => call.slotCount.toNat).sum * metadata.width.toNat := by
  have hblocks : ∀ cumulative, (storedBlocks cumulative calls).length = calls.length ∧
      (blocksBytes (storedBlocks cumulative calls)).length = sizeofBlockHeader * calls.length +
        (calls.map fun call => call.slotCount.toNat).sum * metadata.width.toNat := by
    induction calls with
    | nil => exact fun _ => ⟨rfl, by simp [storedBlocks]⟩
    | cons call calls ih =>
      intro cumulative
      obtain ⟨hslots, hsize⟩ := BlockCall.payloadSize_of_none (h call List.mem_cons_self)
      have hne : call.slots ≠ [] := by
        intro hnil
        rw [hnil, List.length_nil] at hslots
        exact call.slots_pos (UInt32.toNat_inj.1 (hslots.symm.trans UInt32.toNat_zero.symm))
      obtain ⟨hcount, hbytes⟩ := ih (fun c hc => h c (List.mem_cons_of_mem _ hc))
        (cumulative + call.slots.length)
      have hpayload : (call.stored cumulative).payload.length =
          call.slotCount.toNat * metadata.width.toNat := call.length_payload.trans hsize
      rw [storedBlocks, if_neg hne, List.length_cons, hcount, blocksBytes_cons, List.length_append,
        StoredBlock.length_bytes, hpayload, hbytes, List.length_cons, List.map_cons, List.sum_cons]
      exact ⟨rfl, by ring⟩
  obtain ⟨hcount, hbytes⟩ := hblocks 0
  rw [length_imageBytes, hcount, hbytes]
  ring

/-! ## The layout of the range -/

section Layout

variable (r : BeginRequest)

/-- The slots of the chunks of a mapping from `cursor` on. -/
def mappingSlots (mappingEnd cursor : Nat) : List Nat :=
  if cursor < mappingEnd then
    let amount := min r.maximumSpan (mappingEnd - cursor)
    chunkSlots r mappingEnd cursor amount :: mappingSlots mappingEnd (cursor + amount)
  else []
termination_by mappingEnd - cursor
decreasing_by
  have hspan := r.maximumSpan_bounds.1
  omega

/-- The slots of the chunks of a range, from the mappings alone; `none` where the walk cannot get to
    the end. -/
def layoutSlots (queryMemory : Nat → Except UInt32 MemoryInfo) (cursor : Nat) :
    Option (List Nat) :=
  if cursor < r.finish then
    match queryMemory cursor with
    | .error _ => none
    | .ok info =>
      let plan := searchPlanMapping cursor r.finish info.addr info.size info.readable
      match _haction : plan.action with
      | .invalid => none
      | .skip => layoutSlots queryMemory plan.finish
      | .read => (layoutSlots queryMemory plan.finish).map (mappingSlots r plan.finish cursor ++ ·)
  else some []
termination_by r.finish - cursor
decreasing_by
  all_goals
    have hplan := searchPlanMapping_progress (show plan.action ≠ .invalid by simp [_haction])
    omega

theorem dropSlots_le (mappingEnd first slots : Nat) :
    dropSlots r mappingEnd first slots ≤ slots := by
  induction slots with
  | zero => exact Nat.le_refl _
  | succ slots ih =>
    rw [dropSlots]
    split_ifs
    · omega
    · exact Nat.le_refl _

theorem chunkSlots_lt (mappingEnd cursor amount : Nat) :
    chunkSlots r mappingEnd cursor amount < 2 ^ 32 := by
  unfold chunkSlots
  dsimp only
  split_ifs
  · exact lt_of_le_of_lt (dropSlots_le _ _ _ _) (Nat.mod_lt _ (by decide))
  · decide

/-- The block of a chunk has its slots. -/
theorem chunkBlock_slots (raw : Nat → UInt8) (mappingEnd cursor amount : Nat) :
    (chunkBlock r raw mappingEnd cursor amount).toList.map (fun call => call.slotCount.toNat) =
        [chunkSlots r mappingEnd cursor amount].filter (· ≠ 0) ∧
      ∀ call ∈ (chunkBlock r raw mappingEnd cursor amount).toList, call.mask = none := by
  have hnat : (UInt32.ofNat (chunkSlots r mappingEnd cursor amount)).toNat =
      chunkSlots r mappingEnd cursor amount := by
    rw [UInt32.toNat_ofNat', Nat.mod_eq_of_lt (chunkSlots_lt r mappingEnd cursor amount)]
  unfold chunkBlock
  dsimp only
  by_cases hzero : UInt32.ofNat (chunkSlots r mappingEnd cursor amount) = 0
  · rw [dif_pos hzero]
    rw [hzero, UInt32.toNat_zero] at hnat
    simp [← hnat]
  · have hne : chunkSlots r mappingEnd cursor amount ≠ 0 := by
      intro h
      rw [h] at hzero
      exact hzero rfl
    rw [dif_neg hzero]
    simp [hnat, hne]

variable {r}

/-- The blocks of a mapping are those of its chunks with a slot. -/
theorem beginMapping_slots {answers : BeginAnswers} {mappingEnd cursor : Nat}
    {raw raw' : Nat → UInt8} {blocks : List (BlockCall r.metadata.width.toNat)}
    (h : beginMapping answers r mappingEnd cursor raw = some (blocks, raw')) :
    blocks.map (fun call => call.slotCount.toNat) =
        (mappingSlots r mappingEnd cursor).filter (· ≠ 0) ∧
      ∀ call ∈ blocks, call.mask = none := by
  induction hn : mappingEnd - cursor using Nat.strong_induction_on
    generalizing cursor raw raw' blocks with
  | _ n ih =>
    rw [beginMapping] at h
    rw [mappingSlots]
    by_cases hlt : cursor < mappingEnd
    · rw [if_pos hlt] at h ⊢
      have hspan := r.maximumSpan_bounds.1
      split_ifs at h with hcancel hfails
      obtain ⟨⟨rest, last⟩, hrest, hjoined⟩ := Option.map_eq_some_iff.1 h
      obtain ⟨rfl, -⟩ := Prod.mk.inj hjoined
      have hless : mappingEnd - (cursor + min r.maximumSpan (mappingEnd - cursor)) < n := by omega
      obtain ⟨hcounts, hmasks⟩ := ih _ hless hrest rfl
      obtain ⟨hfirst, hmask⟩ := chunkBlock_slots r
        (fun i => if i < (if min r.maximumSpan (mappingEnd - cursor) + r.width - 1 ≤
            mappingEnd - cursor then
              min r.maximumSpan (mappingEnd - cursor) + r.width - 1
            else min r.maximumSpan (mappingEnd - cursor)) then
          answers.memory (cursor + i) else raw i)
        mappingEnd cursor (min r.maximumSpan (mappingEnd - cursor))
      refine ⟨?_, fun call hcall => ?_⟩
      · rw [List.map_append, hcounts, hfirst, ← List.filter_append, List.singleton_append]
      · rcases List.mem_append.1 hcall with hchunk | hrest
        · exact hmask call hchunk
        · exact hmasks call hrest
    · rw [if_neg hlt] at h ⊢
      obtain ⟨rfl, -⟩ := Prod.mk.inj (Option.some.inj h)
      exact ⟨rfl, fun _ hcall => absurd hcall List.not_mem_nil⟩

section Steps

variable {cursor : Nat} {info : MemoryInfo}

theorem layoutSlots_skip {queryMemory : Nat → Except UInt32 MemoryInfo} (hlt : cursor < r.finish)
    (hquery : queryMemory cursor = .ok info)
    (haction : (searchPlanMapping cursor r.finish info.addr info.size info.readable).action =
      .skip) :
    layoutSlots r queryMemory cursor = layoutSlots r queryMemory
      (searchPlanMapping cursor r.finish info.addr info.size info.readable).finish := by
  rw [layoutSlots, if_pos hlt, hquery]
  dsimp only
  split
  · rename_i hinvalid
    cases haction.symm.trans hinvalid
  · rfl
  · rename_i hread
    cases haction.symm.trans hread

theorem layoutSlots_read {queryMemory : Nat → Except UInt32 MemoryInfo} (hlt : cursor < r.finish)
    (hquery : queryMemory cursor = .ok info)
    (haction : (searchPlanMapping cursor r.finish info.addr info.size info.readable).action =
      .read) :
    layoutSlots r queryMemory cursor = (layoutSlots r queryMemory
      (searchPlanMapping cursor r.finish info.addr info.size info.readable).finish).map
        (mappingSlots r
          (searchPlanMapping cursor r.finish info.addr info.size info.readable).finish cursor ++
            ·) := by
  rw [layoutSlots, if_pos hlt, hquery]
  dsimp only
  split
  · rename_i hinvalid
    cases haction.symm.trans hinvalid
  · rename_i hskip
    cases haction.symm.trans hskip
  · rfl

variable {answers : BeginAnswers} {raw : Nat → UInt8}

theorem beginRange_skip (hlt : cursor < r.finish)
    (hgoes : (answers.cancelBeforeQuery cursor || !answers.processIsCurrent cursor) = false)
    (hquery : answers.queryMemory cursor = .ok info)
    (haction : (searchPlanMapping cursor r.finish info.addr info.size info.readable).action =
      .skip) :
    beginRange answers r cursor raw = beginRange answers r
      (searchPlanMapping cursor r.finish info.addr info.size info.readable).finish raw := by
  rw [beginRange, if_pos hlt, hgoes, if_neg Bool.false_ne_true, hquery]
  dsimp only
  split
  · rename_i hinvalid
    cases haction.symm.trans hinvalid
  · rfl
  · rename_i hread
    cases haction.symm.trans hread

theorem beginRange_read (hlt : cursor < r.finish)
    (hgoes : (answers.cancelBeforeQuery cursor || !answers.processIsCurrent cursor) = false)
    (hquery : answers.queryMemory cursor = .ok info)
    (haction : (searchPlanMapping cursor r.finish info.addr info.size info.readable).action =
      .read) :
    beginRange answers r cursor raw = (beginMapping answers r
      (searchPlanMapping cursor r.finish info.addr info.size info.readable).finish cursor raw).bind
        fun mapped => (beginRange answers r
          (searchPlanMapping cursor r.finish info.addr info.size info.readable).finish
            mapped.2).map (mapped.1 ++ ·) := by
  rw [beginRange, if_pos hlt, hgoes, if_neg Bool.false_ne_true, hquery]
  dsimp only
  split
  · rename_i hinvalid
    cases haction.symm.trans hinvalid
  · rename_i hskip
    cases haction.symm.trans hskip
  · cases beginMapping answers r
      (searchPlanMapping cursor r.finish info.addr info.size info.readable).finish cursor raw with
    | none => rfl
    | some mapped => rfl

end Steps

/-- A pass that ends as done has walked the layout, and stores a block for each chunk with a
    slot. -/
theorem beginRange_slots {answers : BeginAnswers} {cursor : Nat} {raw : Nat → UInt8}
    {blocks : List (BlockCall r.metadata.width.toNat)}
    (h : beginRange answers r cursor raw = some blocks) :
    ∃ counts, layoutSlots r answers.queryMemory cursor = some counts ∧
      blocks.map (fun call => call.slotCount.toNat) = counts.filter (· ≠ 0) ∧
        ∀ call ∈ blocks, call.mask = none := by
  induction hn : r.finish - cursor using Nat.strong_induction_on
    generalizing cursor raw blocks with
  | _ n ih =>
    rw [beginRange] at h
    by_cases hlt : cursor < r.finish
    · rw [if_pos hlt] at h
      split_ifs at h with hstopped
      cases hquery : answers.queryMemory cursor with
      | error result =>
        rw [hquery] at h
        cases h
      | ok info =>
        rw [hquery] at h
        dsimp only at h
        have hprogress : ∀ action, action ≠ .invalid →
            (searchPlanMapping cursor r.finish info.addr info.size info.readable).action = action →
            r.finish - (searchPlanMapping cursor r.finish info.addr info.size info.readable).finish <
              n := by
          intro action hne haction
          have hplan := searchPlanMapping_progress (haction ▸ hne)
          omega
        split at h
        · cases h
        · rename_i haction
          rw [layoutSlots_skip hlt hquery haction]
          exact ih _ (hprogress _ (by decide) haction) h rfl
        · rename_i haction
          split at h
          · cases h
          · rename_i mapped raw' hmapped
            obtain ⟨rest, hrest, rfl⟩ := Option.map_eq_some_iff.1 h
            obtain ⟨counts, hcounts, hslots, hmasks⟩ :=
              ih _ (hprogress _ (by decide) haction) hrest rfl
            obtain ⟨hmappedSlots, hmappedMasks⟩ := beginMapping_slots hmapped
            rw [layoutSlots_read hlt hquery haction]
            refine ⟨_, Option.map_eq_some_iff.2 ⟨counts, hcounts, rfl⟩, ?_, fun call hcall => ?_⟩
            · rw [List.map_append, hmappedSlots, hslots, List.filter_append]
            · rcases List.mem_append.1 hcall with hleft | hright
              · exact hmappedMasks call hleft
              · exact hmasks call hright
    · rw [if_neg hlt] at h
      split_ifs at h with hcancel
      obtain rfl := Option.some.inj h
      rw [layoutSlots, if_neg hlt]
      exact ⟨[], rfl, rfl, fun _ hcall => absurd hcall List.not_mem_nil⟩

/-! ### The slots of a layout -/

/-- The number of multiples of the alignment below an address. -/
def slotsBelow (r : BeginRequest) (address : Nat) : Nat :=
  (address + r.alignment - 1) / r.alignment

theorem slotsBelow_mono {a b : Nat} (h : a ≤ b) : slotsBelow r a ≤ slotsBelow r b :=
  Nat.div_le_div_right (by omega)

/-- Clearing the low bits. -/
theorem and_not_mask {x k : Nat} (hx : x < 2 ^ 64) :
    x &&& (UINT64_MAX ^^^ (2 ^ k - 1)) = 2 ^ k * (x / 2 ^ k) := by
  have hmax : UINT64_MAX = 2 ^ 64 - 1 := rfl
  refine Nat.eq_of_testBit_eq fun i => ?_
  rw [Nat.testBit_and, Nat.testBit_xor, hmax, Nat.testBit_two_pow_sub_one,
    Nat.testBit_two_pow_sub_one, Nat.testBit_two_pow_mul, Nat.testBit_div_two_pow]
  by_cases hi : i < 64
  · by_cases hk : i < k
    · simp [hi, hk]
    · simp [hi, hk, not_lt.1 hk]
  · have hbit : x.testBit i = false :=
      Nat.testBit_lt_two_pow (lt_of_lt_of_le hx (Nat.pow_le_pow_right (by decide) (not_lt.1 hi)))
    by_cases hk : k ≤ i
    · simp [hbit, hk]
    · simp [hbit, hk]

theorem alignUp_eq {value : Nat} (h : alignUp value r.alignment ≠ UINT64_MAX) :
    alignUp value r.alignment = r.alignment * slotsBelow r value := by
  have hpos := r.alignment_pos
  have hmax : UINT64_MAX = 2 ^ 64 - 1 := rfl
  obtain ⟨k, -, hk⟩ := r.alignment_cases
  unfold alignUp at h ⊢
  dsimp only at h ⊢
  by_cases hlarge : value > UINT64_MAX - (r.alignment - 1)
  · rw [if_pos hlarge] at h
    exact absurd rfl h
  · rw [if_neg hlarge, slotsBelow, Nat.add_sub_assoc hpos]
    have hlt : value + (r.alignment - 1) < 2 ^ 64 := by
      have hsmall : r.alignment ≤ 2 ^ 64 := by
        have hlt := r.metadata.alignment.toNat_lt
        exact hlt.le
      omega
    rw [hk] at hlt ⊢
    exact and_not_mask hlt

/-- A chunk has no more slots than there are multiples of the alignment in it. -/
theorem chunkSlots_le (mappingEnd cursor amount : Nat) :
    chunkSlots r mappingEnd cursor amount + slotsBelow r cursor ≤ slotsBelow r (cursor + amount) := by
  have hmono : slotsBelow r cursor ≤ slotsBelow r (cursor + amount) :=
    slotsBelow_mono (Nat.le_add_right _ _)
  have hpos := r.alignment_pos
  unfold chunkSlots
  dsimp only
  split_ifs with hfirst
  · obtain ⟨hne, hlt, -⟩ := hfirst
    rw [alignUp_eq hne] at hlt ⊢
    have hcount : (cursor + amount - r.alignment * slotsBelow r cursor + r.alignment - 1) /
        r.alignment = slotsBelow r (cursor + amount) - slotsBelow r cursor := by
      have hmoved : cursor + amount - r.alignment * slotsBelow r cursor + r.alignment - 1 =
          cursor + amount + r.alignment - 1 - r.alignment * slotsBelow r cursor := by omega
      rw [hmoved, Nat.sub_mul_div]
      rfl
    have hdropped := dropSlots_le r mappingEnd (r.alignment * slotsBelow r cursor)
      ((cursor + amount - r.alignment * slotsBelow r cursor + r.alignment - 1) / r.alignment %
        2 ^ 32)
    have hmod := Nat.mod_le ((cursor + amount - r.alignment * slotsBelow r cursor + r.alignment - 1) /
      r.alignment) (2 ^ 32)
    rw [hcount] at hmod
    omega
  · omega

theorem mappingSlots_sum {mappingEnd cursor : Nat} (hle : cursor ≤ mappingEnd) :
    (mappingSlots r mappingEnd cursor).sum + slotsBelow r cursor ≤ slotsBelow r mappingEnd := by
  induction hn : mappingEnd - cursor using Nat.strong_induction_on generalizing cursor with
  | _ n ih =>
    rw [mappingSlots]
    by_cases hlt : cursor < mappingEnd
    · have hspan := r.maximumSpan_bounds.1
      have hless : mappingEnd - (cursor + min r.maximumSpan (mappingEnd - cursor)) < n := by omega
      have hrest := ih _ hless (by omega) rfl
      have hchunk := chunkSlots_le (r := r) mappingEnd cursor
        (min r.maximumSpan (mappingEnd - cursor))
      rw [if_pos hlt, List.sum_cons]
      omega
    · have heq : cursor = mappingEnd := by omega
      rw [if_neg hlt, heq, List.sum_nil]
      omega

theorem layoutSlots_sum {queryMemory : Nat → Except UInt32 MemoryInfo} {cursor : Nat}
    {counts : List Nat} (hle : cursor ≤ r.finish)
    (h : layoutSlots r queryMemory cursor = some counts) :
    counts.sum + slotsBelow r cursor ≤ slotsBelow r r.finish := by
  induction hn : r.finish - cursor using Nat.strong_induction_on generalizing cursor counts with
  | _ n ih =>
    rw [layoutSlots] at h
    by_cases hlt : cursor < r.finish
    · rw [if_pos hlt] at h
      cases hquery : queryMemory cursor with
      | error result =>
        rw [hquery] at h
        cases h
      | ok info =>
        rw [hquery] at h
        dsimp only at h
        split at h
        · cases h
        · rename_i haction
          have hplan := searchPlanMapping_progress (show (searchPlanMapping cursor r.finish
            info.addr info.size info.readable).action ≠ .invalid by rw [haction]; decide)
          have hrest := ih _ (by omega) hplan.2 h rfl
          have hmono := slotsBelow_mono (r := r) hplan.1.le
          omega
        · rename_i haction
          have hplan := searchPlanMapping_progress (show (searchPlanMapping cursor r.finish
            info.addr info.size info.readable).action ≠ .invalid by rw [haction]; decide)
          obtain ⟨rest, hrest, rfl⟩ := Option.map_eq_some_iff.1 h
          have hbehind := ih _ (by omega) hplan.2 hrest rfl
          have hmapped := mappingSlots_sum (r := r) hplan.1.le
          rw [List.sum_append]
          omega
    · rw [if_neg hlt] at h
      obtain rfl := Option.some.inj h
      have heq : cursor = r.finish := by omega
      rw [heq, List.sum_nil]
      omega

/-- The estimate counts on enough slots. -/
theorem layoutSlots_le {queryMemory : Nat → Except UInt32 MemoryInfo} {counts : List Nat}
    (h : layoutSlots r queryMemory r.start = some counts) : counts.sum ≤ r.rangeSlots := by
  have hsum := layoutSlots_sum r.start_lt_finish.le h
  have hpos := r.alignment_pos
  have hsplit : r.finish + r.alignment - 1 = (r.start + r.alignment - 1) + r.size := by
    have hlt := r.start_lt_finish
    unfold BeginRequest.size
    omega
  have hrange : slotsBelow r r.finish ≤ slotsBelow r r.start + r.rangeSlots := by
    unfold slotsBelow BeginRequest.rangeSlots
    rw [hsplit, Nat.add_div hpos]
    split_ifs <;> omega
  omega

/-! ### A pass in which nothing fails -/

/-- Every read succeeds, and nothing is cancelled. -/
def quietAnswers (queryMemory : Nat → Except UInt32 MemoryInfo) : BeginAnswers where
  memory := fun _ => 0
  buffersAllocated := true
  pauseSucceeds := true
  cancelBeforeQuery := fun _ => false
  cancelBeforeRead := fun _ => false
  cancelAtEnd := false
  processIsCurrent := fun _ => true
  queryMemory := queryMemory
  readFails := fun _ => false

/-- Nothing stops the pass. -/
structure Quiet (answers : BeginAnswers) : Prop where
  goes : ∀ cursor, (answers.cancelBeforeQuery cursor || !answers.processIsCurrent cursor) = false
  continues : ∀ cursor, answers.cancelBeforeRead cursor = false
  reads : ∀ cursor, answers.readFails cursor = false
  ends : answers.cancelAtEnd = false

theorem quiet_quietAnswers (queryMemory : Nat → Except UInt32 MemoryInfo) :
    Quiet (quietAnswers queryMemory) := ⟨fun _ => rfl, fun _ => rfl, fun _ => rfl, rfl⟩

theorem beginMapping_quiet {answers : BeginAnswers} (quiet : Quiet answers)
    (mappingEnd cursor : Nat) (raw : Nat → UInt8) :
    ∃ result, beginMapping answers r mappingEnd cursor raw = some result := by
  induction hn : mappingEnd - cursor using Nat.strong_induction_on generalizing cursor raw with
  | _ n ih =>
    rw [beginMapping]
    by_cases hlt : cursor < mappingEnd
    · have hspan := r.maximumSpan_bounds.1
      have hless : mappingEnd - (cursor + min r.maximumSpan (mappingEnd - cursor)) < n := by omega
      rw [if_pos hlt]
      simp only [quiet.continues, quiet.reads, Bool.false_eq_true, if_false]
      obtain ⟨result, hresult⟩ := ih _ hless _ _ rfl
      exact ⟨_, Option.map_eq_some_iff.2 ⟨result, hresult, rfl⟩⟩
    · rw [if_neg hlt]
      exact ⟨_, rfl⟩

/-- It gets as far as the layout can be walked. -/
theorem beginRange_quiet {answers : BeginAnswers} (quiet : Quiet answers) {cursor : Nat}
    {counts : List Nat} (h : layoutSlots r answers.queryMemory cursor = some counts)
    (raw : Nat → UInt8) :
    ∃ blocks, beginRange answers r cursor raw = some blocks := by
  induction hn : r.finish - cursor using Nat.strong_induction_on
    generalizing cursor counts raw with
  | _ n ih =>
    rw [layoutSlots] at h
    by_cases hlt : cursor < r.finish
    · rw [if_pos hlt] at h
      cases hquery : answers.queryMemory cursor with
      | error result =>
        rw [hquery] at h
        cases h
      | ok info =>
        rw [hquery] at h
        dsimp only at h
        have hprogress : ∀ action, action ≠ .invalid →
            (searchPlanMapping cursor r.finish info.addr info.size info.readable).action = action →
            r.finish - (searchPlanMapping cursor r.finish info.addr info.size info.readable).finish <
              n := by
          intro action hne haction
          have hplan := searchPlanMapping_progress (haction ▸ hne)
          omega
        split at h
        · cases h
        · rename_i haction
          rw [beginRange_skip hlt (quiet.goes cursor) hquery haction]
          exact ih _ (hprogress _ (by decide) haction) h raw rfl
        · rename_i haction
          obtain ⟨rest, hrest, -⟩ := Option.map_eq_some_iff.1 h
          obtain ⟨⟨mapped, raw'⟩, hmapped⟩ := beginMapping_quiet (r := r) quiet
            (searchPlanMapping cursor r.finish info.addr info.size info.readable).finish cursor raw
          obtain ⟨blocks, hblocks⟩ := ih _ (hprogress _ (by decide) haction) hrest raw' rfl
          rw [beginRange_read hlt (quiet.goes cursor) hquery haction, hmapped]
          exact ⟨_, Option.map_eq_some_iff.2 ⟨blocks, hblocks, rfl⟩⟩
    · rw [beginRange, if_neg hlt, quiet.ends, if_neg Bool.false_ne_true]
      exact ⟨[], rfl⟩

end Layout

/-! ## The bound -/

section Bound

variable {r : BeginRequest} {queryMemory : Nat → Except UInt32 MemoryInfo}

/-- The estimate is computed without a wrap-around or a division by zero, and no file that a pass
    over the layout writes is larger. -/
structure PreflightBounds (r : BeginRequest) (queryMemory : Nat → Except UInt32 MemoryInfo) :
    Prop where
  exact : r.estimate.toNat = r.idealEstimate
  divisors : r.alignment ≠ 0 ∧ r.width ≠ 0 ∧ r.maximumSpan ≠ 0
  bound : ∀ answers raw calls, answers.queryMemory = queryMemory →
    runBegin answers r raw = some calls →
      (imageBytes r.metadata (storedBlocks 0 calls)).length ≤ r.estimate.toNat

/-- The chunks that hold a value, beyond one for each full chunk of the range and two more, take no
    more than the bitmap that no block of this pass has and the values outside of readable
    mappings. -/
def LayoutFits (r : BeginRequest) (queryMemory : Nat → Except UInt32 MemoryInfo) : Prop :=
  ∀ counts, layoutSlots r queryMemory r.start = some counts →
    (sizeofBlockHeader + sizeofIndexEntry) * (counts.filter (· ≠ 0)).length ≤
      (sizeofBlockHeader + sizeofIndexEntry) * (r.size / r.maximumSpan + 2) +
        (r.rangeSlots + 7) / 8 + (r.rangeSlots - counts.sum) * r.width

theorem sum_filter_ne_zero (counts : List Nat) : (counts.filter (· ≠ 0)).sum = counts.sum := by
  induction counts with
  | nil => rfl
  | cons n counts ih =>
    by_cases hn : n = 0
    · simp [hn, ← ih]
    · simp [hn, ← ih]

/-- The size of the file of a pass. -/
theorem length_image {answers : BeginAnswers} {raw : Nat → UInt8}
    {calls : List (BlockCall r.metadata.width.toNat)} (h : runBegin answers r raw = some calls) :
    ∃ counts, layoutSlots r answers.queryMemory r.start = some counts ∧
      (imageBytes r.metadata (storedBlocks 0 calls)).length =
        sizeofHeader + (sizeofBlockHeader + sizeofIndexEntry) * (counts.filter (· ≠ 0)).length +
          counts.sum * r.width := by
  unfold runBegin at h
  split_ifs at h
  obtain ⟨counts, hcounts, hslots, hmasks⟩ := beginRange_slots h
  refine ⟨counts, hcounts, ?_⟩
  rw [length_image_of_none hmasks, hslots, sum_filter_ne_zero, ← hslots, List.length_map]
  rfl

/-- The estimate covers a layout exactly when the layout fits. -/
theorem image_le_iff {counts : List Nat} (h : layoutSlots r queryMemory r.start = some counts) :
    sizeofHeader + (sizeofBlockHeader + sizeofIndexEntry) * (counts.filter (· ≠ 0)).length +
        counts.sum * r.width ≤ r.idealEstimate ↔
      (sizeofBlockHeader + sizeofIndexEntry) * (counts.filter (· ≠ 0)).length ≤
        (sizeofBlockHeader + sizeofIndexEntry) * (r.size / r.maximumSpan + 2) +
          (r.rangeSlots + 7) / 8 + (r.rangeSlots - counts.sum) * r.width := by
  have hle : counts.sum * r.width ≤ r.rangeSlots * r.width :=
    Nat.mul_le_mul_right _ (layoutSlots_le h)
  unfold BeginRequest.idealEstimate
  rw [Nat.sub_mul, Nat.mul_comm (r.size / r.maximumSpan + 2)]
  omega

end Bound

/-- A preflight that gives an estimate bounds the file of every pass over a layout exactly when the
    number of slots does not wrap around and the layout fits. -/
theorem preflight_bounds_iff (r : BeginRequest) (queryMemory : Nat → Except UInt32 MemoryInfo)
    (hestimate : r.estimate.toNat ≠ UINT64_MAX) :
    PreflightBounds r queryMemory ↔
      ¬ (r.size = UINT64_MAX ∧ r.alignment = 1) ∧ LayoutFits r queryMemory := by
  rw [← r.rangeSlots_lt_iff]
  have hwidth : 0 < r.width := by
    rcases r.width_cases with h | h | h | h <;> omega
  constructor
  · intro h
    refine ⟨?_, fun counts hcounts => ?_⟩
    · have hlt := r.estimate.toNat_lt
      have hle := Nat.le_mul_of_pos_right r.rangeSlots hwidth
      rw [h.exact, BeginRequest.idealEstimate] at hlt
      omega
    · obtain ⟨calls, hcalls⟩ := beginRange_quiet (quiet_quietAnswers queryMemory) hcounts fun _ => 0
      have hrun : runBegin (quietAnswers queryMemory) r (fun _ => 0) = some calls := hcalls
      have hbound := h.bound _ _ _ rfl hrun
      obtain ⟨counts', hcounts', hlength⟩ := length_image hrun
      obtain rfl := Option.some.inj (hcounts.symm.trans hcounts')
      rw [hlength, h.exact] at hbound
      exact (image_le_iff hcounts).1 hbound
  · rintro ⟨hslots, hfits⟩
    have hexact := r.estimate_toNat hestimate hslots
    have hspan := r.maximumSpan_bounds.1
    refine ⟨hexact, ⟨r.alignment_pos.ne', hwidth.ne', by omega⟩, ?_⟩
    rintro answers raw calls rfl hrun
    obtain ⟨counts, hcounts, hlength⟩ := length_image hrun
    rw [hlength, hexact]
    exact (image_le_iff hcounts).2 (hfits counts hcounts)

/-- One-byte values at every 256th address of three pages. -/
def threePages : BeginRequest where
  metadata :=
    { byteMetadata with
      start := 0x1000
      finish := 0x4000
      alignment := 256 }
  start_lt := by decide
  alignment_valid := by decide
  width_valid := by decide

/-- The pages as one readable mapping. -/
def oneMapping : Nat → Except UInt32 MemoryInfo :=
  fun _ => .ok { addr := 0x1000, size := 0x3000, perm := 1 }

/-- Each page as a readable mapping of its own. -/
def mappingEachPage : Nat → Except UInt32 MemoryInfo :=
  fun cursor => .ok { addr := cursor / 0x1000 * 0x1000, size := 0x1000, perm := 1 }

/-- One mapping fits. -/
theorem preflight_bounds_iff_oneMapping : PreflightBounds threePages oneMapping := by
  refine (preflight_bounds_iff threePages oneMapping (by decide)).2
    ⟨by decide, fun counts hcounts => ?_⟩
  have hlayout : layoutSlots threePages oneMapping threePages.start = some [48] := by
    decide +kernel
  obtain rfl := Option.some.inj (hlayout.symm.trans hcounts)
  decide

/-- Three mappings do not: three blocks of 88 bytes and the header are more than the estimate. -/
theorem three_mappings_exceed_estimate :
    threePages.estimate.toNat = 360 ∧ ¬ PreflightBounds threePages mappingEachPage := by
  have hestimate : threePages.estimate.toNat = 360 := by decide
  refine ⟨hestimate, fun h => ?_⟩
  have hlayout : layoutSlots threePages mappingEachPage threePages.start = some [16, 16, 16] := by
    decide +kernel
  obtain ⟨calls, hcalls⟩ := beginRange_quiet (quiet_quietAnswers mappingEachPage) hlayout fun _ => 0
  have hrun : runBegin (quietAnswers mappingEachPage) threePages (fun _ => 0) = some calls := hcalls
  have hbound := h.bound _ _ _ rfl hrun
  obtain ⟨counts, hcounts, hlength⟩ := length_image hrun
  obtain rfl := Option.some.inj (hlayout.symm.trans hcounts)
  rw [hlength, hestimate] at hbound
  revert hbound
  decide

end SysAgent
