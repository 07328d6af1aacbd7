import Mathlib
import SysAgent.Search.Preflight
import SysAgent.Search.Refine
import SysAgent.Store.Pages

set_option autoImplicit false

/-! # What a session holds through its generations

The geometry of a block is chosen by the first pass and never changes: later passes keep its slots
and drop candidates. It stays within the limits of the writer, of the reader and of the buffers of a
refinement, and a block grows by its mask at most, when it turns from all slots to a bitmap. -/

namespace SysAgent

open StoreResult

/-! ## The buffers of the reader -/

section Buffers

theorem length_of_copyInto {dst src result : List UInt8} {position : Nat}
    (h : copyInto dst position src = ok result) : result.length = dst.length := by
  by_cases hfits : position + src.length ≤ dst.length
  · rw [copyInto_ok hfits] at h
    obtain rfl := StoreResult.ok.inj h
    exact length_overwrite hfits
  · rw [copyInto, if_neg hfits] at h
    cases h

variable {block : SearchStoreBlockHeader} {payload values mask values' mask' : List UInt8}

theorem length_of_decodeAll (h : decodeAll block payload values mask = ok (values', mask')) :
    values'.length = values.length ∧ mask'.length = mask.length := by
  obtain ⟨stored, -, h⟩ := bind_eq_ok.1 h
  obtain ⟨values₁, hvalues, h⟩ := bind_eq_ok.1 h
  obtain ⟨mask₁, hmask, h⟩ := bind_eq_ok.1 h
  have hmaskLength := length_of_copyInto hmask
  have hvaluesLength := length_of_copyInto hvalues
  split_ifs at h with hrest hnone
  · obtain ⟨last, -, h⟩ := bind_eq_ok.1 h
    obtain ⟨mask₂, hlast, h⟩ := bind_eq_ok.1 h
    obtain ⟨rfl, rfl⟩ := Prod.mk.inj (StoreResult.ok.inj h)
    exact ⟨hvaluesLength, (length_of_copyInto hlast).trans hmaskLength⟩
  · obtain ⟨rfl, rfl⟩ := Prod.mk.inj (StoreResult.ok.inj h)
    exact ⟨hvaluesLength, hmaskLength⟩

theorem length_of_decodeBitmap (h : decodeBitmap block payload values mask = ok (values', mask')) :
    values'.length = values.length ∧ mask'.length = mask.length := by
  obtain ⟨bits, -, h⟩ := bind_eq_ok.1 h
  obtain ⟨mask₁, hmask, h⟩ := bind_eq_ok.1 h
  obtain ⟨stored, -, h⟩ := bind_eq_ok.1 h
  obtain ⟨values₁, hvalues, h⟩ := bind_eq_ok.1 h
  obtain ⟨rfl, rfl⟩ := Prod.mk.inj (StoreResult.ok.inj h)
  exact ⟨length_of_copyInto hvalues, length_of_copyInto hmask⟩

theorem length_of_decodeSparse {index cursor left : Nat} {previous : UInt32}
    (h : decodeSparse block payload index cursor previous values mask left = ok (values', mask')) :
    values'.length = values.length ∧ mask'.length = mask.length := by
  induction left generalizing index cursor previous values mask with
  | zero =>
    obtain ⟨rfl, rfl⟩ := Prod.mk.inj (StoreResult.ok.inj h)
    exact ⟨rfl, rfl⟩
  | succ left ih =>
    rw [decodeSparse] at h
    obtain ⟨number, -, h⟩ := bind_eq_ok.1 h
    obtain ⟨_, -, h⟩ := bind_eq_ok.1 h
    obtain ⟨mask₁, hmask, h⟩ := bind_eq_ok.1 h
    obtain ⟨item, -, h⟩ := bind_eq_ok.1 h
    obtain ⟨values₁, hvalues, h⟩ := bind_eq_ok.1 h
    obtain ⟨hvaluesLength, hmaskLength⟩ := ih h
    refine ⟨hvaluesLength.trans (length_of_copyInto hvalues), hmaskLength.trans ?_⟩
    unfold bitSet at hmask
    split_ifs at hmask
    obtain rfl := StoreResult.ok.inj hmask
    exact List.length_set

/-- Reading a block keeps the buffers at their lengths. -/
theorem length_of_next {device : Bool} {reader reader' : SearchStoreReader} {read : DecodedBlock}
    (h : searchStoreReaderNext device reader values mask = ok (read, reader')) :
    read.values.length = values.length ∧ read.mask.length = mask.length := by
  obtain ⟨_, -, h⟩ := bind_eq_ok.1 h
  obtain ⟨_, -, h⟩ := bind_eq_ok.1 h
  obtain ⟨⟨header, behind⟩, -, h⟩ := bind_eq_ok.1 h
  obtain ⟨_, -, h⟩ := bind_eq_ok.1 h
  obtain ⟨⟨payload, rest⟩, -, h⟩ := bind_eq_ok.1 h
  obtain ⟨_, -, h⟩ := bind_eq_ok.1 h
  obtain ⟨⟨decoded, bits⟩, hdecoded, h⟩ := bind_eq_ok.1 h
  obtain ⟨rfl, -⟩ := Prod.mk.inj (StoreResult.ok.inj h)
  obtain ⟨values₁, hvalues, hdecoded⟩ := bind_eq_ok.1 hdecoded
  obtain ⟨mask₁, hmask, hdecoded⟩ := bind_eq_ok.1 hdecoded
  have hvaluesLength := length_of_copyInto hvalues
  have hmaskLength := length_of_copyInto hmask
  have hlengths : decoded.length = values₁.length ∧ bits.length = mask₁.length := by
    dsimp only at hdecoded
    split_ifs at hdecoded
    · exact length_of_decodeAll hdecoded
    · exact length_of_decodeBitmap hdecoded
    · exact length_of_decodeSparse hdecoded
  exact ⟨hlengths.1.trans hvaluesLength, hlengths.2.trans hmaskLength⟩

end Buffers

/-! ## The geometry of a block -/

section Geometry

variable {metadata : SearchStoreMetadata}

/-- The slots of a block fit the buffers of every pass, and its mask reads back as it is. -/
structure Fitting (metadata : SearchStoreMetadata)
    (call : BlockCall metadata.width.toNat) : Prop where
  values : call.slotCount.toNat * metadata.width.toNat ≤ UNKNOWN_CHUNK_SIZE
  span : (call.slotCount.toNat - 1) * metadata.alignment.toNat + metadata.width.toNat ≤ valuesBuffer
  clean : call.Clean

theorem Fitting.slots_le {call : BlockCall metadata.width.toNat} (h : Fitting metadata call)
    (hwidth : 0 < metadata.width.toNat) : call.slotCount.toNat ≤ UNKNOWN_CHUNK_SIZE :=
  Nat.le_trans (Nat.le_mul_of_pos_right _ hwidth) h.values

/-- The three representations fit into the payload. -/
theorem Fitting.payload {call : BlockCall metadata.width.toNat} (h : Fitting metadata call)
    (hwidth : 0 < metadata.width.toNat) : call.payloadSize ≤ StoreMaximumPayload := by
  have hslots := h.slots_le hwidth
  have hvalues := h.values
  have hmask := BlockCall.maskBytes_le call.slotCount
  have hchunk : UNKNOWN_CHUNK_SIZE = 0x40000 := rfl
  have hmax : StoreMaximumPayload = 0x50000 := rfl
  unfold BlockCall.payloadSize chooseRepresentation
  dsimp only
  split_ifs with hall hsparse
  · dsimp only
    omega
  · dsimp only
    omega
  · dsimp only
    omega

end Geometry

/-! ### The first pass -/

section First

variable {r : BeginRequest}

/-- A full chunk is a number of steps of the alignment, and holds as many values. -/
theorem maximumSpan_steps (r : BeginRequest) :
    ∃ m, r.maximumSpan = m * r.alignment ∧ m * r.width ≤ UNKNOWN_CHUNK_SIZE := by
  have hwidth := Nat.div_mul_le_self UNKNOWN_CHUNK_SIZE r.width
  unfold BeginRequest.maximumSpan
  dsimp only
  split_ifs with hlarge
  · obtain ⟨k, hk, hpower⟩ := r.alignment_cases
    have hdvd : r.alignment ∣ UNKNOWN_CHUNK_SIZE := by
      rw [hpower]
      exact pow_dvd_pow 2 (show k ≤ 18 by omega)
    obtain ⟨m, hm⟩ := hdvd
    refine ⟨m, hm.trans (Nat.mul_comm _ _), ?_⟩
    have hlt : m < UNKNOWN_CHUNK_SIZE / r.width := by
      refine Nat.lt_of_mul_lt_mul_right (a := r.alignment) ?_
      rwa [Nat.mul_comm m, ← hm]
    exact Nat.le_trans (Nat.mul_le_mul_right _ hlt.le) hwidth
  · exact ⟨_, rfl, hwidth⟩

/-- A number of slots that the buffers of every pass hold. -/
def SlotsFit (r : BeginRequest) (slots : Nat) : Prop :=
  slots * r.width ≤ UNKNOWN_CHUNK_SIZE ∧ (slots - 1) * r.alignment + r.width ≤ valuesBuffer

theorem chunkSlots_fit (mappingEnd cursor : Nat) {amount : Nat} (h : amount ≤ r.maximumSpan) :
    SlotsFit r (chunkSlots r mappingEnd cursor amount) := by
  obtain ⟨m, hm, hvalues⟩ := maximumSpan_steps r
  have hpos := r.alignment_pos
  have hle : chunkSlots r mappingEnd cursor amount ≤ m := by
    have hcount := chunkSlots_le (r := r) mappingEnd cursor amount
    have hmore : slotsBelow r (cursor + amount) ≤ slotsBelow r (cursor + m * r.alignment) :=
      slotsBelow_mono (by omega)
    have hsteps : slotsBelow r (cursor + m * r.alignment) = slotsBelow r cursor + m := by
      have hmoved : cursor + m * r.alignment + r.alignment - 1 =
          cursor + r.alignment - 1 + m * r.alignment := by omega
      unfold slotsBelow
      rw [hmoved, Nat.add_mul_div_right _ _ hpos]
    omega
  refine ⟨Nat.le_trans (Nat.mul_le_mul_right _ hle) hvalues, ?_⟩
  have hspan := Nat.mul_le_mul_right r.alignment (Nat.le_trans (Nat.sub_le _ 1) hle)
  have hmax := r.maximumSpan_bounds.2
  have hwidth : r.width ≤ 8 := by
    rcases r.width_cases with hw | hw | hw | hw <;> omega
  have hbuffer : valuesBuffer = UNKNOWN_CHUNK_SIZE + 8 := rfl
  omega

theorem mappingSlots_fit {mappingEnd cursor : Nat} :
    ∀ slots ∈ mappingSlots r mappingEnd cursor, SlotsFit r slots := by
  induction hn : mappingEnd - cursor using Nat.strong_induction_on generalizing cursor with
  | _ n ih =>
    rw [mappingSlots]
    split_ifs with hlt
    · have hspan := r.maximumSpan_bounds.1
      have hless : mappingEnd - (cursor + min r.maximumSpan (mappingEnd - cursor)) < n := by omega
      intro slots hslots
      rcases List.mem_cons.1 hslots with rfl | hrest
      · exact chunkSlots_fit mappingEnd cursor (Nat.min_le_left _ _)
      · exact ih _ hless rfl slots hrest
    · intro slots hslots
      cases hslots

theorem layoutSlots_fit {queryMemory : Nat → Except UInt32 MemoryInfo} {cursor : Nat}
    {counts : List Nat} (h : layoutSlots r queryMemory cursor = some counts) :
    ∀ slots ∈ counts, SlotsFit r slots := by
  induction hn : r.finish - cursor using Nat.strong_induction_on generalizing cursor counts with
  | _ n ih =>
    rw [layoutSlots] at h
    by_cases hlt : cursor < r.finish
    · rw [if_pos hlt] at h
      cases hquery : queryMemory cursor with
      | error result =>
        rw [hquery] at h
        cases h
      | ok info =>
        rw [hquery] at h
        dsimp only at h
        split at h
        · cases h
        · rename_i haction
          have hplan := searchPlanMapping_progress (show (searchPlanMapping cursor r.finish
            info.addr info.size info.readable).action ≠ .invalid by rw [haction]; decide)
          exact ih _ (by omega) h rfl
        · rename_i haction
          have hplan := searchPlanMapping_progress (show (searchPlanMapping cursor r.finish
            info.addr info.size info.readable).action ≠ .invalid by rw [haction]; decide)
          obtain ⟨rest, hrest, rfl⟩ := Option.map_eq_some_iff.1 h
          intro slots hslots
          rcases List.mem_append.1 hslots with hmapped | hbehind
          · exact mappingSlots_fit slots hmapped
          · exact ih _ (by omega) hrest rfl slots hbehind
    · rw [if_neg hlt] at h
      obtain rfl := Option.some.inj h
      intro slots hslots
      cases hslots

/-- The blocks of a first pass fit. -/
theorem runBegin_fitting {answers : BeginAnswers} {raw : Nat → UInt8}
    {calls : List (BlockCall r.metadata.width.toNat)} (h : runBegin answers r raw = some calls) :
    ∀ call ∈ calls, Fitting r.metadata call := by
  unfold runBegin at h
  split_ifs at h
  obtain ⟨counts, hcounts, hslots, hmasks⟩ := beginRange_slots h
  intro call hcall
  have hmem : call.slotCount.toNat ∈ counts := by
    have hmapped := List.mem_map_of_mem (f := fun call => call.slotCount.toNat) hcall
    rw [hslots] at hmapped
    exact (List.mem_filter.1 hmapped).1
  obtain ⟨hvalues, hspan⟩ := layoutSlots_fit hcounts _ hmem
  refine ⟨hvalues, hspan, ?_, ?_⟩
  · have hwidth : 0 < r.width := by
      rcases r.width_cases with hw | hw | hw | hw <;> omega
    have hle := Nat.le_trans (Nat.le_mul_of_pos_right call.slotCount.toNat hwidth) hvalues
    have hchunk : UNKNOWN_CHUNK_SIZE = 0x40000 := rfl
    omega
  · intro _ m hm
    rw [hmasks call hcall] at hm
    cases hm

end First

/-! ### A later pass -/

section Later

variable {metadata : SearchStoreMetadata}

/-- The next generation of a block: the same slots, of which no more are candidates. -/
structure Refines (old new : BlockCall metadata.width.toNat) : Prop where
  slotCount : new.slotCount = old.slotCount
  slots : new.slots.length ≤ old.slots.length
  fitting : Fitting metadata new

/-- Bits of the filter are slots of the block that were set before. -/
theorem test_searchFilterUnsigned {mode : SearchCompareMode} {previous current inputMask : List UInt8}
    {slotCount : UInt32} {width : Nat} {exactValue : UInt64}
    (hsize : maskBytes slotCount = (slotCount.toNat + 7) / 8) {i : Nat}
    (h : ByteMask.test (searchFilterUnsigned mode previous current inputMask slotCount width
      exactValue) i = true) : i < slotCount.toNat ∧ ByteMask.test inputMask i = true := by
  unfold searchFilterUnsigned at h
  rw [ByteMask.test_foldl_set, ByteMask.test_replicate_zero, Bool.false_or, decide_eq_true_iff] at h
  · obtain ⟨hslot, hpasses⟩ := List.mem_filter.1 h
    rw [Bool.and_eq_true, bitIsSet_eq] at hpasses
    exact ⟨List.mem_range.1 hslot, hpasses.1⟩
  · intro slot hslot
    have hlt := List.mem_range.1 (List.mem_filter.1 hslot).1
    rw [List.length_replicate, hsize]
    omega

theorem refinedCall_refines {mode : SearchCompareMode} {exactValue : UInt64} {memory : Nat → UInt8}
    {block : DecodedBlock} {old : BlockCall metadata.width.toNat} {cumulative : Nat}
    (hfit : Fitting metadata old) (hreads : ReadsAs old cumulative block)
    (hslots : block.header.slotCount ≠ 0)
    (hmask : block.header.slotCount.toNat ≤ 8 * maskBytes block.header.slotCount) :
    Refines old (refinedCall metadata mode exactValue memory block hslots hmask) := by
  have hcount : (refinedCall metadata mode exactValue memory block hslots hmask).slotCount =
      old.slotCount := hreads.slotCount
  have hsize : maskBytes block.header.slotCount = (block.header.slotCount.toNat + 7) / 8 := by
    rw [BlockCall.maskBytes_eq, hreads.slotCount, Nat.mod_eq_of_lt hfit.clean.noWrap]
  refine ⟨hcount, ?_, ⟨?_, ?_, ?_, ?_⟩⟩
  · have hnodup : (refinedCall metadata mode exactValue memory block hslots hmask).slots.Nodup :=
      (BlockCall.slots_sorted _).imp ne_of_lt
    refine (List.subperm_of_subset hnodup fun slot hslot => ?_).length_le
    obtain ⟨hlt, hbit⟩ := BlockCall.mem_slots.1 hslot
    obtain ⟨hlt', htest⟩ := test_searchFilterUnsigned hsize (hbit _ rfl)
    rw [hreads.slotCount] at hlt'
    rw [hreads.mask slot (by unfold BlockCall.neededMask; omega), decide_eq_true_iff] at htest
    exact htest
  · rw [hcount]
    exact hfit.values
  · rw [hcount]
    exact hfit.span
  · rw [hcount]
    exact hfit.clean.noWrap
  · intro _ m hm i hi _
    obtain rfl := Option.some.inj hm
    by_contra hset
    have hlt := (test_searchFilterUnsigned hsize (Bool.eq_true_of_not_eq_false hset)).1
    have hsame : (refinedCall metadata mode exactValue memory block hslots hmask).slotCount =
        block.header.slotCount := rfl
    rw [hsame] at hi
    omega

/-- The limits that a pass checks for a block. -/
theorem Fitting.blockSpan_le {call : BlockCall metadata.width.toNat} (h : Fitting metadata call) :
    blockSpan metadata call.slotCount ≤ valuesBuffer := by
  have hone : (1 : UInt32) ≤ call.slotCount := by
    rw [UInt32.le_iff_toNat_le, UInt32.toNat_one, Nat.one_le_iff_ne_zero]
    exact fun hzero => call.slots_pos (UInt32.toNat_inj.1 (hzero.trans UInt32.toNat_zero.symm))
  unfold blockSpan
  rw [UInt32.toNat_sub_of_le _ _ hone, UInt32.toNat_one]
  exact Nat.le_trans (Nat.mod_le _ _) h.span

variable {answers : RefineAnswers} {mode : SearchCompareMode} {exactValue : UInt64}
  {kept : List (BlockCall metadata.width.toNat)}

/-- A pass over these blocks does not find the session corrupt, and if it goes to the end it hands on
    the next generation of each. -/
structure Carries (kept : List (BlockCall metadata.width.toNat))
    (outcome : RefineOutcome metadata.width.toNat) : Prop where
  corrupt : outcome ≠ .failed .corruptSession
  fault : outcome ≠ .fault
  done : ∀ calls, outcome = .done calls → List.Forall₂ Refines kept calls

theorem carries_cancelled (kept : List (BlockCall metadata.width.toNat)) :
    Carries kept .cancelled :=
  ⟨by simp, by simp, by simp⟩

theorem carries_failed (kept : List (BlockCall metadata.width.toNat)) {failure : SearchFailure}
    (h : failure ≠ .corruptSession) : Carries kept (.failed failure) :=
  ⟨by simpa using h, by simp, by simp⟩

theorem Carries.conclude {outcome : RefineOutcome metadata.width.toNat} (h : Carries kept outcome) :
    Carries kept (concludeRefine answers outcome) := by
  cases outcome with
  | fault => exact absurd rfl h.fault
  | done calls =>
    rw [concludeRefine]
    · split_ifs
      · exact carries_cancelled kept
      · exact h
    · simp
  | cancelled =>
    rw [concludeRefine]
    · split_ifs <;> exact h
    · simp
  | failed failure =>
    rw [concludeRefine]
    · split_ifs
      · exact carries_cancelled kept
      · exact h
    · simp

/-- The block before what the rest of a pass hands on. -/
def RefineOutcome.prepend {width : Nat} (call : BlockCall width) :
    RefineOutcome width → RefineOutcome width
  | .done calls => .done (call :: calls)
  | outcome => outcome

/-- A pass reads the next block as the call that wrote it, and refuses nothing of it. -/
theorem refineBlocks_step (h : Storable metadata kept) {call : BlockCall metadata.width.toNat}
    (hcall : Fitting metadata call) {before after : List (BlockCall metadata.width.toNat)}
    (hkept : kept = before ++ call :: after) (position : Nat) {previous oldMask : List UInt8}
    (hprevious : previous.length = valuesBuffer) (holdMask : oldMask.length = maskBuffer) :
    ∃ (block : DecodedBlock) (hslots : block.header.slotCount ≠ 0)
      (hmask : block.header.slotCount.toNat ≤ 8 * maskBytes block.header.slotCount)
      (position' : Nat),
      ReadsAs call (candidates before) block ∧ block.values.length = valuesBuffer ∧
        block.mask.length = maskBuffer ∧
        refineBlocks answers metadata mode exactValue
            (readerAt metadata (storedBlocks 0 kept) (storedBlocks 0 before) position) previous
            oldMask (after.length + 1) =
          let number := (readerAt metadata (storedBlocks 0 kept) (storedBlocks 0 before)
            position).nextBlock.toNat
          if answers.cancelBeforeBlock number then .cancelled
          else if !answers.processIsCurrent number then .failed .processChanged
          else if answers.readFails number then .failed .ioError
          else if !answers.blockIsWritten number then .failed .ioError
          else
            (refineBlocks answers metadata mode exactValue
              (readerAt metadata (storedBlocks 0 kept) (storedBlocks 0 (before ++ [call])) position')
              block.values block.mask after.length).prepend
                (refinedCall metadata mode exactValue (answers.memory number) block hslots hmask) := by
  have hmem : call ∈ kept := by
    rw [hkept]
    exact List.mem_append_right _ List.mem_cons_self
  have hslotsLe := hcall.slots_le h.width_pos
  have hvaluesFit := hcall.values
  have hchunk : UNKNOWN_CHUNK_SIZE = 0x40000 := rfl
  have hvaluesBuffer : valuesBuffer = UNKNOWN_CHUNK_SIZE + 8 := rfl
  have hmaskBuffer : maskBuffer = UNKNOWN_CHUNK_SIZE / 8 + 8 := rfl
  obtain ⟨values', mask', position', hnext, hslotValues, hbits⟩ :=
    searchStoreReaderNext_image h.width h.width8 h.length
      (storedBlocks_split hkept (h.slots call hmem)) (h.size call hmem) (h.slots call hmem)
      position (show call.slotCount.toNat * metadata.width.toNat ≤ previous.length by omega)
      (show (call.slotCount.toNat + 7) / 8 ≤ oldMask.length by omega)
  have hreads := readsAs_of_bits h hkept hslotValues fun i hi => by
    rw [hbits]
    exact BlockCall.decodedBit_of_clean hcall.clean _ hi
  obtain ⟨hvaluesLength, hmaskLength⟩ := length_of_next hnext
  have hslotCount : (call.stored (candidates before)).header.slotCount = call.slotCount :=
    hreads.slotCount
  have hspan : ¬ blockSpan metadata (call.stored (candidates before)).header.slotCount >
      valuesBuffer := by
    rw [hslotCount]
    exact not_lt.2 hcall.blockSpan_le
  have hmaskFits : (call.stored (candidates before)).header.slotCount.toNat ≤
      8 * maskBytes (call.stored (candidates before)).header.slotCount := by
    rw [hslotCount, BlockCall.maskBytes_eq, Nat.mod_eq_of_lt hcall.clean.noWrap]
    omega
  have hslots : (call.stored (candidates before)).header.slotCount ≠ 0 := by
    rw [hslotCount]
    exact call.slots_pos
  refine ⟨_, hslots, hmaskFits, position', hreads, hvaluesLength.trans hprevious,
    hmaskLength.trans holdMask, ?_⟩
  rw [refineBlocks, storedBlocks_snoc (h.slots call hmem)]
  simp only [hnext, if_neg hspan, dif_pos hmaskFits, dif_neg hslots]
  cases refineBlocks answers metadata mode exactValue
      (readerAt metadata (storedBlocks 0 kept)
        (storedBlocks 0 before ++ [call.stored (candidates before)]) position') values' mask'
      after.length with
  | done calls => simp only [RefineOutcome.prepend]
  | cancelled => simp only [RefineOutcome.prepend]
  | failed failure => simp only [RefineOutcome.prepend]
  | fault => simp only [RefineOutcome.prepend]

/-- What a pass makes of the blocks behind `before`. -/
theorem refineBlocks_carries (h : Storable metadata kept)
    (hfit : ∀ call ∈ kept, Fitting metadata call)
    (before after : List (BlockCall metadata.width.toNat)) (hkept : kept = before ++ after)
    (position : Nat) {previous oldMask : List UInt8} (hprevious : previous.length = valuesBuffer)
    (holdMask : oldMask.length = maskBuffer) :
    Carries after (refineBlocks answers metadata mode exactValue
      (readerAt metadata (storedBlocks 0 kept) (storedBlocks 0 before) position) previous oldMask
      after.length) := by
  induction after generalizing before position previous oldMask with
  | nil =>
    refine ⟨by simp [refineBlocks], by simp [refineBlocks], fun calls hdone => ?_⟩
    simp only [List.length_nil, refineBlocks, RefineOutcome.done.injEq] at hdone
    rw [← hdone]
    exact .nil
  | cons call after ih =>
    have hmem : call ∈ kept := by
      rw [hkept]
      exact List.mem_append_right _ List.mem_cons_self
    obtain ⟨block, hslots, hmask, position', hreads, hvalues, hmaskLength, hstep⟩ :=
      @refineBlocks_step metadata answers mode exactValue kept h call (hfit call hmem) before after
        hkept position previous oldMask hprevious holdMask
    have hbehind := ih (before ++ [call]) (by rw [hkept, List.append_assoc]; rfl) position' hvalues
      hmaskLength
    rw [List.length_cons, hstep]
    dsimp only
    split_ifs with hcancel hcurrent hread hwritten
    · exact carries_cancelled _
    · exact carries_failed _ (by decide)
    · exact carries_failed _ (by decide)
    · exact carries_failed _ (by decide)
    · cases hrest : refineBlocks answers metadata mode exactValue
          (readerAt metadata (storedBlocks 0 kept) (storedBlocks 0 (before ++ [call])) position')
          block.values block.mask after.length with
      | done calls =>
        rw [RefineOutcome.prepend]
        refine ⟨by simp, by simp, fun calls' hcalls' => ?_⟩
        rw [← RefineOutcome.done.inj hcalls']
        exact .cons (refinedCall_refines (hfit call hmem) hreads hslots hmask)
          (hbehind.done calls hrest)
      | cancelled => exact carries_cancelled _
      | failed failure =>
        exact carries_failed _ fun heq => hbehind.corrupt (by rw [hrest, heq])
      | fault => exact absurd hrest hbehind.fault

theorem fitting_of_refines {olds news : List (BlockCall metadata.width.toNat)}
    (h : List.Forall₂ Refines olds news) : ∀ call ∈ news, Fitting metadata call := by
  induction h with
  | nil => exact fun _ hcall => nomatch hcall
  | cons hblock _ ih =>
    intro call hcall
    rcases List.mem_cons.1 hcall with rfl | hrest
    · exact hblock.fitting
    · exact ih call hrest

/-! ### The growth of a file -/

/-- What a call adds to the file: nothing without a candidate. -/
def blockCost {width : Nat} (call : BlockCall width) : Nat :=
  if call.slots = [] then 0 else sizeofBlockHeader + sizeofIndexEntry + call.payloadSize

theorem length_image_calls (calls : List (BlockCall metadata.width.toNat)) :
    (imageBytes metadata (storedBlocks 0 calls)).length =
      sizeofHeader + (calls.map blockCost).sum := by
  have hblocks : ∀ cumulative, (blocksBytes (storedBlocks cumulative calls)).length +
      sizeofIndexEntry * (storedBlocks cumulative calls).length = (calls.map blockCost).sum := by
    induction calls with
    | nil => exact fun _ => rfl
    | cons call calls ih =>
      intro cumulative
      by_cases hnone : call.slots = []
      · rw [storedBlocks, if_pos hnone, List.map_cons, List.sum_cons, blockCost, if_pos hnone, ih,
          Nat.zero_add]
      · have hrest := ih (cumulative + call.slots.length)
        have hpayload : (call.stored cumulative).payload.length = call.payloadSize :=
          call.length_payload
        rw [storedBlocks, if_neg hnone, List.map_cons, List.sum_cons, blockCost, if_neg hnone,
          blocksBytes_cons, List.length_append, StoredBlock.length_bytes, hpayload,
          List.length_cons, ← hrest]
        ring
  rw [length_imageBytes, Nat.add_assoc, hblocks 0]

/-- The payload of the next generation: only a block of all slots can grow, by its mask. -/
theorem Refines.payloadSize_le {old new : BlockCall metadata.width.toNat} (h : Refines old new) :
    new.payloadSize ≤ old.payloadSize ∨
      old.payloadSize = old.slotCount.toNat * metadata.width.toNat ∧
        new.payloadSize ≤ old.payloadSize + (old.slotCount.toNat + 7) / 8 := by
  have hslots := h.slots
  have hcount := h.slotCount
  have hmask := BlockCall.maskBytes_le old.slotCount
  have holdLe := old.length_slots_le
  have hmul := Nat.mul_le_mul_right (4 + metadata.width.toNat) hslots
  unfold BlockCall.payloadSize chooseRepresentation
  rw [hcount]
  dsimp only
  split_ifs <;> dsimp only <;> omega

theorem Refines.blockCost_le {old new : BlockCall metadata.width.toNat} (h : Refines old new)
    (hwidth : 0 < metadata.width.toNat) : 8 * blockCost new ≤ 9 * blockCost old := by
  have hsizes : sizeofBlockHeader + sizeofIndexEntry = 72 := rfl
  have hvalues := Nat.le_mul_of_pos_right old.slotCount.toNat hwidth
  have hslots := h.slots
  unfold blockCost
  by_cases hnew : new.slots = []
  · rw [if_pos hnew]
    exact Nat.zero_le _
  · have hold : old.slots ≠ [] := by
      intro hnil
      rw [hnil, List.length_nil] at hslots
      exact hnew (List.length_eq_zero_iff.1 (Nat.le_zero.1 hslots))
    rw [if_neg hnew, if_neg hold, hsizes]
    rcases h.payloadSize_le with hle | ⟨hall, hle⟩
    · omega
    · omega

theorem sum_blockCost_le {olds news : List (BlockCall metadata.width.toNat)}
    (hwidth : 0 < metadata.width.toNat) (h : List.Forall₂ Refines olds news) :
    8 * (news.map blockCost).sum ≤ 9 * (olds.map blockCost).sum := by
  induction h with
  | nil => exact Nat.le_refl _
  | cons hblock _ ih =>
    have hcost := hblock.blockCost_le hwidth
    rw [List.map_cons, List.map_cons, List.sum_cons, List.sum_cons]
    omega

end Later

/-! ## The session -/

section Session

variable {r : BeginRequest} {generation : UInt64} {dir dir' : Directory SessionFile}

/-- The session is the file of blocks that fit. -/
structure SessionHolds (metadata : SearchStoreMetadata) (dir : Directory SessionFile)
    (kept : List (BlockCall metadata.width.toNat)) : Prop where
  storable : Storable metadata kept
  fitting : ∀ call ∈ kept, Fitting metadata call
  current : dir .current = some (imageBytes metadata (storedBlocks 0 kept))

theorem makeStoreMetadata_width (r : BeginRequest) (generation : UInt64) :
    (makeStoreMetadata r generation).width ≠ 0 ∧ (makeStoreMetadata r generation).width ≤ 8 := by
  have hnat : (makeStoreMetadata r generation).width.toNat = r.width := rfl
  constructor
  · intro hzero
    rw [hzero] at hnat
    rcases r.width_cases with h | h | h | h <;> rw [h] at hnat <;> cases hnat
  · rw [UInt32.le_iff_toNat_le, hnat]
    rcases r.width_cases with h | h | h | h <;> rw [h] <;> decide

/-- A commit installs the temporary file. -/
theorem searchStoreCommit_ok {io : CommitAnswers} {written : Directory SessionFile}
    {currentExists : Bool}
    (h : searchStoreCommit io written .temporary .current .backup currentExists = (true, dir')) :
    dir' .current = written .temporary := by
  unfold searchStoreCommit at h
  have hinstall : ∀ before after : Directory SessionFile,
      before.rename .temporary .current io.install = (true, after) →
        after .current = before .temporary := by
    intro before after hrename
    unfold Directory.rename at hrename
    split_ifs at hrename
    · obtain rfl := (Prod.mk.inj hrename).2
      rfl
    · cases (Prod.mk.inj hrename).1
  cases currentExists with
  | false =>
    simp only [Bool.false_eq_true, if_false] at h
    split at h
    · cases h
    · rename_i after hrename
      obtain rfl := (Prod.mk.inj h).2
      rw [hinstall _ _ hrename]
      rfl
  | true =>
    simp only [if_true] at h
    split at h
    · cases h
    · rename_i before hbackup
      split at h
      · cases h
      · rename_i after hrename
        obtain rfl := (Prod.mk.inj h).2
        have hcurrent : (Directory.remove after .backup) .current = after .current := rfl
        rw [hcurrent, hinstall _ _ hrename]
        unfold Directory.rename at hbackup
        split_ifs at hbackup
        · obtain rfl := (Prod.mk.inj hbackup).2
          rfl
        · cases (Prod.mk.inj hbackup).1

section Holds

variable {metadata : SearchStoreMetadata} {kept : List (BlockCall metadata.width.toNat)}

/-- A commit of blocks that fit leaves a session that holds. -/
theorem sessionHolds_of_commit {calls : List (BlockCall metadata.width.toNat)}
    {currentExists : Bool} (hwidth : metadata.width ≠ 0) (hwidth8 : metadata.width ≤ 8)
    (hfit : ∀ call ∈ calls, Fitting metadata call) (h : CommitsTo calls currentExists dir) :
    SessionHolds metadata dir (keptCalls calls) := by
  obtain ⟨written, io, hwritten, hcommit⟩ := h
  have hpos : 0 < metadata.width.toNat :=
    Nat.pos_of_ne_zero fun hzero => hwidth (UInt32.toNat_inj.1 hzero)
  refine ⟨storable_of_written hwidth hwidth8 (fun call hcall => (hfit call hcall).payload hpos)
    hwritten, fun call hcall => hfit call (List.mem_filter.1 hcall).1, ?_⟩
  rw [searchStoreCommit_ok hcommit, (storeWritten_image hwritten).1, storedBlocks_keptCalls]

theorem SessionHolds.opens (h : SessionHolds metadata dir kept) :
    searchStoreReaderOpen true dir .current =
      ok (readerAt metadata (storedBlocks 0 kept) []
        (imageBytes metadata (storedBlocks 0 kept)).length) :=
  searchStoreReaderOpen_image h.storable.width h.storable.width8 h.current h.storable.length

theorem SessionHolds.blockCount (h : SessionHolds metadata dir kept) (position : Nat) :
    (readerAt metadata (storedBlocks 0 kept) [] position).header.blockCount.toNat = kept.length :=
  storedHeader_blockCount h.storable

/-- A whole pass over the session. -/
theorem SessionHolds.carries (h : SessionHolds metadata dir kept) (answers : RefineAnswers)
    (mode : SearchCompareMode) (exactValue : UInt64) {previous oldMask : List UInt8}
    (hprevious : previous.length = valuesBuffer) (holdMask : oldMask.length = maskBuffer) :
    Carries kept
      (runRefine answers metadata mode exactValue dir .current previous oldMask) := by
  have hloop := @refineBlocks_carries metadata answers mode exactValue kept
    h.storable h.fitting [] kept rfl (imageBytes metadata (storedBlocks 0 kept)).length previous
    oldMask hprevious holdMask
  have hnone : storedBlocks 0 ([] : List (BlockCall metadata.width.toNat)) = [] := rfl
  have hmetadata : (readerAt metadata (storedBlocks 0 kept) []
      (imageBytes metadata (storedBlocks 0 kept)).length).header.metadata = metadata := rfl
  rw [← h.blockCount (imageBytes metadata (storedBlocks 0 kept)).length, hnone] at hloop
  unfold runRefine
  rw [h.opens]
  simp only [hmetadata, ne_eq, not_true_eq_false, if_false]
  split_ifs with hopen hpinned hpause
  · exact (carries_failed kept (by decide)).conclude
  · exact (carries_failed kept (by decide)).conclude
  · exact (carries_failed kept (by decide)).conclude
  · cases hrest : refineBlocks answers metadata mode exactValue
        (readerAt metadata (storedBlocks 0 kept) []
          (imageBytes metadata (storedBlocks 0 kept)).length) previous oldMask
        (readerAt metadata (storedBlocks 0 kept) []
          (imageBytes metadata (storedBlocks 0 kept)).length).header.blockCount.toNat with
    | fault => exact absurd hrest hloop.fault
    | done calls => exact Carries.conclude (hrest ▸ hloop)
    | cancelled => exact Carries.conclude (hrest ▸ hloop)
    | failed failure => exact Carries.conclude (hrest ▸ hloop)
  · cases hrest : refineBlocks answers metadata mode exactValue
        (readerAt metadata (storedBlocks 0 kept) []
          (imageBytes metadata (storedBlocks 0 kept)).length) previous oldMask
        (readerAt metadata (storedBlocks 0 kept) []
          (imageBytes metadata (storedBlocks 0 kept)).length).header.blockCount.toNat with
    | fault => exact absurd hrest hloop.fault
    | done calls => exact (carries_failed kept (by decide)).conclude
    | cancelled => exact (carries_failed kept (by decide)).conclude
    | failed failure => exact (carries_failed kept (by decide)).conclude

/-- The file of the next generation is within what is asked for beforehand. -/
theorem SessionHolds.grows {next : List (BlockCall metadata.width.toNat)}
    (h : SessionHolds metadata dir kept) (hrefines : List.Forall₂ Refines kept next) :
    sizeofHeader + (next.map blockCost).sum ≤
      (imageBytes metadata (storedBlocks 0 kept)).length +
        (imageBytes metadata (storedBlocks 0 kept)).length / 8 := by
  have hsum := sum_blockCost_le h.storable.width_pos hrefines
  rw [length_image_calls]
  omega

/-- `left` more blocks, each of which the reader accepts with the buffers of a refinement, whatever
    they hold, and then none; each is within the limits of a payload, of the buffers and of what a
    pass reads at once. -/
def BlocksAccepted (metadata : SearchStoreMetadata) : Nat → SearchStoreReader → Prop
  | 0, reader => reader.nextBlock = reader.header.blockCount
  | left + 1, reader => ∀ values mask, values.length = valuesBuffer → mask.length = maskBuffer →
    ∃ block reader', searchStoreReaderNext true reader values mask = ok (block, reader') ∧
      block.header.payloadSize.toNat ≤ StoreMaximumPayload ∧
      block.header.slotCount.toNat * metadata.width.toNat ≤ valuesBuffer ∧
      (block.header.slotCount.toNat + 7) / 8 ≤ maskBuffer ∧
      blockSpan metadata block.header.slotCount ≤ valuesBuffer ∧
      BlocksAccepted metadata left reader'

theorem SessionHolds.accepted (h : SessionHolds metadata dir kept)
    (before after : List (BlockCall metadata.width.toNat)) (hkept : kept = before ++ after)
    (position : Nat) :
    BlocksAccepted metadata after.length
      (readerAt metadata (storedBlocks 0 kept) (storedBlocks 0 before) position) := by
  induction after generalizing before position with
  | nil =>
    rw [List.append_nil] at hkept
    rw [hkept]
    rfl
  | cons call after ih =>
    have hmem : call ∈ kept := by
      rw [hkept]
      exact List.mem_append_right _ List.mem_cons_self
    have hcall := h.fitting call hmem
    have hslotsLe := hcall.slots_le h.storable.width_pos
    have hvaluesFit := hcall.values
    have hsize := h.storable.size call hmem
    have hslots := h.storable.slots call hmem
    have hmax : StoreMaximumPayload < 2 ^ 32 := by decide
    have hchunk : UNKNOWN_CHUNK_SIZE = 0x40000 := rfl
    have hvaluesBuffer : valuesBuffer = UNKNOWN_CHUNK_SIZE + 8 := rfl
    have hmaskBuffer : maskBuffer = UNKNOWN_CHUNK_SIZE / 8 + 8 := rfl
    intro values mask hvalues hmask
    obtain ⟨values', mask', position', hnext, -, -⟩ :=
      searchStoreReaderNext_image h.storable.width h.storable.width8 h.storable.length
        (storedBlocks_split hkept hslots) hsize hslots position
        (show call.slotCount.toNat * metadata.width.toNat ≤ values.length by omega)
        (show (call.slotCount.toNat + 7) / 8 ≤ mask.length by omega)
    have hslotCount : (call.stored (candidates before)).header.slotCount = call.slotCount := by
      rw [BlockCall.stored_header]
    have hrest := ih (before ++ [call]) (by rw [hkept, List.append_assoc]; rfl) position'
    rw [storedBlocks_snoc hslots] at hrest
    refine ⟨_, _, hnext, ?_, ?_, ?_, ?_, hrest⟩
    · rw [BlockCall.stored_payloadSize (lt_of_le_of_lt hsize hmax)]
      exact hsize
    · simp only [hslotCount]
      omega
    · simp only [hslotCount]
      omega
    · simp only [hslotCount]
      exact hcall.blockSpan_le

end Holds

/-! ### All generations -/

/-- What `unknownSearchRefine` asks for before a pass over a session of this size. -/
def refineEstimate (size : UInt64) : UInt64 :=
  size + (size >>> 3) + 0x100000

theorem refineEstimate_toNat {size : Nat} (h : size ≤ Stdio.LONG_MAX) :
    (refineEstimate (UInt64.ofNat size)).toNat = size + size / 8 + 0x100000 := by
  have hmax : Stdio.LONG_MAX = 2 ^ 63 - 1 := rfl
  have hthree : (3 : UInt64).toNat % 64 = 3 := rfl
  have hreserve : (0x100000 : UInt64).toNat = 0x100000 := rfl
  have heighth : (UInt64.ofNat size >>> 3).toNat = size / 8 := by
    rw [UInt64.toNat_shiftRight, toNat_ofNat_offset h, hthree, Nat.shiftRight_eq_div_pow]
  have hsum : (UInt64.ofNat size + (UInt64.ofNat size >>> 3)).toNat = size + size / 8 := by
    rw [UInt64.toNat_add, toNat_ofNat_offset h, heighth]
    exact Nat.mod_eq_of_lt (by omega)
  unfold refineEstimate
  rw [UInt64.toNat_add, hsum, hreserve]
  exact Nat.mod_eq_of_lt (by omega)

/-- The size of the session. -/
def sessionSize (dir : Directory SessionFile) : Nat :=
  ((dir .current).getD []).length

theorem sessionSize_of_holds {metadata : SearchStoreMetadata}
    {kept : List (BlockCall metadata.width.toNat)} (h : SessionHolds metadata dir kept) :
    sessionSize dir = (imageBytes metadata (storedBlocks 0 kept)).length := by
  rw [sessionSize, h.current, Option.getD_some]

theorem sum_blockCost_keptCalls {width : Nat} (calls : List (BlockCall width)) :
    ((keptCalls calls).map blockCost).sum = (calls.map blockCost).sum := by
  induction calls with
  | nil => rfl
  | cons call calls ih =>
    by_cases hnone : call.slots = []
    · have hskip : keptCalls (call :: calls) = keptCalls calls :=
        List.filter_cons_of_neg (by simp [hnone])
      rw [hskip, ih, List.map_cons, List.sum_cons, blockCost, if_pos hnone, Nat.zero_add]
    · have hkeep : keptCalls (call :: calls) = call :: keptCalls calls :=
        List.filter_cons_of_pos (by simp [hnone])
      rw [hkeep, List.map_cons, List.map_cons, List.sum_cons, List.sum_cons, ih]

/-- What a pass hands on fits the next generation. -/
theorem SessionHolds.fitting_done
    {kept : List (BlockCall (makeStoreMetadata r generation).width.toNat)}
    (h : SessionHolds (makeStoreMetadata r generation) dir kept) {answers : RefineAnswers}
    {mode : SearchCompareMode} {exactValue : UInt64} {previous oldMask : List UInt8}
    {calls : List (BlockCall (makeStoreMetadata r generation).width.toNat)}
    (hprevious : previous.length = valuesBuffer) (holdMask : oldMask.length = maskBuffer)
    (hrun : runRefine answers (makeStoreMetadata r generation) mode exactValue dir .current previous
      oldMask = .done calls) :
    ∀ call ∈ calls, Fitting (makeStoreMetadata r (generation + 1)) call := by
  intro call hcall
  have hrefines := (h.carries answers mode exactValue hprevious holdMask).done calls hrun
  have hfit := fitting_of_refines hrefines call hcall
  exact ⟨hfit.values, hfit.span, hfit.clean⟩

/-- A pass that commits leaves a session that holds, and that has not outgrown the estimate. -/
theorem refineStep_holds {kept : List (BlockCall (makeStoreMetadata r generation).width.toNat)}
    (h : SessionHolds (makeStoreMetadata r generation) dir kept)
    (hstep : RefineStep r generation dir dir') :
    (∃ kept', SessionHolds (makeStoreMetadata r (generation + 1)) dir' kept') ∧
      sessionSize dir' ≤ (refineEstimate (UInt64.ofNat (sessionSize dir))).toNat := by
  obtain ⟨answers, mode, exactValue, previous, oldMask, calls, hprevious, holdMask, hrun,
    hcommit⟩ := hstep
  have hrefines := (h.carries answers mode exactValue hprevious holdMask).done calls hrun
  obtain ⟨hwidth, hwidth8⟩ := makeStoreMetadata_width r (generation + 1)
  have hnext := sessionHolds_of_commit hwidth hwidth8 (h.fitting_done hprevious holdMask hrun)
    hcommit
  refine ⟨⟨_, hnext⟩, ?_⟩
  have hsize := @length_image_calls (makeStoreMetadata r (generation + 1)) (keptCalls calls)
  have hkept := sum_blockCost_keptCalls calls
  have hgrows := h.grows hrefines
  rw [sessionSize_of_holds h, refineEstimate_toNat h.storable.length, sessionSize_of_holds hnext,
    hsize]
  exact Nat.le_trans (Nat.le_of_eq (congrArg (sizeofHeader + ·) hkept))
    (Nat.le_trans hgrows (Nat.le_add_right _ _))

/-- The invariant of a session, from the first pass through any number of later ones. -/
theorem Committed.holds (h : Committed r generation dir) :
    ∃ kept, SessionHolds (makeStoreMetadata r generation) dir kept := by
  induction h with
  | begin hrun hcommit =>
    obtain ⟨hwidth, hwidth8⟩ := makeStoreMetadata_width r 0
    have hfitting := runBegin_fitting hrun
    exact ⟨_, sessionHolds_of_commit hwidth hwidth8
      (fun call hcall => ⟨(hfitting call hcall).values, (hfitting call hcall).span,
        (hfitting call hcall).clean⟩) hcommit⟩
  | refine _ hstep ih =>
    obtain ⟨kept, hholds⟩ := ih
    exact (refineStep_holds hholds hstep).1

/-- The reader accepts every block of the session with the buffers of a refinement, no pass over it
    finds it corrupt or leaves a buffer, and the next generation is within the estimate. -/
structure RefinementSafe (r : BeginRequest) (generation : UInt64) (dir : Directory SessionFile) :
    Prop where
  accepted : ∃ reader, searchStoreReaderOpen true dir .current = ok reader ∧
    BlocksAccepted (makeStoreMetadata r generation) reader.header.blockCount.toNat reader
  uncorrupted : ∀ answers mode exactValue previous oldMask, previous.length = valuesBuffer →
    oldMask.length = maskBuffer →
      runRefine answers (makeStoreMetadata r generation) mode exactValue dir .current previous
          oldMask ≠ .failed .corruptSession ∧
        runRefine answers (makeStoreMetadata r generation) mode exactValue dir .current previous
          oldMask ≠ .fault
  bounded : ∀ dir', RefineStep r generation dir dir' →
    sessionSize dir' ≤ (refineEstimate (UInt64.ofNat (sessionSize dir))).toNat

end Session

/-- Every generation of a session is readable, and within what was asked for before it. -/
theorem refinement_safe (r : BeginRequest) (generation : UInt64) (dir : Directory SessionFile)
    (h : Committed r generation dir) : RefinementSafe r generation dir := by
  obtain ⟨kept, hholds⟩ := h.holds
  refine ⟨⟨_, hholds.opens, ?_⟩, fun answers mode exactValue previous oldMask hprevious holdMask =>
    ?_, fun dir' hstep => (refineStep_holds hholds hstep).2⟩
  · rw [hholds.blockCount]
    exact hholds.accepted [] kept rfl _
  · have hcarries := hholds.carries answers mode exactValue hprevious holdMask
    exact ⟨hcarries.corrupt, hcarries.fault⟩

/-- A commit on a device that fails no call. -/
def writeSession (metadata : SearchStoreMetadata) (calls : List (BlockCall metadata.width.toNat))
    (dir : Directory SessionFile) (currentExists : Bool) : Option (Directory SessionFile) :=
  let accepted := StoreMaximumPayload
  match searchStoreWriterOpen ⟨true, accepted⟩ dir SessionFile.temporary metadata with
  | (false, _, _) => none
  | (true, dir, writer) =>
    match addBlocks writer (calls.map fun call => (⟨true, accepted, accepted⟩, call)) with
    | none => none
    | some writer =>
      match searchStoreWriterFinish
          ⟨fun _ => ⟨true, true, true, accepted⟩, true, accepted, true, true, true⟩ dir writer with
      | (false, _, _) => none
      | (true, dir, _) =>
        match searchStoreCommit ⟨true, true, true⟩ dir .temporary .current .backup
            currentExists with
        | (true, dir) => some dir
        | (false, _) => none

theorem commitsTo_of_writeSession {metadata : SearchStoreMetadata}
    {calls : List (BlockCall metadata.width.toNat)} {dir dir' : Directory SessionFile}
    {currentExists : Bool} (h : writeSession metadata calls dir currentExists = some dir') :
    CommitsTo calls currentExists dir' := by
  unfold writeSession at h
  dsimp only at h
  split at h
  · cases h
  · rename_i dir₁ opened hopen
    split at h
    · cases h
    · rename_i added hadd
      split at h
      · cases h
      · rename_i dir₂ finished hfinish
        split at h
        · rename_i dir₃ hcommit
          obtain rfl := Option.some.inj h
          refine ⟨dir₂, ⟨true, true, true⟩, ⟨_, _, _, _, _, _, _, _, hopen, ?_, hadd, hfinish⟩,
            hcommit⟩
          rw [List.map_map]
          exact List.map_id _
        · cases h

/-- The session of the three pages. -/
theorem refinement_safe_threePages : ∃ dir, Committed threePages 0 dir ∧
    RefinementSafe threePages 0 dir := by
  have hsome : ((runBegin (quietAnswers oneMapping) threePages fun _ => 0).bind fun calls =>
      @writeSession (makeStoreMetadata threePages 0) calls (fun _ => none) false).isSome = true := by
    decide +kernel
  obtain ⟨dir, hdir⟩ := Option.isSome_iff_exists.1 hsome
  obtain ⟨calls, hrun, hwritten⟩ := Option.bind_eq_some_iff.1 hdir
  have hcommitted : Committed threePages 0 dir := .begin hrun (commitsTo_of_writeSession hwritten)
  exact ⟨dir, hcommitted, refinement_safe threePages 0 dir hcommitted⟩

end SysAgent
