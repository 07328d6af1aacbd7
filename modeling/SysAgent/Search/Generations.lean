import Mathlib
import SysAgent.Search.Content

set_option autoImplicit false

/-! # What the later passes keep (`unknown_search.c`, `search_compare.c`)

A refinement reads the session block by block, compares each candidate with the memory and writes
what is left with the values that are there now. On the content of a session it is a filter and a
map, whatever the representations of the blocks are: `survivors` says so for any number of
passes. -/

namespace SysAgent

open StoreResult

/-! ## The meaning of a pass -/

/-- The comparisons, of unsigned numbers. -/
def comparisonHolds (mode : SearchCompareMode) (exactValue old new : Nat) : Bool :=
  match mode with
  | .exact => decide (new = exactValue)
  | .changed => decide (new ≠ old)
  | .unchanged => decide (new = old)
  | .increased => decide (old < new)
  | .decreased => decide (new < old)

/-- A refinement against a memory that does not change during it. -/
structure RefineOperation where
  mode : SearchCompareMode
  exactValue : UInt64
  memory : Nat → UInt8

def RefineOperation.keeps (operation : RefineOperation) (width a : Nat) (old : List UInt8) : Bool :=
  comparisonHolds operation.mode operation.exactValue.toNat (Codec.leNat width old)
    (Codec.leNat width (valueAt operation.memory width a))

/-- Each pass compares what the one before it has recorded. -/
def survives (width a : Nat) : List UInt8 → List RefineOperation → Bool
  | _, [] => true
  | old, operation :: operations =>
    operation.keeps width a old && survives width a (valueAt operation.memory width a) operations

/-- The value that the last pass records. -/
def lastValue (width a : Nat) : List UInt8 → List RefineOperation → List UInt8
  | old, [] => old
  | _, operation :: operations => lastValue width a (valueAt operation.memory width a) operations

def survivors (width : Nat) (operations : List RefineOperation)
    (content : List (Nat × List UInt8)) : List (Nat × List UInt8) :=
  (content.filter fun entry => survives width entry.1 entry.2 operations).map fun entry =>
    (entry.1, lastValue width entry.1 entry.2 operations)

theorem survivors_nil (width : Nat) (content : List (Nat × List UInt8)) :
    survivors width [] content = content := by
  simp [survivors, survives, lastValue]

theorem survivors_append (width : Nat) (operations : List RefineOperation)
    (content more : List (Nat × List UInt8)) :
    survivors width operations (content ++ more) =
      survivors width operations content ++ survivors width operations more := by
  rw [survivors, List.filter_append, List.map_append]
  rfl

/-- One pass and then the others. -/
theorem survivors_cons (width : Nat) (operation : RefineOperation)
    (operations : List RefineOperation) (content : List (Nat × List UInt8)) :
    survivors width (operation :: operations) content =
      survivors width operations (survivors width [operation] content) := by
  induction content with
  | nil => rfl
  | cons entry content ih =>
    have hsplit : entry :: content = [entry] ++ content := rfl
    rw [hsplit, survivors_append, survivors_append, survivors_append, ih]
    refine congrArg (· ++ _) ?_
    cases hkeeps : operation.keeps width entry.1 entry.2 with
    | false => simp [survivors, survives, hkeeps]
    | true =>
      cases hsurvives : survives width entry.1 (valueAt operation.memory width entry.1) operations
      with
      | false => simp [survivors, survives, lastValue, hkeeps, hsurvives]
      | true => simp [survivors, survives, lastValue, hkeeps, hsurvives]

theorem searchCompareUnsigned_eq (mode : SearchCompareMode) (old new : List UInt8) {width : Nat}
    (exactValue : UInt64) (h : width ≤ 8) :
    searchCompareUnsigned mode old new width exactValue =
      comparisonHolds mode exactValue.toNat (Codec.leNat width old) (Codec.leNat width new) := by
  rw [← searchDecodeUnsigned_eq old h, ← searchDecodeUnsigned_eq new h, Bool.eq_iff_iff]
  cases mode with
  | exact => simp [searchCompareUnsigned, comparisonHolds, UInt64.toNat_inj]
  | changed => simp [searchCompareUnsigned, comparisonHolds, UInt64.toNat_inj]
  | unchanged => simp [searchCompareUnsigned, comparisonHolds, UInt64.toNat_inj]
  | increased => simp [searchCompareUnsigned, comparisonHolds, UInt64.lt_iff_toNat_lt]
  | decreased => simp [searchCompareUnsigned, comparisonHolds, UInt64.lt_iff_toNat_lt]

/-! ## A block -/

section Block

variable {metadata : SearchStoreMetadata} {block : DecodedBlock}
  {old : BlockCall metadata.width.toNat} {cumulative : Nat}

/-- The slots of the next generation are those that match. -/
theorem slots_refinedCall {mode : SearchCompareMode} {exactValue : UInt64} {memory : Nat → UInt8}
    (hfit : Fitting metadata old) (hreads : ReadsAs old cumulative block)
    (hslots : block.header.slotCount ≠ 0)
    (hmask : block.header.slotCount.toNat ≤ 8 * maskBytes block.header.slotCount) :
    (refinedCall metadata mode exactValue memory block hslots hmask).slots =
      old.slots.filter fun slot => searchCompareUnsigned mode
        (slotValue block.values metadata.width.toNat slot)
        (slotValue (refinedCall metadata mode exactValue memory block hslots hmask).values
          metadata.width.toNat slot) metadata.width.toNat exactValue := by
  refine (BlockCall.slots_sorted _).eq_of_mem_iff ((BlockCall.slots_sorted old).filter _)
    fun slot => ?_
  have hcount : (refinedCall metadata mode exactValue memory block hslots hmask).slotCount =
      block.header.slotCount := rfl
  have hsize : maskBytes block.header.slotCount = (block.header.slotCount.toNat + 7) / 8 := by
    rw [BlockCall.maskBytes_eq, hreads.slotCount, Nat.mod_eq_of_lt hfit.clean.noWrap]
  have hbit : ∀ i < block.header.slotCount.toNat, ByteMask.test block.mask i = true ↔
      i ∈ old.slots := by
    intro i hi
    rw [hreads.slotCount] at hi
    rw [hreads.mask i (by unfold BlockCall.neededMask; omega), decide_eq_true_iff]
  have hfilter : ∀ i, ByteMask.test (searchFilterUnsigned mode block.values
      (refinedCall metadata mode exactValue memory block hslots hmask).values block.mask
      block.header.slotCount metadata.width.toNat exactValue) i = true ↔
        i < block.header.slotCount.toNat ∧ i ∈ old.slots ∧ searchCompareUnsigned mode
          (slotValue block.values metadata.width.toNat i)
          (slotValue (refinedCall metadata mode exactValue memory block hslots hmask).values
            metadata.width.toNat i) metadata.width.toNat exactValue = true := by
    intro i
    unfold searchFilterUnsigned
    rw [ByteMask.test_foldl_set, ByteMask.test_replicate_zero, Bool.false_or, decide_eq_true_iff,
      List.mem_filter, List.mem_range, Bool.and_eq_true, bitIsSet_eq]
    · constructor
      · rintro ⟨hi, htest, hcompare⟩
        exact ⟨hi, (hbit i hi).1 htest, hcompare⟩
      · rintro ⟨hi, hmem, hcompare⟩
        exact ⟨hi, (hbit i hi).2 hmem, hcompare⟩
    · intro j hj
      have hlt := List.mem_range.1 (List.mem_filter.1 hj).1
      rw [List.length_replicate, hsize]
      omega
  rw [BlockCall.mem_slots, List.mem_filter, hcount]
  constructor
  · rintro ⟨-, htest⟩
    exact ((hfilter slot).1 (htest _ rfl)).2
  · rintro ⟨hmem, hcompare⟩
    have hlt := (BlockCall.mem_slots.1 hmem).1
    rw [← hreads.slotCount] at hlt
    refine ⟨hlt, fun m hm => ?_⟩
    obtain rfl := Option.some.inj hm
    exact (hfilter slot).2 ⟨hlt, hmem, hcompare⟩

/-- The values of the next generation are those of the memory. -/
theorem slotValue_refinedCall {mode : SearchCompareMode} {exactValue : UInt64}
    {memory : Nat → UInt8} (hwidth : 0 < metadata.width.toNat)
    (hslots : block.header.slotCount ≠ 0)
    (hmask : block.header.slotCount.toNat ≤ 8 * maskBytes block.header.slotCount) {slot : Nat}
    (hslot : slot < block.header.slotCount.toNat) :
    slotValue (refinedCall metadata mode exactValue memory block hslots hmask).values
        metadata.width.toNat slot =
      valueAt memory metadata.width.toNat
        (block.header.base.toNat + slot * metadata.alignment.toNat) := by
  have hvalues : (refinedCall metadata mode exactValue memory block hslots hmask).values =
      (List.range (block.header.slotCount.toNat * metadata.width.toNat)).map fun i =>
        memory (block.header.base.toNat + i / metadata.width.toNat * metadata.alignment.toNat +
          i % metadata.width.toNat) := rfl
  rw [hvalues, slotValue_range _ hslot]
  refine List.map_congr_left fun j hj => ?_
  have hj := List.mem_range.1 hj
  have hdiv : (slot * metadata.width.toNat + j) / metadata.width.toNat = slot := by
    rw [Nat.mul_comm, Nat.mul_add_div hwidth, Nat.div_eq_of_lt hj, Nat.add_zero]
  have hmod : (slot * metadata.width.toNat + j) % metadata.width.toNat = j := by
    rw [Nat.mul_comm, Nat.mul_add_mod, Nat.mod_eq_of_lt hj]
  rw [hdiv, hmod]

theorem contentOf_refinedCall {operation : RefineOperation} (hwidth : 0 < metadata.width.toNat)
    (hwidth8 : metadata.width.toNat ≤ 8) (hfit : Fitting metadata old)
    (hreads : ReadsAs old cumulative block) (hslots : block.header.slotCount ≠ 0)
    (hmask : block.header.slotCount.toNat ≤ 8 * maskBytes block.header.slotCount) :
    contentOf metadata.alignment.toNat [refinedCall metadata operation.mode operation.exactValue
        operation.memory block hslots hmask] =
      survivors metadata.width.toNat [operation] (contentOf metadata.alignment.toNat [old]) := by
  have hbase : (refinedCall metadata operation.mode operation.exactValue operation.memory block
      hslots hmask).base = old.base := hreads.base
  have hcurrent : ∀ slot ∈ old.slots, slotValue (refinedCall metadata operation.mode
      operation.exactValue operation.memory block hslots hmask).values metadata.width.toNat slot =
        valueAt operation.memory metadata.width.toNat
          (old.base.toNat + slot * metadata.alignment.toNat) := by
    intro slot hslot
    have hlt := (BlockCall.mem_slots.1 hslot).1
    rw [← hreads.slotCount] at hlt
    rw [slotValue_refinedCall hwidth hslots hmask hlt, hreads.base]
  unfold contentOf survivors
  rw [List.flatMap_singleton, List.flatMap_singleton, List.filter_map, List.map_map,
    slots_refinedCall hfit hreads hslots hmask, hbase]
  have hsame : (old.slots.filter fun slot => searchCompareUnsigned operation.mode
      (slotValue block.values metadata.width.toNat slot)
      (slotValue (refinedCall metadata operation.mode operation.exactValue operation.memory block
        hslots hmask).values metadata.width.toNat slot) metadata.width.toNat operation.exactValue) =
      old.slots.filter ((fun entry : Nat × List UInt8 =>
        survives metadata.width.toNat entry.1 entry.2 [operation]) ∘ fun slot =>
          (old.base.toNat + slot * metadata.alignment.toNat,
            slotValue old.values metadata.width.toNat slot)) := by
    refine List.filter_congr fun slot hslot => ?_
    rw [searchCompareUnsigned_eq _ _ _ _ hwidth8, hreads.values slot hslot, hcurrent slot hslot]
    simp [survives, RefineOperation.keeps]
  rw [hsame]
  refine List.map_congr_left fun slot hslot => ?_
  rw [hcurrent slot (List.mem_filter.1 hslot).1]
  rfl

end Block

/-! ## A pass -/

section Pass

variable {metadata : SearchStoreMetadata} {kept : List (BlockCall metadata.width.toNat)}
  {answers : RefineAnswers} {operation : RefineOperation}

theorem refineBlocks_content (h : Storable metadata kept)
    (hfit : ∀ call ∈ kept, Fitting metadata call)
    (hmemory : ∀ number, answers.memory number = operation.memory)
    (before after : List (BlockCall metadata.width.toNat)) (hkept : kept = before ++ after)
    (position : Nat) {previous oldMask : List UInt8} (hprevious : previous.length = valuesBuffer)
    (holdMask : oldMask.length = maskBuffer) {calls : List (BlockCall metadata.width.toNat)}
    (hdone : refineBlocks answers metadata operation.mode operation.exactValue
      (readerAt metadata (storedBlocks 0 kept) (storedBlocks 0 before) position) previous oldMask
      after.length = .done calls) :
    contentOf metadata.alignment.toNat calls = survivors metadata.width.toNat [operation]
      (contentOf metadata.alignment.toNat after) := by
  have hwidth8 : metadata.width.toNat ≤ 8 := UInt32.le_iff_toNat_le.1 h.width8
  -- on the blocks that are left; the reader stands behind those of `before`
  induction after generalizing before position previous oldMask calls with
  | nil =>
    simp only [List.length_nil, refineBlocks, RefineOutcome.done.injEq] at hdone
    rw [← hdone]
    rfl
  | cons call after ih =>
    have hcall := hfit call (by rw [hkept]; simp)
    obtain ⟨block, hslots, hmask, position', hreads, hvalues, hmaskLength, hstep⟩ :=
      @refineBlocks_step metadata answers operation.mode operation.exactValue kept h call hcall
        before after hkept position previous oldMask hprevious holdMask
    rw [List.length_cons, hstep] at hdone
    dsimp only at hdone
    split_ifs at hdone with hcancel hcurrent hread hwritten
    cases hrest : refineBlocks answers metadata operation.mode operation.exactValue
        (readerAt metadata (storedBlocks 0 kept) (storedBlocks 0 (before ++ [call])) position')
        block.values block.mask after.length with
    | done rest =>
      rw [hrest, RefineOutcome.prepend, hmemory] at hdone
      rw [← RefineOutcome.done.inj hdone, ← List.singleton_append, contentOf_append,
        ← List.singleton_append (l := after), contentOf_append, survivors_append,
        contentOf_refinedCall h.width_pos hwidth8 hcall hreads hslots hmask,
        ih (before ++ [call]) (by rw [hkept, List.append_assoc]; rfl) position' hvalues hmaskLength
          hrest]
    | cancelled =>
      rw [hrest] at hdone
      cases hdone
    | failed failure =>
      rw [hrest] at hdone
      cases hdone
    | fault =>
      rw [hrest] at hdone
      cases hdone

theorem concludeRefine_done {width : Nat} {outcome : RefineOutcome width}
    {calls : List (BlockCall width)} (h : concludeRefine answers outcome = .done calls) :
    outcome = .done calls := by
  cases outcome with
  | fault => cases h
  | done other =>
    rw [concludeRefine] at h
    · split_ifs at h
      exact h
    · simp
  | cancelled =>
    rw [concludeRefine] at h
    · split_ifs at h
    · simp
  | failed failure =>
    rw [concludeRefine] at h
    · split_ifs at h
    · simp

/-- Only a pass over all blocks ends as done. -/
theorem runRefine_done {Path : Type} {dir : Directory Path} {path : Path}
    {reader : SearchStoreReader} {mode : SearchCompareMode} {exactValue : UInt64}
    {previous oldMask : List UInt8} {calls : List (BlockCall metadata.width.toNat)}
    (hopen : searchStoreReaderOpen true dir path = ok reader)
    (hrun : runRefine answers metadata mode exactValue dir path previous oldMask = .done calls) :
    refineBlocks answers metadata mode exactValue reader previous oldMask
      reader.header.blockCount.toNat = .done calls := by
  unfold runRefine at hrun
  rw [hopen] at hrun
  dsimp only at hrun
  -- the session, the buffers and the pause are checked before the first block
  split at hrun
  · cases concludeRefine_done hrun
  split at hrun
  · cases concludeRefine_done hrun
  split at hrun
  · cases concludeRefine_done hrun
  split at hrun
  · cases concludeRefine_done hrun
  split at hrun
  · cases hrun
  · have hpass := concludeRefine_done hrun
    split_ifs at hpass
    exact hpass

/-- A pass that ends as done hands on what survives. -/
theorem SessionHolds.refined {dir : Directory SessionFile} (h : SessionHolds metadata dir kept)
    (hmemory : ∀ number, answers.memory number = operation.memory) {previous oldMask : List UInt8}
    (hprevious : previous.length = valuesBuffer) (holdMask : oldMask.length = maskBuffer)
    {calls : List (BlockCall metadata.width.toNat)}
    (hrun : runRefine answers metadata operation.mode operation.exactValue dir .current previous
      oldMask = .done calls) :
    contentOf metadata.alignment.toNat calls = survivors metadata.width.toNat [operation]
      (contentOf metadata.alignment.toNat kept) := by
  have hpass := runRefine_done h.opens hrun
  rw [h.blockCount] at hpass
  exact refineBlocks_content h.storable h.fitting hmemory [] kept rfl
    (imageBytes metadata (storedBlocks 0 kept)).length hprevious holdMask hpass

end Pass

/-! ## Any number of passes -/

/-- A pass of this operation ends as done, and is committed. -/
def RefinesBy (r : BeginRequest) (generation : UInt64) (operation : RefineOperation)
    (dir dir' : Directory SessionFile) : Prop :=
  ∃ (answers : RefineAnswers) (previous oldMask : List UInt8)
    (calls : List (BlockCall (makeStoreMetadata r generation).width.toNat)),
    previous.length = valuesBuffer ∧ oldMask.length = maskBuffer ∧
      (∀ number, answers.memory number = operation.memory) ∧
      runRefine answers (makeStoreMetadata r generation) operation.mode operation.exactValue dir
        .current previous oldMask = .done calls ∧
      @CommitsTo (makeStoreMetadata r (generation + 1)) calls true dir'

/-- The directories that passes of these operations, one after the other, lead to. -/
inductive Refined (r : BeginRequest) :
    UInt64 → Directory SessionFile → List RefineOperation → Directory SessionFile → Prop
  | none {generation : UInt64} {dir : Directory SessionFile} : Refined r generation dir [] dir
  | pass {generation : UInt64} {operation : RefineOperation}
      {operations : List RefineOperation} {dir next dir' : Directory SessionFile} :
    RefinesBy r generation operation dir next → Refined r (generation + 1) next operations dir' →
      Refined r generation dir (operation :: operations) dir'

section Session

variable {r : BeginRequest} {generation : UInt64} {dir dir' : Directory SessionFile}

theorem refinesBy_holds {operation : RefineOperation}
    {kept : List (BlockCall (makeStoreMetadata r generation).width.toNat)}
    (h : SessionHolds (makeStoreMetadata r generation) dir kept)
    (hpass : RefinesBy r generation operation dir dir') :
    ∃ kept', SessionHolds (makeStoreMetadata r (generation + 1)) dir' kept' ∧
      contentOf r.alignment kept' =
        survivors r.width [operation] (contentOf r.alignment kept) := by
  obtain ⟨answers, previous, oldMask, calls, hprevious, holdMask, hmemory, hrun, hcommit⟩ := hpass
  obtain ⟨hwidth, hwidth8⟩ := makeStoreMetadata_width r (generation + 1)
  refine ⟨_, sessionHolds_of_commit hwidth hwidth8 (h.fitting_done hprevious holdMask hrun) hcommit,
    ?_⟩
  exact (contentOf_keptCalls r.alignment calls).trans (h.refined hmemory hprevious holdMask hrun)

theorem refined_holds {operations : List RefineOperation}
    (hpasses : Refined r generation dir operations dir') :
    ∀ kept : List (BlockCall (makeStoreMetadata r generation).width.toNat),
      SessionHolds (makeStoreMetadata r generation) dir kept →
        ∃ kept', SessionHolds (makeStoreMetadata r (generation + UInt64.ofNat operations.length))
            dir' kept' ∧
          contentOf r.alignment kept' =
            survivors r.width operations (contentOf r.alignment kept) := by
  induction hpasses with
  | none =>
    intro kept hholds
    refine ⟨kept, ?_, (survivors_nil _ _).symm⟩
    rwa [List.length_nil, show (UInt64.ofNat 0) = 0 from rfl, UInt64.add_zero]
  | @pass generation operation operations dir next dir' hpass _ ih =>
    intro kept hholds
    obtain ⟨middle, hmiddle, hcontent⟩ := refinesBy_holds hholds hpass
    obtain ⟨last, hlast, hlastContent⟩ := ih middle hmiddle
    have hgeneration : generation + 1 + UInt64.ofNat operations.length =
        generation + UInt64.ofNat (operation :: operations).length := by
      rw [List.length_cons, UInt64.ofNat_add, UInt64.add_comm (UInt64.ofNat operations.length),
        UInt64.add_assoc]
      rfl
    rw [hgeneration] at hlast
    refine ⟨last, hlast, ?_⟩
    rw [survivors_cons, ← hcontent]
    exact hlastContent

theorem SessionContains.unique {metadata : SearchStoreMetadata}
    {content content' : List (Nat × List UInt8)} (h : SessionContains metadata dir content)
    (h' : SessionContains metadata dir content') : content = content' := by
  obtain ⟨reader, hopen, -, hread⟩ := h
  obtain ⟨reader', hopen', -, hread'⟩ := h'
  obtain rfl := StoreResult.ok.inj (hopen.symm.trans hopen')
  have hcontent := hread (List.replicate valuesBuffer 0) (List.replicate maskBuffer 0)
    List.length_replicate List.length_replicate
  rw [hread' _ _ List.length_replicate List.length_replicate] at hcontent
  exact (StoreResult.ok.inj hcontent).symm

end Session

/-- The session after any number of passes contains the candidates that survive them all, in their
    order, with the values that the last pass has found. -/
theorem refinement_exact (r : BeginRequest) (generation : UInt64)
    (operations : List RefineOperation) (dir dir' : Directory SessionFile)
    (hcommitted : Committed r generation dir)
    (hpasses : Refined r generation dir operations dir') :
    (∃ content, SessionContains (makeStoreMetadata r generation) dir content) ∧
      ∀ content, SessionContains (makeStoreMetadata r generation) dir content →
        SessionContains (makeStoreMetadata r (generation + UInt64.ofNat operations.length)) dir'
          (survivors r.width operations content) := by
  obtain ⟨kept, hholds⟩ := hcommitted.holds
  refine ⟨⟨_, hholds.contains⟩, fun content hcontent => ?_⟩
  obtain ⟨kept', hholds', hsurvivors⟩ := refined_holds hpasses kept hholds
  have hsame : content = contentOf r.alignment kept := hcontent.unique hholds.contains
  have hcontains := hholds'.contains
  rw [hsame, ← hsurvivors]
  exact hcontains

/-! ## A pass that nothing stops -/

/-- A block as a pass that reads this call finds it. -/
def BlockCall.read {width : Nat} (call : BlockCall width) : DecodedBlock where
  header := (call.stored 0).header
  values := call.values
  mask := call.slots.foldl ByteMask.set (List.replicate call.neededMask 0)

theorem BlockCall.readsAs_read {width : Nat} (call : BlockCall width) :
    ReadsAs call 0 call.read where
  base := by rw [BlockCall.read, BlockCall.stored_header]
  slotCount := by rw [BlockCall.read, BlockCall.stored_header]
  candidateCount := call.stored_candidateCount 0
  cumulative := by
    rw [BlockCall.read, BlockCall.stored_header]
    rfl
  mask := by
    intro i _
    rw [BlockCall.read, ByteMask.test_foldl_set, ByteMask.test_replicate_zero, Bool.false_or]
    intro slot hslot
    have hlt := (BlockCall.mem_slots.1 hslot).1
    rw [List.length_replicate, BlockCall.neededMask]
    omega
  values := fun _ _ => rfl

/-- What a pass hands on for a block that was written by this call. No session has a call of which
    the number of mask bytes wraps around. -/
def nextCall (metadata : SearchStoreMetadata) (operation : RefineOperation)
    (call : BlockCall metadata.width.toNat) : BlockCall metadata.width.toNat :=
  if hmask : call.slotCount.toNat ≤ 8 * maskBytes call.slotCount then
    refinedCall metadata operation.mode operation.exactValue operation.memory call.read
      call.slots_pos hmask
  else call

/-- A pass that nothing stops. -/
def quietRefinement (operation : RefineOperation) : RefineAnswers where
  buffersAllocated := true
  writerOpens := true
  pinnedOpens := true
  pauseSucceeds := true
  resumeSucceeds := true
  cancelBeforeBlock _ := false
  cancelAtEnd := false
  processIsCurrent _ := true
  readFails _ := false
  memory _ := operation.memory
  blockIsWritten _ := true

section Quiet

variable {metadata : SearchStoreMetadata} {kept : List (BlockCall metadata.width.toNat)}
  {operation : RefineOperation} {dir : Directory SessionFile}

/-- What is handed on depends on the call that wrote a block, and on nothing else that the buffers
    hold. -/
theorem refinedCall_congr {call : BlockCall metadata.width.toNat} {block block' : DecodedBlock}
    {cumulative cumulative' : Nat} {mode : SearchCompareMode} {exactValue : UInt64}
    {memory : Nat → UInt8} (hreads : ReadsAs call cumulative block)
    (hreads' : ReadsAs call cumulative' block') (hslots : block.header.slotCount ≠ 0)
    (hslots' : block'.header.slotCount ≠ 0)
    (hmask : block.header.slotCount.toNat ≤ 8 * maskBytes block.header.slotCount)
    (hmask' : block'.header.slotCount.toNat ≤ 8 * maskBytes block'.header.slotCount) :
    refinedCall metadata mode exactValue memory block hslots hmask =
      refinedCall metadata mode exactValue memory block' hslots' hmask' := by
  have hbase : block.header.base = block'.header.base := hreads.base.trans hreads'.base.symm
  have hcount : block.header.slotCount = block'.header.slotCount :=
    hreads.slotCount.trans hreads'.slotCount.symm
  have hfilter : ∀ current : List UInt8,
      searchFilterUnsigned mode block.values current block.mask block'.header.slotCount
          metadata.width.toNat exactValue =
        searchFilterUnsigned mode block'.values current block'.mask block'.header.slotCount
          metadata.width.toNat exactValue := by
    intro current
    unfold searchFilterUnsigned
    refine congrArg (fun slots => List.foldl ByteMask.set _ slots) ?_
    refine List.filter_congr fun slot hslot => ?_
    have hlt : slot < call.slotCount.toNat := by
      rw [← hreads'.slotCount]
      exact List.mem_range.1 hslot
    have hneeded : slot < 8 * call.neededMask := by
      unfold BlockCall.neededMask
      omega
    rw [bitIsSet_eq, bitIsSet_eq, hreads.mask slot hneeded, hreads'.mask slot hneeded]
    by_cases hmem : slot ∈ call.slots
    · rw [hreads.values slot hmem, hreads'.values slot hmem]
    · rw [decide_eq_false hmem, Bool.false_and, Bool.false_and]
  unfold refinedCall
  simp only [hbase, hcount, hfilter]

theorem refineBlocks_quiet (h : Storable metadata kept)
    (hfit : ∀ call ∈ kept, Fitting metadata call)
    (before after : List (BlockCall metadata.width.toNat)) (hkept : kept = before ++ after)
    (position : Nat) {previous oldMask : List UInt8} (hprevious : previous.length = valuesBuffer)
    (holdMask : oldMask.length = maskBuffer) :
    refineBlocks (quietRefinement operation) metadata operation.mode operation.exactValue
        (readerAt metadata (storedBlocks 0 kept) (storedBlocks 0 before) position) previous oldMask
        after.length = .done (after.map (nextCall metadata operation)) := by
  induction after generalizing before position previous oldMask with
  | nil => rfl
  | cons call after ih =>
    have hcall := hfit call (by rw [hkept]; simp)
    obtain ⟨block, hslots, hmask, position', hreads, hvalues, hmaskLength, hstep⟩ :=
      @refineBlocks_step metadata (quietRefinement operation) operation.mode operation.exactValue
        kept h call hcall before after hkept position previous oldMask hprevious holdMask
    have hmaskFits : call.slotCount.toNat ≤ 8 * maskBytes call.slotCount := by
      rw [BlockCall.maskBytes_eq, Nat.mod_eq_of_lt hcall.clean.noWrap]
      omega
    have hrest := ih (before ++ [call]) (by rw [hkept, List.append_assoc]; rfl) position' hvalues
      hmaskLength
    have hnext : nextCall metadata operation call = refinedCall metadata operation.mode
        operation.exactValue operation.memory block hslots hmask := by
      rw [nextCall, dif_pos hmaskFits]
      exact refinedCall_congr call.readsAs_read hreads call.slots_pos hslots hmaskFits hmask
    rw [List.length_cons, hstep, hrest, List.map_cons, hnext]
    rfl

/-- It hands on the next generation of every block. -/
theorem SessionHolds.runRefine_quiet (h : SessionHolds metadata dir kept)
    {previous oldMask : List UInt8} (hprevious : previous.length = valuesBuffer)
    (holdMask : oldMask.length = maskBuffer) :
    runRefine (quietRefinement operation) metadata operation.mode operation.exactValue dir .current
      previous oldMask = .done (kept.map (nextCall metadata operation)) := by
  have hpass := @refineBlocks_quiet metadata kept operation h.storable h.fitting [] kept rfl
    (imageBytes metadata (storedBlocks 0 kept)).length previous oldMask hprevious holdMask
  have hnone : storedBlocks 0 ([] : List (BlockCall metadata.width.toNat)) = [] := rfl
  rw [← h.blockCount (imageBytes metadata (storedBlocks 0 kept)).length, hnone] at hpass
  have hmetadata : (readerAt metadata (storedBlocks 0 kept) []
      (imageBytes metadata (storedBlocks 0 kept)).length).header.metadata = metadata := rfl
  unfold runRefine
  rw [h.opens]
  simp only [hmetadata, ne_eq, not_true_eq_false, if_false, hpass]
  rfl

/-- What it hands on, written on a device that fails no call, is the session of the pass. -/
theorem refinesBy_of_writeSession {r : BeginRequest} {generation : UInt64}
    {kept : List (BlockCall (makeStoreMetadata r generation).width.toNat)}
    {dir' : Directory SessionFile}
    (h : SessionHolds (makeStoreMetadata r generation) dir kept)
    (hwritten : @writeSession (makeStoreMetadata r (generation + 1))
      (kept.map (nextCall (makeStoreMetadata r generation) operation)) dir true = some dir') :
    RefinesBy r generation operation dir dir' :=
  ⟨quietRefinement operation, List.replicate valuesBuffer 0, List.replicate maskBuffer 0, _,
    List.length_replicate, List.length_replicate, fun _ => rfl,
    h.runRefine_quiet List.length_replicate List.length_replicate,
    commitsTo_of_writeSession hwritten⟩

/-- The session of the pass holds what is handed on. -/
theorem SessionHolds.next {r : BeginRequest} {generation : UInt64}
    {kept : List (BlockCall (makeStoreMetadata r generation).width.toNat)}
    {dir' : Directory SessionFile}
    (h : SessionHolds (makeStoreMetadata r generation) dir kept)
    (hwritten : @writeSession (makeStoreMetadata r (generation + 1))
      (kept.map (nextCall (makeStoreMetadata r generation) operation)) dir true = some dir') :
    SessionHolds (makeStoreMetadata r (generation + 1)) dir'
      (keptCalls (kept.map (nextCall (makeStoreMetadata r generation) operation))) := by
  have hprevious : (List.replicate valuesBuffer (0 : UInt8)).length = valuesBuffer :=
    List.length_replicate
  have holdMask : (List.replicate maskBuffer (0 : UInt8)).length = maskBuffer :=
    List.length_replicate
  obtain ⟨hwidth, hwidth8⟩ := makeStoreMetadata_width r (generation + 1)
  exact sessionHolds_of_commit hwidth hwidth8
    (h.fitting_done hprevious holdMask (h.runRefine_quiet hprevious holdMask))
    (commitsTo_of_writeSession hwritten)

end Quiet

/-- A pass that keeps the values that have grown, over a memory that counts the slots modulo 4. -/
def modFour : RefineOperation where
  mode := .increased
  exactValue := 0
  memory a := UInt8.ofNat (a / 256 % 4)

/-- A pass that keeps the values that have shrunk, over a memory of ones. -/
def allOnes : RefineOperation where
  mode := .decreased
  exactValue := 0
  memory _ := 1

/-- Two passes over the 48 candidates of a readable mapping keep 36 and then 24 of them. -/
theorem refinement_exact_two_passes : ∃ dir dir' content, Committed threePages 0 dir ∧
    Refined threePages 0 dir [modFour, allOnes] dir' ∧
    SessionContains (makeStoreMetadata threePages 0) dir content ∧
    SessionContains (makeStoreMetadata threePages (0 + UInt64.ofNat 2)) dir'
      (survivors threePages.width [modFour, allOnes] content) ∧
    content.length = 48 ∧ (survivors threePages.width [modFour] content).length = 36 ∧
    (survivors threePages.width [modFour, allOnes] content).length = 24 := by
  have hsome : ((runBegin (quietAnswers oneMapping) threePages fun _ => 0).bind fun calls =>
      (@writeSession (makeStoreMetadata threePages 0) calls (fun _ => none) false).bind fun dir =>
        (@writeSession (makeStoreMetadata threePages (0 + 1))
          ((keptCalls calls).map (nextCall (makeStoreMetadata threePages 0) modFour))
            dir true).bind fun dir =>
          @writeSession (makeStoreMetadata threePages (0 + 1 + 1))
            ((keptCalls ((keptCalls calls).map
              (nextCall (makeStoreMetadata threePages 0) modFour))).map
                (nextCall (makeStoreMetadata threePages (0 + 1)) allOnes)) dir true).isSome =
    true := by
    decide +kernel
  obtain ⟨dir', hdir'⟩ := Option.isSome_iff_exists.1 hsome
  obtain ⟨calls, hbegin, hdir'⟩ := Option.bind_eq_some_iff.1 hdir'
  obtain ⟨dir, hwritten, hdir'⟩ := Option.bind_eq_some_iff.1 hdir'
  obtain ⟨dir₁, hfirst, hsecond⟩ := Option.bind_eq_some_iff.1 hdir'
  have hcommits := commitsTo_of_writeSession hwritten
  have hcommitted : Committed threePages 0 dir := .begin hbegin hcommits
  obtain ⟨hwidth, hwidth8⟩ := makeStoreMetadata_width threePages 0
  have hfitting := runBegin_fitting hbegin
  have hholds := sessionHolds_of_commit hwidth hwidth8
    (fun call hcall => ⟨(hfitting call hcall).values, (hfitting call hcall).span,
      (hfitting call hcall).clean⟩) hcommits
  have hpasses : Refined threePages 0 dir [modFour, allOnes] dir' :=
    .pass (refinesBy_of_writeSession hholds hfirst)
      (.pass (refinesBy_of_writeSession (hholds.next hfirst) hsecond) .none)
  have hcontent := contains_of_begin hbegin hcommits
  have hcounts : ((runBegin (quietAnswers oneMapping) threePages fun _ => 0).map fun calls =>
      ((contentOf threePages.alignment calls).length,
        (survivors threePages.width [modFour] (contentOf threePages.alignment calls)).length,
        (survivors threePages.width [modFour, allOnes]
          (contentOf threePages.alignment calls)).length)) = some (48, 36, 24) := by
    decide +kernel
  rw [hbegin, Option.map_some, Option.some.injEq, Prod.mk.injEq, Prod.mk.injEq] at hcounts
  exact ⟨dir, dir', _, hcommitted, hpasses, hcontent,
    (refinement_exact threePages 0 [modFour, allOnes] dir dir' hcommitted hpasses).2 _ hcontent,
    hcounts⟩

end SysAgent
