import Mathlib
import SysAgent.Console.Numbers
import SysAgent.Search.Snapshot
import SysAgent.Store.RoundTrip

set_option autoImplicit false

/-! # The later passes of an unknown search (`unknown_search.c`, `search_compare.c`)

`runRefine` reads the blocks of the committed session one after the other, reads the memory that each
covers, and hands the slots that still match to the store of the next generation. What the outside
answers is given for each block. The reads of the session file succeed: they depend on its content
only. -/

namespace SysAgent

open StoreResult

inductive SearchCompareMode
  | exact
  | changed
  | unchanged
  | increased
  | decreased
  deriving DecidableEq, Repr

/-- `searchCompareUnsigned`. -/
def searchCompareUnsigned (mode : SearchCompareMode) (previous current : List UInt8) (width : Nat)
    (exactValue : UInt64) : Bool :=
  let oldValue := searchDecodeUnsigned previous width
  let newValue := searchDecodeUnsigned current width
  match mode with
  | .exact => newValue == exactValue
  | .changed => newValue != oldValue
  | .unchanged => newValue == oldValue
  | .increased => newValue > oldValue
  | .decreased => newValue < oldValue

/-- `searchFilterUnsigned`: the bytes that it writes to the output mask. -/
def searchFilterUnsigned (mode : SearchCompareMode) (previous current inputMask : List UInt8)
    (slotCount : UInt32) (width : Nat) (exactValue : UInt64) : List UInt8 :=
  ((List.range slotCount.toNat).filter fun slot =>
    bitIsSet inputMask slot &&
      searchCompareUnsigned mode (slotValue previous width slot) (slotValue current width slot)
        width exactValue).foldl ByteMask.set (List.replicate (maskBytes slotCount) 0)

inductive SearchFailure
  | corruptSession
  | processChanged
  | pauseFailed
  | ioError
  deriving DecidableEq, Repr

/-- How a pass ends: the blocks it hands to the store, or why there is no next generation. An access
    outside of a buffer is a `fault`. -/
inductive RefineOutcome (width : Nat)
  | done (calls : List (BlockCall width))
  | cancelled
  | failed (failure : SearchFailure)
  | fault

/-- What the outside answers during a pass; the functions take the number of a block. Where the
    process is not to be paused, opening and pausing it succeed. -/
structure RefineAnswers where
  buffersAllocated : Bool
  writerOpens : Bool
  pinnedOpens : Bool
  pauseSucceeds : Bool
  resumeSucceeds : Bool
  cancelBeforeBlock : Nat → Bool
  cancelAtEnd : Bool
  processIsCurrent : Nat → Bool
  readFails : Nat → Bool
  memory : Nat → Nat → UInt8
  blockIsWritten : Nat → Bool

/-- The buffers for values and for masks. -/
def valuesBuffer : Nat := UNKNOWN_CHUNK_SIZE + 8
def maskBuffer : Nat := UNKNOWN_CHUNK_SIZE / 8 + 8

/-- The bytes that the slots of a block span. -/
def blockSpan (metadata : SearchStoreMetadata) (slotCount : UInt32) : Nat :=
  u64 ((slotCount - 1).toNat * metadata.alignment.toNat + metadata.width.toNat)

/-- The next generation of a block: the values that are there now, and the slots that match. -/
def refinedCall (metadata : SearchStoreMetadata) (mode : SearchCompareMode) (exactValue : UInt64)
    (memory : Nat → UInt8) (block : DecodedBlock) (hslots : block.header.slotCount ≠ 0)
    (hmask : block.header.slotCount.toNat ≤ 8 * maskBytes block.header.slotCount) :
    BlockCall metadata.width.toNat :=
  let width := metadata.width.toNat
  let currentValues :=
    (List.range (block.header.slotCount.toNat * width)).map fun i =>
      memory (block.header.base.toNat + i / width * metadata.alignment.toNat + i % width)
  { base := block.header.base
    slotCount := block.header.slotCount
    values := currentValues
    mask := some (searchFilterUnsigned mode block.values currentValues block.mask
      block.header.slotCount width exactValue)
    slots_pos := hslots
    values_len := by rw [List.length_map, List.length_range]
    mask_len := by
      intro m hm
      obtain rfl := Option.some.inj hm
      rw [searchFilterUnsigned, ByteMask.length_foldl_set, List.length_replicate]
      exact hmask }

section Pass

variable (answers : RefineAnswers) (metadata : SearchStoreMetadata) (mode : SearchCompareMode)
  (exactValue : UInt64)

/-- The loop over the blocks of the session, with `left` to go. -/
def refineBlocks (reader : SearchStoreReader) (previous oldMask : List UInt8) :
    Nat → RefineOutcome metadata.width.toNat
  | 0 => .done []
  | left + 1 =>
    let number := reader.nextBlock.toNat
    if answers.cancelBeforeBlock number then .cancelled
    else if !answers.processIsCurrent number then .failed .processChanged
    else
      match searchStoreReaderNext true reader previous oldMask with
      | .refused => .failed .corruptSession
      | .fault => .fault
      | .ok (block, reader) =>
        if blockSpan metadata block.header.slotCount > valuesBuffer then .failed .corruptSession
        else if answers.readFails number then .failed .ioError
        else if hmask : block.header.slotCount.toNat ≤ 8 * maskBytes block.header.slotCount then
          -- `searchStoreWriterAddBlock` answers `false` for a block without slots
          if hslots : block.header.slotCount = 0 then .failed .ioError
          else if !answers.blockIsWritten number then .failed .ioError
          else
            match refineBlocks reader block.values block.mask left with
            | .done calls =>
              .done (refinedCall metadata mode exactValue (answers.memory number) block hslots
                hmask :: calls)
            | outcome => outcome
        else .fault

/-- What is left of a pass at its end: a cancel that comes until then wins. -/
def concludeRefine {width : Nat} : RefineOutcome width → RefineOutcome width
  | .fault => .fault
  | outcome => if answers.cancelAtEnd then .cancelled else outcome

/-- `runRefine` up to the end of the writer, where `metadata` is what the session is expected to hold
    and `previous`, `oldMask` are the two buffers that the reader fills. -/
def runRefine {Path : Type} (dir : Directory Path) (path : Path) (previous oldMask : List UInt8) :
    RefineOutcome metadata.width.toNat :=
  match searchStoreReaderOpen true dir path with
  | .refused => concludeRefine answers (.failed .corruptSession)
  | .fault => .fault
  | .ok reader =>
    if reader.header.metadata ≠ metadata then concludeRefine answers (.failed .processChanged)
    else if !answers.writerOpens || !answers.buffersAllocated then
      concludeRefine answers (.failed .ioError)
    else if !answers.pinnedOpens then concludeRefine answers (.failed .processChanged)
    else if !answers.pauseSucceeds then concludeRefine answers (.failed .pauseFailed)
    else
      match refineBlocks answers metadata mode exactValue reader previous oldMask
          reader.header.blockCount.toNat with
      | .fault => .fault
      | outcome =>
        concludeRefine answers (if answers.resumeSucceeds then outcome else .failed .pauseFailed)

end Pass

/-! ## Generations -/

/-- The files of a session. -/
inductive SessionFile
  | current
  | temporary
  | backup
  deriving DecidableEq

/-- `makeStoreMetadata`. -/
def makeStoreMetadata (r : BeginRequest) (generation : UInt64) : SearchStoreMetadata :=
  { r.metadata with generation := generation }

/-- The blocks are written to the temporary file, which becomes the session. -/
def CommitsTo {metadata : SearchStoreMetadata} (calls : List (BlockCall metadata.width.toNat))
    (currentExists : Bool) (dir' : Directory SessionFile) : Prop :=
  ∃ (written : Directory SessionFile) (io : CommitAnswers),
    StoreWritten metadata calls .temporary written ∧
      searchStoreCommit io written .temporary .current .backup currentExists = (true, dir')

/-- A pass over the session in `dir` that ends as done, and commits. -/
def RefineStep (r : BeginRequest) (generation : UInt64) (dir dir' : Directory SessionFile) : Prop :=
  ∃ (answers : RefineAnswers) (mode : SearchCompareMode) (exactValue : UInt64)
    (previous oldMask : List UInt8)
    (calls : List (BlockCall (makeStoreMetadata r generation).width.toNat)),
    previous.length = valuesBuffer ∧ oldMask.length = maskBuffer ∧
      runRefine answers (makeStoreMetadata r generation) mode exactValue dir .current previous
        oldMask = .done calls ∧
      @CommitsTo (makeStoreMetadata r (generation + 1)) calls true dir'

/-- The directories with a session that a first pass and any number of later ones have committed. -/
inductive Committed (r : BeginRequest) : UInt64 → Directory SessionFile → Prop
  | begin {answers : BeginAnswers} {raw : Nat → UInt8}
      {calls : List (BlockCall r.metadata.width.toNat)} {dir : Directory SessionFile} :
    runBegin answers r raw = some calls →
      @CommitsTo (makeStoreMetadata r 0) calls false dir → Committed r 0 dir
  | refine {generation : UInt64} {dir dir' : Directory SessionFile} :
    Committed r generation dir → RefineStep r generation dir dir' →
      Committed r (generation + 1) dir'

end SysAgent
