import Mathlib
import SysAgent.Store.Format

set_option autoImplicit false

/-! # Writing a session file (`search_store.c`)

The library calls inside a function may fail at any point. What they answer is given with each call:
`true` for a call that succeeds, and for `fwrite` the number of bytes the device takes. -/

namespace SysAgent

/-! ## Directories -/

/-- The files of a directory by path. A file that is being written counts as empty until it is
    flushed; nothing opens it before. -/
abbrev Directory (Path : Type) := Path → Option (List UInt8)

section Directory

variable {Path : Type} [DecidableEq Path]

/-- `remove`. -/
def Directory.remove (dir : Directory Path) (path : Path) : Directory Path :=
  Function.update dir path none

/-- `rename`: it fails without a source, or when the device says so. -/
def Directory.rename (dir : Directory Path) (source target : Path) (device : Bool) :
    Bool × Directory Path :=
  if device && (dir source).isSome then
    (true, Directory.remove (Function.update dir target (dir source)) source)
  else (false, dir)

end Directory

/-! ## The writer -/

structure SearchStoreWriter (Path : Type) where
  file : Option Stdio.File
  header : SearchStoreHeader
  path : Path
  failed : Bool

structure WriterOpenAnswers where
  fopen : Bool
  header : Nat

structure AddBlockAnswers where
  malloc : Bool
  header : Nat
  payload : Nat

structure IndexAnswers where
  seek : Bool
  read : Bool
  seekEnd : Bool
  entry : Nat

structure FinishAnswers where
  /-- For each turn of the loop of `writeIndex`. -/
  index : Nat → IndexAnswers
  seek : Bool
  header : Nat
  fflush : Bool
  fsync : Bool
  fclose : Bool

section Writer

variable {Path : Type} [DecidableEq Path]

/-- `searchStoreWriterAbort`. -/
def searchStoreWriterAbort (dir : Directory Path) (writer : SearchStoreWriter Path) :
    Directory Path × SearchStoreWriter Path :=
  (dir.remove writer.path, { writer with file := none })

/-- The header `searchStoreWriterOpen` writes. -/
def initialHeader (metadata : SearchStoreMetadata) : SearchStoreHeader :=
  { magic := SEARCH_STORE_MAGIC, version := SEARCH_STORE_VERSION,
    headerSize := UInt16.ofNat sizeofHeader, metadata := metadata, candidateCount := 0,
    blockCount := 0, indexOffset := 0, dataBytes := 0, headerCrc := 0, reserved := 0 }

def searchStoreWriterOpen (io : WriterOpenAnswers) (dir : Directory Path) (path : Path)
    (metadata : SearchStoreMetadata) : Bool × Directory Path × SearchStoreWriter Path :=
  let writer : SearchStoreWriter Path :=
    { file := none, header := initialHeader metadata, path := path, failed := false }
  if !io.fopen then (false, dir, writer)
  else
    let dir := Function.update dir path (some [])
    match Stdio.File.create.write (headerCodec.encode writer.header) io.header with
    | (true, file) => (true, dir, { writer with file := some file })
    | (false, _) =>
      let (dir, writer) := searchStoreWriterAbort dir writer
      (false, dir, writer)

/-! ### Blocks -/

/-- The slots that are candidates; without a mask all of them are. -/
def candidateSlots (slotCount : Nat) (candidateMask : Option (List UInt8)) : List Nat :=
  match candidateMask with
  | none => List.range slotCount
  | some mask => (List.range slotCount).filter (bitIsSet mask)

/-- The representation of a block and the size of its payload. -/
def chooseRepresentation (width : Nat) (slotCount : UInt32) (candidateCount : Nat) :
    UInt8 × Nat :=
  let allSize := slotCount.toNat * width
  let bitmapSize := maskBytes slotCount + allSize
  let sparseSize := candidateCount * (4 + width)
  if candidateCount ≠ slotCount.toNat then
    if sparseSize < bitmapSize then (StoreRepresentationSparse, sparseSize)
    else (StoreRepresentationBitmap, bitmapSize)
  else (StoreRepresentationAll, allSize)

/-- The payload in a representation. -/
def blockPayload (representation : UInt8) (width : Nat) (slotCount : UInt32)
    (values : List UInt8) (candidateMask : Option (List UInt8)) : List UInt8 :=
  if representation == StoreRepresentationAll then values.take (slotCount.toNat * width)
  else if representation == StoreRepresentationBitmap then
    (candidateMask.getD []).take (maskBytes slotCount) ++ values.take (slotCount.toNat * width)
  else
    (candidateSlots slotCount.toNat candidateMask).flatMap fun slot =>
      Codec.u32.encode (UInt32.ofNat slot) ++ slotValue values width slot

/-- The block header of an `AddBlock` call. -/
def blockHeader (width : Nat) (base cumulativeCandidates : UInt64) (slotCount : UInt32)
    (values : List UInt8) (candidateMask : Option (List UInt8)) : SearchStoreBlockHeader :=
  let candidateCount := (candidateSlots slotCount.toNat candidateMask).length
  let (representation, payloadSize) := chooseRepresentation width slotCount candidateCount
  { magic := SEARCH_STORE_BLOCK_MAGIC, representation := representation,
    width := UInt8.ofNat width, reserved := 0, base := base,
    cumulativeCandidates := cumulativeCandidates, slotCount := slotCount,
    candidateCount := UInt32.ofNat candidateCount, payloadSize := UInt32.ofNat payloadSize,
    payloadCrc := searchStoreCrc32 (blockPayload representation width slotCount values
      candidateMask) }

def searchStoreWriterAddBlock (io : AddBlockAnswers) (writer : SearchStoreWriter Path)
    (base : UInt64) (slotCount : UInt32) (values : List UInt8)
    (candidateMask : Option (List UInt8)) : Bool × SearchStoreWriter Path :=
  match writer.file with
  | none => (false, writer)
  | some file =>
    if writer.failed || slotCount == 0 then (false, writer)
    else
      let width := writer.header.metadata.width.toNat
      let candidateCount := (candidateSlots slotCount.toNat candidateMask).length
      if candidateCount = 0 then (true, writer)
      else
        let (representation, payloadSize) := chooseRepresentation width slotCount candidateCount
        if payloadSize > 2 ^ 32 - 1 || !io.malloc then (false, { writer with failed := true })
        else
          let payload := blockPayload representation width slotCount values candidateMask
          let block := blockHeader width base writer.header.candidateCount slotCount values
            candidateMask
          match file.write (blockCodec.encode block) io.header with
          | (false, file) => (false, { writer with file := some file, failed := true })
          | (true, file) =>
            match file.write payload io.payload with
            | (false, file) => (false, { writer with file := some file, failed := true })
            | (true, file) =>
              (true, { writer with
                file := some file
                header := { writer.header with
                  candidateCount := writer.header.candidateCount + UInt64.ofNat candidateCount
                  blockCount := writer.header.blockCount + 1
                  dataBytes := writer.header.dataBytes +
                    UInt64.ofNat (sizeofBlockHeader + payloadSize) } })

/-! ### The index -/

/-- The index entry of the block at `offset`. -/
def indexEntry (offset : UInt64) (block : SearchStoreBlockHeader) : SearchStoreIndexEntry :=
  { fileOffset := offset, cumulativeCandidates := block.cumulativeCandidates, base := block.base,
    slotCount := block.slotCount, candidateCount := block.candidateCount }

/-- One turn of the loop of `writeIndex`: the entry of the block at `offset` is appended. Returns
    the file and the offset of the next block. -/
def writeIndexEntry (io : IndexAnswers) (file : Stdio.File) (offset : UInt64) :
    Option (Stdio.File × UInt64) := do
  guard io.seek
  let file ← file.seekSet offset.toNat
  guard io.read
  let (bytes, file) ← file.read sizeofBlockHeader
  let block := blockCodec.decode bytes
  guard (block.magic == SEARCH_STORE_BLOCK_MAGIC && io.seekEnd)
  match file.seekEnd.write (indexCodec.encode (indexEntry offset block)) io.entry with
  | (true, file) =>
    some (file, offset + UInt64.ofNat sizeofBlockHeader + block.payloadSize.toUInt64)
  | (false, _) => none

/-- The loop of `writeIndex` from turn `index` on, with `left` turns to go. -/
def writeIndexLoop (io : Nat → IndexAnswers) (file : Stdio.File) (offset : UInt64) (index : Nat) :
    Nat → Option Stdio.File
  | 0 => some file
  | left + 1 => do
    let (file, offset) ← writeIndexEntry (io index) file offset
    writeIndexLoop io file offset (index + 1) left

/-- The header that `searchStoreWriterFinish` writes. -/
def finalHeader (header : SearchStoreHeader) : SearchStoreHeader :=
  let header := { header with indexOffset := UInt64.ofNat sizeofHeader + header.dataBytes }
  { header with headerCrc := headerCrc header }

def searchStoreWriterFinish (io : FinishAnswers) (dir : Directory Path)
    (writer : SearchStoreWriter Path) : Bool × Directory Path × SearchStoreWriter Path :=
  let refuse : Bool × Directory Path × SearchStoreWriter Path :=
    (false, dir.remove writer.path, { writer with file := none })
  match writer.file with
  | none => refuse
  | some file =>
    if writer.failed then refuse
    else
      match writeIndexLoop io.index file (UInt64.ofNat sizeofHeader) 0
          writer.header.blockCount.toNat with
      | none => refuse
      | some file =>
        let header := finalHeader writer.header
        let writer := { writer with file := none, header := header }
        match io.seek, file.seekSet 0 with
        | true, some file =>
          match file.write (headerCodec.encode header) io.header with
          | (true, file) =>
            if io.fflush && io.fsync && io.fclose then
              (true, Function.update dir writer.path (some file.content), writer)
            else (false, dir.remove writer.path, writer)
          | (false, _) => (false, dir.remove writer.path, writer)
        | _, _ => (false, dir.remove writer.path, writer)

/-- What the three `rename` calls of a commit answer. -/
structure CommitAnswers where
  backup : Bool
  install : Bool
  restore : Bool

/-- `searchStoreCommit`. -/
def searchStoreCommit (io : CommitAnswers) (dir : Directory Path) (temporary current backup : Path)
    (currentExists : Bool) : Bool × Directory Path :=
  let dir := dir.remove backup
  match (if currentExists then dir.rename current backup io.backup else (true, dir)) with
  | (false, dir) => (false, dir)
  | (true, dir) =>
    match dir.rename temporary current io.install with
    | (false, dir) =>
      (false, if currentExists then (dir.rename backup current io.restore).2 else dir)
    | (true, dir) => (true, if currentExists then dir.remove backup else dir)

end Writer

end SysAgent
