import Mathlib
import SysAgent.Store.Writer

set_option autoImplicit false

/-! # Reading a session file (`search_store.c`)

A function that returns `false` in the source answers `refused`. An access outside of a buffer,
which C leaves undefined, answers `fault`. `device` says whether the library calls in a function
succeed; each of them fails in the same way, with `false`. -/

namespace SysAgent

inductive StoreResult (α : Type)
  | ok (a : α)
  | refused
  | fault

namespace StoreResult

variable {α β : Type}

def bind (r : StoreResult α) (f : α → StoreResult β) : StoreResult β :=
  match r with
  | ok a => f a
  | refused => refused
  | fault => fault

instance : Monad StoreResult where
  pure := ok
  bind := bind

/-- Go on where a condition holds. -/
def require (b : Bool) : StoreResult Unit :=
  if b then ok () else refused

def ofOption : Option α → StoreResult α
  | some a => ok a
  | none => refused

@[simp] theorem ok_bind (a : α) (f : α → StoreResult β) : (ok a >>= f) = f a := rfl
@[simp] theorem refused_bind (f : α → StoreResult β) : (refused >>= f) = refused := rfl
@[simp] theorem fault_bind (f : α → StoreResult β) : (fault >>= f) = fault := rfl
@[simp] theorem pure_eq (a : α) : (pure a : StoreResult α) = ok a := rfl
@[simp] theorem require_true : require true = ok () := rfl
@[simp] theorem require_false : require false = refused := rfl
@[simp] theorem ofOption_some (a : α) : ofOption (some a) = ok a := rfl
@[simp] theorem ofOption_none : ofOption (none : Option α) = refused := rfl

/-- What a computation that ends well has gone through. -/
theorem bind_eq_ok {r : StoreResult α} {f : α → StoreResult β} {b : β} :
    (r >>= f) = ok b ↔ ∃ a, r = ok a ∧ f a = ok b := by
  cases r with
  | ok a => simp
  | refused => simp
  | fault => simp

theorem require_eq_ok {b : Bool} {u : Unit} : require b = ok u ↔ b = true := by
  cases b <;> simp

theorem ofOption_eq_ok {o : Option α} {a : α} : ofOption o = ok a ↔ o = some a := by
  cases o <;> simp

end StoreResult

open StoreResult

/-! ## Memory -/

/-- `memcpy(dst + position, src, …)`. -/
def copyInto (dst : List UInt8) (position : Nat) (src : List UInt8) : StoreResult (List UInt8) :=
  if position + src.length ≤ dst.length then
    ok (dst.take position ++ src ++ dst.drop (position + src.length))
  else fault

/-- The `n` bytes of `src` from `position` on. -/
def bytesAt (src : List UInt8) (position n : Nat) : StoreResult (List UInt8) :=
  if position + n ≤ src.length then ok ((src.drop position).take n) else fault

/-- `bitSet`. -/
def bitSet (mask : List UInt8) (index : Nat) : StoreResult (List UInt8) :=
  if index / 8 < mask.length then ok (ByteMask.set mask index) else fault

/-! ## Opening -/

structure SearchStoreReader where
  file : Stdio.File
  header : SearchStoreHeader
  nextBlock : UInt64
  nextOffset : UInt64

/-- What `searchStoreReaderOpen` requires of the header. -/
def headerAccepted (header : SearchStoreHeader) : Bool :=
  header.magic == SEARCH_STORE_MAGIC && header.version == SEARCH_STORE_VERSION &&
    header.headerSize == UInt16.ofNat sizeofHeader && header.headerCrc == headerCrc header &&
    header.metadata.width != 0 && header.metadata.width ≤ 8

/-- What it requires of the size of the file. -/
def sizeAccepted (header : SearchStoreHeader) (fileSize : Nat) : Bool :=
  header.indexOffset == UInt64.ofNat sizeofHeader + header.dataBytes &&
    header.blockCount.toNat ≤ (2 ^ 64 - 1) / sizeofIndexEntry &&
    header.indexOffset.toNat ≤ 2 ^ 64 - 1 - header.blockCount.toNat * sizeofIndexEntry &&
    fileSize ≤ Stdio.LONG_MAX &&
    fileSize == header.indexOffset.toNat + header.blockCount.toNat * sizeofIndexEntry

def searchStoreReaderOpen {Path : Type} (device : Bool) (dir : Directory Path) (path : Path) :
    StoreResult SearchStoreReader := do
  require device
  let content ← ofOption (dir path)
  let (bytes, file) ← ofOption ((Stdio.File.opened content).read sizeofHeader)
  let header := headerCodec.decode bytes
  require (headerAccepted header)
  let file := file.seekEnd
  require (sizeAccepted header file.position)
  ok { file := file, header := header, nextBlock := 0, nextOffset := UInt64.ofNat sizeofHeader }

/-! ## Blocks -/

/-- What both readers require of a block header at `offset`. -/
def blockAccepted (header : SearchStoreHeader) (offset : UInt64) (block : SearchStoreBlockHeader) :
    Bool :=
  block.magic == SEARCH_STORE_BLOCK_MAGIC && block.width.toUInt32 == header.metadata.width &&
    block.slotCount != 0 && block.candidateCount != 0 &&
    block.candidateCount ≤ block.slotCount && block.payloadSize != 0 &&
    block.payloadSize.toNat ≤ StoreMaximumPayload && offset ≤ header.indexOffset &&
    sizeofBlockHeader + block.payloadSize.toNat ≤ header.indexOffset.toNat - offset.toNat

/-- The block header at an offset. -/
def readBlockHeader (file : Stdio.File) (offset : UInt64) :
    StoreResult (SearchStoreBlockHeader × Stdio.File) := do
  let file ← ofOption (file.seekSet offset.toNat)
  let (bytes, file) ← ofOption (file.read sizeofBlockHeader)
  ok (blockCodec.decode bytes, file)

/-- The payload behind it. -/
def readPayload (file : Stdio.File) (block : SearchStoreBlockHeader) :
    StoreResult (List UInt8 × Stdio.File) := do
  let (payload, file) ← ofOption (file.read block.payloadSize.toNat)
  require (searchStoreCrc32 payload == block.payloadCrc)
  ok (payload, file)

/-- The representation `All`: every slot is a candidate. -/
def decodeAll (block : SearchStoreBlockHeader) (payload values mask : List UInt8) :
    StoreResult (List UInt8 × List UInt8) := do
  let valueBytes := block.slotCount.toNat * block.width.toNat
  let maskBytes := maskBytes block.slotCount
  let values ← copyInto values 0 (← bytesAt payload 0 valueBytes)
  let mask ← copyInto mask 0 (List.replicate maskBytes 0xFF)
  if block.slotCount.toNat % 8 ≠ 0 then
    -- `maskBytes - 1` is a `size_t`: for no bytes at all it lies behind every buffer
    if maskBytes = 0 then fault
    else
      let last ← bytesAt mask (maskBytes - 1) 1
      let kept := UInt8.ofNat (2 ^ (block.slotCount.toNat % 8) - 1)
      let mask ← copyInto mask (maskBytes - 1) (last.map (· &&& kept))
      ok (values, mask)
  else ok (values, mask)

/-- The representation `Bitmap`: the mask, then the values of all slots. -/
def decodeBitmap (block : SearchStoreBlockHeader) (payload values mask : List UInt8) :
    StoreResult (List UInt8 × List UInt8) := do
  let valueBytes := block.slotCount.toNat * block.width.toNat
  let maskBytes := maskBytes block.slotCount
  let mask ← copyInto mask 0 (← bytesAt payload 0 maskBytes)
  let values ← copyInto values 0 (← bytesAt payload maskBytes valueBytes)
  ok (values, mask)

/-- The loop over the entries of the representation `Sparse` from `index` on, with `left` to go:
    a slot number and its value each. -/
def decodeSparse (block : SearchStoreBlockHeader) (payload : List UInt8) (index cursor : Nat)
    (previousSlot : UInt32) (values mask : List UInt8) :
    Nat → StoreResult (List UInt8 × List UInt8)
  | 0 => ok (values, mask)
  | left + 1 => do
    let slot := Codec.u32.decode (← bytesAt payload cursor 4)
    require (slot < block.slotCount && !(index > 0 && slot ≤ previousSlot))
    let mask ← bitSet mask slot.toNat
    let width := block.width.toNat
    let values ← copyInto values (slot.toNat * width) (← bytesAt payload (cursor + 4) width)
    decodeSparse block payload (index + 1) (cursor + 4 + width) slot values mask left

/-- The values and the mask of a block, in the buffers of the caller. -/
def decodeBlock (block : SearchStoreBlockHeader) (payload values mask : List UInt8) :
    StoreResult (List UInt8 × List UInt8) := do
  let valueBytes := block.slotCount.toNat * block.width.toNat
  let maskBytes := maskBytes block.slotCount
  let values ← copyInto values 0 (List.replicate valueBytes 0)
  let mask ← copyInto mask 0 (List.replicate maskBytes 0)
  let payloadSize := block.payloadSize.toNat
  if block.representation == StoreRepresentationAll && payloadSize == valueBytes then
    decodeAll block payload values mask
  else if block.representation == StoreRepresentationBitmap &&
      payloadSize == maskBytes + valueBytes then
    decodeBitmap block payload values mask
  else if block.representation == StoreRepresentationSparse &&
      payloadSize == block.candidateCount.toNat * (4 + block.width.toNat) then
    decodeSparse block payload 0 0 0 values mask block.candidateCount.toNat
  else refused

/-- What `searchStoreReaderNext` hands to its caller. -/
structure DecodedBlock where
  header : SearchStoreBlockHeader
  values : List UInt8
  mask : List UInt8

/-- `searchStoreReaderNext`; the buffers are given with their content, and their lengths are the
    capacities. -/
def searchStoreReaderNext (device : Bool) (reader : SearchStoreReader)
    (values mask : List UInt8) : StoreResult (DecodedBlock × SearchStoreReader) := do
  require (reader.nextBlock < reader.header.blockCount)
  require device
  let (block, file) ← readBlockHeader reader.file reader.nextOffset
  require (blockAccepted reader.header reader.nextOffset block)
  let (payload, file) ← readPayload file block
  require (block.slotCount.toNat * block.width.toNat ≤ values.length &&
    maskBytes block.slotCount ≤ mask.length)
  let (values, mask) ← decodeBlock block payload values mask
  ok ({ header := block, values := values, mask := mask },
    { reader with
      file := file
      nextOffset := reader.nextOffset + UInt64.ofNat (sizeofBlockHeader + block.payloadSize.toNat)
      nextBlock := reader.nextBlock + 1 })

/-! ## Pages of addresses -/

/-- The index entry with the given number. -/
def readIndexEntry (file : Stdio.File) (header : SearchStoreHeader) (index : Nat) :
    StoreResult (SearchStoreIndexEntry × Stdio.File) := do
  let file ← ofOption (file.seekSet
    (header.indexOffset + UInt64.ofNat index * UInt64.ofNat sizeofIndexEntry).toNat)
  let (bytes, file) ← ofOption (file.read sizeofIndexEntry)
  ok (indexCodec.decode bytes, file)

/-- What is required of the counts of an index entry. -/
def countsAccepted (header : SearchStoreHeader) (entry : SearchStoreIndexEntry) : Bool :=
  entry.cumulativeCandidates ≤ header.candidateCount &&
    entry.candidateCount.toUInt64 ≤ header.candidateCount - entry.cumulativeCandidates

/-- The binary search for the first block that reaches past `offset`. -/
def findBlock (file : Stdio.File) (header : SearchStoreHeader) (offset : UInt64) (low high : Nat) :
    StoreResult (Nat × Stdio.File) :=
  if low < high then do
    let middle := low + (high - low) / 2
    let (entry, file) ← readIndexEntry file header middle
    require (countsAccepted header entry)
    if offset ≥ entry.cumulativeCandidates + entry.candidateCount.toUInt64 then
      findBlock file header offset (middle + 1) high
    else findBlock file header offset low middle
  else ok (low, file)
termination_by high - low

/-- The address of a slot. -/
def slotAddress (header : SearchStoreHeader) (block : SearchStoreBlockHeader) (slot : UInt64) :
    UInt64 :=
  block.base + slot * header.metadata.alignment

/-- The walk over the entries of a sparse block: all of them are checked, those from `offset` on
    are copied while there is room. -/
def copySparse (header : SearchStoreHeader) (block : SearchStoreBlockHeader) (payload : List UInt8)
    (offset : UInt64) (count : Nat) (candidate cursor : Nat) (previousSlot : UInt32)
    (ordinal : UInt64) (addresses : List UInt64) : Nat → StoreResult (List UInt64)
  | 0 => ok addresses
  | left + 1 => do
    let slot := Codec.u32.decode (← bytesAt payload cursor 4)
    require (slot < block.slotCount && !(candidate > 0 && slot ≤ previousSlot))
    let addresses :=
      if ordinal ≥ offset && addresses.length < count then
        addresses ++ [slotAddress header block slot.toUInt64]
      else addresses
    copySparse header block payload offset count (candidate + 1) (cursor + 4 + block.width.toNat)
      slot (ordinal + 1) addresses left

/-- The walk over the slots of the other representations from `slot` on, with `left` to go. -/
def copySlots (header : SearchStoreHeader) (block : SearchStoreBlockHeader)
    (mask : Option (List UInt8)) (offset : UInt64) (count : Nat) (slot : Nat) (ordinal : UInt64)
    (addresses : List UInt64) : Nat → StoreResult (List UInt64)
  | 0 => ok addresses
  | left + 1 =>
    if addresses.length < count then do
      let candidate ← match mask with
        | none => ok true
        | some mask => if slot / 8 < mask.length then ok (bitIsSet mask slot) else fault
      if !candidate then
        copySlots header block mask offset count (slot + 1) ordinal addresses left
      else
        let addresses :=
          if ordinal ≥ offset then
            addresses ++ [slotAddress header block (UInt64.ofNat slot)]
          else addresses
        copySlots header block mask offset count (slot + 1) (ordinal + 1) addresses left
    else ok addresses

/-- What is required of a block and its index entry. -/
def entryAccepted (header : SearchStoreHeader) (entry : SearchStoreIndexEntry)
    (block : SearchStoreBlockHeader) : Bool :=
  blockAccepted header entry.fileOffset block &&
    entry.cumulativeCandidates == block.cumulativeCandidates && entry.base == block.base &&
    entry.slotCount == block.slotCount && entry.candidateCount == block.candidateCount &&
    countsAccepted header entry

/-- The loop over the blocks from `index` on, with `left` to go. -/
def copyBlocks (file : Stdio.File) (header : SearchStoreHeader) (offset : UInt64) (count : Nat)
    (index : Nat) (addresses : List UInt64) : Nat → StoreResult (List UInt64)
  | 0 => ok addresses
  | left + 1 =>
    if addresses.length < count then do
      let (entry, file) ← readIndexEntry file header index
      if offset ≥ entry.cumulativeCandidates + entry.candidateCount.toUInt64 then
        copyBlocks file header offset count (index + 1) addresses left
      else do
        let (block, file) ← readBlockHeader file entry.fileOffset
        require (entryAccepted header entry block)
        let (payload, file) ← readPayload file block
        let addresses ←
          if block.representation == StoreRepresentationSparse then
            copySparse header block payload offset count 0 0 0 block.cumulativeCandidates addresses
              block.candidateCount.toNat
          else
            copySlots header block
              (if block.representation == StoreRepresentationBitmap then some payload else none)
              offset count 0 block.cumulativeCandidates addresses block.slotCount.toNat
        copyBlocks file header offset count (index + 1) addresses left
    else ok addresses

/-- `searchStoreReadAddresses` with room for `count` addresses: those copied, and the total. -/
def searchStoreReadAddresses {Path : Type} (device : Bool) (dir : Directory Path) (path : Path)
    (offset count : UInt64) : StoreResult (List UInt64 × UInt64) := do
  let reader ← searchStoreReaderOpen device dir path
  let total := reader.header.candidateCount
  if offset ≥ total || count == 0 then ok ([], total)
  else
    let blockCount := reader.header.blockCount.toNat
    let (low, file) ← findBlock reader.file reader.header offset 0 blockCount
    let addresses ← copyBlocks file reader.header offset count.toNat low [] (blockCount - low)
    ok (addresses, total)

end SysAgent
