import Mathlib
import SysAgent.Lib.ByteMask
import SysAgent.Lib.Codec
import SysAgent.Lib.Stdio

set_option autoImplicit false

/-! # The session file (`search_store.h`, `search_store.c`)

A header, the blocks, and an index with an entry for each block. The structures are written as they
lie in memory, little-endian and without padding. -/

namespace SysAgent

def SEARCH_STORE_MAGIC : UInt32 := 0x53425343
def SEARCH_STORE_VERSION : UInt16 := 1
def SEARCH_STORE_BLOCK_MAGIC : UInt32 := 0x4B4C4243

def StoreRepresentationAll : UInt8 := 1
def StoreRepresentationBitmap : UInt8 := 2
def StoreRepresentationSparse : UInt8 := 3
def StoreMaximumPayload : Nat := 0x50000

structure SearchStoreMetadata where
  processId : UInt64
  titleId : UInt64
  start : UInt64
  finish : UInt64
  regionBase : UInt64
  regionOffset : UInt64
  alignment : UInt64
  generation : UInt64
  type : UInt32
  region : UInt32
  backend : UInt32
  width : UInt32
  buildId : Vector UInt8 32
  deriving DecidableEq

structure SearchStoreHeader where
  magic : UInt32
  version : UInt16
  headerSize : UInt16
  metadata : SearchStoreMetadata
  candidateCount : UInt64
  blockCount : UInt64
  indexOffset : UInt64
  dataBytes : UInt64
  headerCrc : UInt32
  reserved : UInt32
  deriving DecidableEq

structure SearchStoreBlockHeader where
  magic : UInt32
  representation : UInt8
  width : UInt8
  reserved : UInt16
  base : UInt64
  cumulativeCandidates : UInt64
  slotCount : UInt32
  candidateCount : UInt32
  payloadSize : UInt32
  payloadCrc : UInt32
  deriving DecidableEq

structure SearchStoreIndexEntry where
  fileOffset : UInt64
  cumulativeCandidates : UInt64
  base : UInt64
  slotCount : UInt32
  candidateCount : UInt32
  deriving DecidableEq

/-! ## Layout -/

open Codec in
def metadataCodec : Codec SearchStoreMetadata :=
  (Codec.u64.pair <| Codec.u64.pair <| Codec.u64.pair <| Codec.u64.pair <| Codec.u64.pair <|
    Codec.u64.pair <| Codec.u64.pair <| Codec.u64.pair <| u32.pair <| u32.pair <| u32.pair <|
    u32.pair <| bytes 32).iso
    (fun (processId, titleId, start, finish, regionBase, regionOffset, alignment, generation,
        type, region, backend, width, buildId) =>
      { processId, titleId, start, finish, regionBase, regionOffset, alignment, generation,
        type, region, backend, width, buildId })
    (fun m => (m.processId, m.titleId, m.start, m.finish, m.regionBase, m.regionOffset,
      m.alignment, m.generation, m.type, m.region, m.backend, m.width, m.buildId))
    (fun _ => rfl)

open Codec in
def headerCodec : Codec SearchStoreHeader :=
  (u32.pair <| u16.pair <| u16.pair <| metadataCodec.pair <| Codec.u64.pair <| Codec.u64.pair <|
    Codec.u64.pair <| Codec.u64.pair <| u32.pair u32).iso
    (fun (magic, version, headerSize, metadata, candidateCount, blockCount, indexOffset, dataBytes,
        headerCrc, reserved) =>
      { magic, version, headerSize, metadata, candidateCount, blockCount, indexOffset, dataBytes,
        headerCrc, reserved })
    (fun h => (h.magic, h.version, h.headerSize, h.metadata, h.candidateCount, h.blockCount,
      h.indexOffset, h.dataBytes, h.headerCrc, h.reserved))
    (fun _ => rfl)

open Codec in
def blockCodec : Codec SearchStoreBlockHeader :=
  (u32.pair <| u8.pair <| u8.pair <| u16.pair <| Codec.u64.pair <| Codec.u64.pair <| u32.pair <|
    u32.pair <| u32.pair u32).iso
    (fun (magic, representation, width, reserved, base, cumulativeCandidates, slotCount,
        candidateCount, payloadSize, payloadCrc) =>
      { magic, representation, width, reserved, base, cumulativeCandidates, slotCount,
        candidateCount, payloadSize, payloadCrc })
    (fun b => (b.magic, b.representation, b.width, b.reserved, b.base, b.cumulativeCandidates,
      b.slotCount, b.candidateCount, b.payloadSize, b.payloadCrc))
    (fun _ => rfl)

open Codec in
def indexCodec : Codec SearchStoreIndexEntry :=
  (Codec.u64.pair <| Codec.u64.pair <| Codec.u64.pair <| u32.pair u32).iso
    (fun (fileOffset, cumulativeCandidates, base, slotCount, candidateCount) =>
      { fileOffset, cumulativeCandidates, base, slotCount, candidateCount })
    (fun e => (e.fileOffset, e.cumulativeCandidates, e.base, e.slotCount, e.candidateCount))
    (fun _ => rfl)

def sizeofHeader : Nat := 160
def sizeofBlockHeader : Nat := 40
def sizeofIndexEntry : Nat := 32

@[simp] theorem headerCodec_size : headerCodec.size = sizeofHeader := rfl
@[simp] theorem blockCodec_size : blockCodec.size = sizeofBlockHeader := rfl
@[simp] theorem indexCodec_size : indexCodec.size = sizeofIndexEntry := rfl

/-! ## Items in a file -/

/-- An offset in a file is a `uint64_t`. -/
theorem toNat_ofNat_offset {n : Nat} (h : n ≤ Stdio.LONG_MAX) : (UInt64.ofNat n).toNat = n := by
  have hmax : Stdio.LONG_MAX < 2 ^ 64 := by decide
  rw [UInt64.toNat_ofNat', Nat.mod_eq_of_lt (by omega)]

/-- Going to an item. -/
theorem seekSet_offset {f : Stdio.File} {before after : List UInt8}
    (hcontent : f.content = before ++ after) (hle : f.content.length ≤ Stdio.LONG_MAX) :
    f.seekSet (UInt64.ofNat before.length).toNat = some { f with position := before.length } := by
  have hbefore : before.length ≤ Stdio.LONG_MAX := by
    rw [hcontent, List.length_append] at hle
    omega
  rw [toNat_ofNat_offset hbefore, Stdio.File.seekSet_eq hbefore]

/-- Reading it. -/
theorem read_encoded {α : Type} (codec : Codec α) {a : α} {f : Stdio.File}
    {before after : List UInt8} (hcontent : f.content = before ++ codec.encode a ++ after)
    (hposition : f.position = before.length) :
    f.read codec.size =
      some (codec.encode a, { f with position := before.length + codec.size }) := by
  have hread := Stdio.File.read_at hcontent hposition
  rwa [codec.length_encode] at hread

/-! ## Checksums -/

/-- One bit of `searchStoreCrc32`. -/
def crcBit (crc : UInt32) : UInt32 :=
  (crc >>> 1) ^^^ (if crc &&& 1 == 1 then 0xEDB88320 else 0)

def searchStoreCrc32 (data : List UInt8) : UInt32 :=
  ~~~(data.foldl (fun crc byte => crcBit^[8] (crc ^^^ byte.toUInt32)) 0xFFFFFFFF)

def headerCrc (header : SearchStoreHeader) : UInt32 :=
  searchStoreCrc32 (headerCodec.encode { header with headerCrc := 0 })

/-! ## Masks and values -/

/-- `bitIsSet`. -/
def bitIsSet (mask : List UInt8) (index : Nat) : Bool :=
  mask.getD (index / 8) 0 &&& ByteMask.bit index != 0

theorem bitIsSet_eq (mask : List UInt8) (index : Nat) :
    bitIsSet mask index = ByteMask.test mask index :=
  ByteMask.and_bit_ne_zero _ _

/-- `(slotCount + 7u) / 8u`, where the sum is a `uint32_t`. -/
def maskBytes (slotCount : UInt32) : Nat :=
  ((slotCount + 7) / 8).toNat

/-- The `width` bytes of one slot. -/
def slotValue (values : List UInt8) (width slot : Nat) : List UInt8 :=
  (values.drop (slot * width)).take width

theorem length_slotValue {values : List UInt8} {width slot slots : Nat} (hslot : slot < slots)
    (hlen : slots * width ≤ values.length) : (slotValue values width slot).length = width := by
  have hle : (slot + 1) * width ≤ slots * width := Nat.mul_le_mul_right _ hslot
  rw [Nat.succ_mul] at hle
  simp only [slotValue, List.length_take, List.length_drop]
  omega

end SysAgent
