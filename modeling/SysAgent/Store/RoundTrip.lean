import SysAgent.Store.Image
import SysAgent.Store.Decode

set_option autoImplicit false

/-! # Reading back what was written (`search_store.c`)

The reader that is opened on a session file walks over its blocks; `readerAt` is the reader behind
some of them. A block reads back as the call that wrote it, but for its mask: a bitmap is stored as
it was given, with the bits behind the last slot, and the number of its bytes wraps around with the
`uint32_t` in which it is computed. -/

namespace SysAgent

open StoreResult

/-! ## The image -/

section Image

variable {metadata : SearchStoreMetadata}

/-- The reader of a session file behind the blocks `before`. -/
def readerAt (metadata : SearchStoreMetadata) (blocks before : List StoredBlock) (position : Nat) :
    SearchStoreReader where
  file := { content := imageBytes metadata blocks, position := position }
  header := finalHeader (imageHeader metadata blocks)
  nextBlock := UInt64.ofNat before.length
  nextOffset := UInt64.ofNat (sizeofHeader + (blocksBytes before).length)

@[simp] theorem finalHeader_metadata (header : SearchStoreHeader) :
    (finalHeader header).metadata = header.metadata := rfl

@[simp] theorem finalHeader_candidateCount (header : SearchStoreHeader) :
    (finalHeader header).candidateCount = header.candidateCount := rfl

@[simp] theorem finalHeader_blockCount (header : SearchStoreHeader) :
    (finalHeader header).blockCount = header.blockCount := rfl

theorem headerAccepted_final (hwidth : metadata.width ≠ 0) (hwidth8 : metadata.width ≤ 8)
    (blocks : List StoredBlock) :
    headerAccepted (finalHeader (imageHeader metadata blocks)) = true := by
  have hcrc : (finalHeader (imageHeader metadata blocks)).headerCrc =
      headerCrc (finalHeader (imageHeader metadata blocks)) := rfl
  unfold headerAccepted
  rw [← hcrc]
  simp only [Bool.and_eq_true, bne_iff_ne, ne_eq, decide_eq_true_eq, beq_self_eq_true, and_true]
  simp only [finalHeader_metadata, imageHeader_metadata]
  exact ⟨⟨⟨⟨rfl, rfl⟩, rfl⟩, hwidth⟩, hwidth8⟩

/-- The lengths that the header of a file within `LONG_MAX` holds. -/
structure ImageSizes (metadata : SearchStoreMetadata) (blocks : List StoredBlock) : Prop where
  blockCount : (imageHeader metadata blocks).blockCount.toNat = blocks.length
  indexOffset : (finalHeader (imageHeader metadata blocks)).indexOffset.toNat =
    sizeofHeader + (blocksBytes blocks).length
  total : sizeofHeader + (blocksBytes blocks).length + sizeofIndexEntry * blocks.length ≤
    Stdio.LONG_MAX

theorem imageSizes {blocks : List StoredBlock}
    (hle : (imageBytes metadata blocks).length ≤ Stdio.LONG_MAX) : ImageSizes metadata blocks := by
  rw [length_imageBytes] at hle
  have hmul : blocks.length ≤ sizeofIndexEntry * blocks.length :=
    Nat.le_mul_of_pos_left _ (by decide)
  refine ⟨toNat_ofNat_offset (by omega), ?_, hle⟩
  have hsum : (finalHeader (imageHeader metadata blocks)).indexOffset =
      UInt64.ofNat (sizeofHeader + (blocksBytes blocks).length) := by
    rw [UInt64.ofNat_add]
    rfl
  rw [hsum]
  exact toNat_ofNat_offset (by omega)

theorem sizeAccepted_final {blocks : List StoredBlock} (sizes : ImageSizes metadata blocks) :
    sizeAccepted (finalHeader (imageHeader metadata blocks))
      (imageBytes metadata blocks).length = true := by
  have htotal := sizes.total
  have hmax : Stdio.LONG_MAX < 2 ^ 63 := by decide
  have hcomm : blocks.length * sizeofIndexEntry = sizeofIndexEntry * blocks.length :=
    Nat.mul_comm _ _
  unfold sizeAccepted
  rw [finalHeader_blockCount, sizes.blockCount, sizes.indexOffset, length_imageBytes]
  simp only [Bool.and_eq_true, decide_eq_true_eq, beq_iff_eq]
  refine ⟨⟨⟨⟨rfl, ?_⟩, ?_⟩, htotal⟩, ?_⟩
  · rw [Nat.le_div_iff_mul_le (by decide)]
    omega
  · omega
  · omega

/-- `searchStoreReaderOpen` accepts the image. -/
theorem searchStoreReaderOpen_image {Path : Type} {dir : Directory Path} {path : Path}
    {blocks : List StoredBlock} (hwidth : metadata.width ≠ 0) (hwidth8 : metadata.width ≤ 8)
    (hdir : dir path = some (imageBytes metadata blocks))
    (hle : (imageBytes metadata blocks).length ≤ Stdio.LONG_MAX) :
    searchStoreReaderOpen true dir path =
      ok (readerAt metadata blocks [] (imageBytes metadata blocks).length) := by
  have hcontent : (Stdio.File.opened (imageBytes metadata blocks)).content =
      [] ++ headerCodec.encode (finalHeader (imageHeader metadata blocks)) ++
        (blocksBytes blocks ++ indexBytes (indexEntries sizeofHeader blocks)) := by
    rw [List.nil_append, ← List.append_assoc]
    rfl
  have hread := read_encoded headerCodec hcontent rfl
  rw [headerCodec_size] at hread
  unfold searchStoreReaderOpen
  rw [require_true, hdir]
  simp only [ok_bind, ofOption_some, hread, Codec.decode_encode,
    headerAccepted_final hwidth hwidth8, require_true, Stdio.File.seekEnd_position]
  have hsize := sizeAccepted_final (imageSizes hle)
  simp only [Stdio.File.opened, hsize, require_true, ok_bind]
  rfl

end Image

/-! ## Blocks -/

namespace BlockCall

/-- Every candidate takes a byte of the payload. -/
theorem length_slots_le_payloadSize {width : Nat} (hwidth : 0 < width) (call : BlockCall width) :
    call.slots.length ≤ call.payloadSize := by
  have hslots := call.length_slots_le
  have hvalues := Nat.le_mul_of_pos_right call.slotCount.toNat hwidth
  rcases call.representation_cases with ⟨-, -, hsize⟩ | ⟨-, -, hsize⟩ | ⟨-, -, hsize⟩
  · rw [hsize]
    omega
  · rw [hsize]
    omega
  · rw [hsize]
    exact Nat.le_mul_of_pos_right _ (by omega)

end BlockCall

section Blocks

variable {metadata : SearchStoreMetadata} {blocks before after : List StoredBlock}
  {call : BlockCall metadata.width.toNat} {cumulative : Nat}

/-- The block header that a call writes passes the reader's checks. -/
theorem blockAccepted_stored (hwidth : metadata.width ≠ 0) (hwidth8 : metadata.width ≤ 8)
    (sizes : ImageSizes metadata blocks)
    (hblocks : blocks = before ++ call.stored cumulative :: after)
    (hsize : call.payloadSize ≤ StoreMaximumPayload) (hslots : call.slots ≠ []) :
    blockAccepted (finalHeader (imageHeader metadata blocks))
      (UInt64.ofNat (sizeofHeader + (blocksBytes before).length))
      (call.stored cumulative).header = true := by
  have hmax : StoreMaximumPayload < 2 ^ 32 := by decide
  have hpos := List.length_pos_of_ne_nil hslots
  have hwidthNat : metadata.width.toNat ≠ 0 := fun h => hwidth (UInt32.toNat_inj.1 h)
  have hwidth8Nat : metadata.width.toNat ≤ 8 := UInt32.le_iff_toNat_le.1 hwidth8
  have hcandidates := call.length_slots_le_payloadSize (Nat.pos_of_ne_zero hwidthNat)
  have hpayload := BlockCall.stored_payloadSize (lt_of_le_of_lt hsize hmax) cumulative
  have hcount := call.stored_candidateCount cumulative
  have hslotCount : (call.stored cumulative).header.slotCount = call.slotCount := by
    rw [BlockCall.stored_header]
  have hbytes : (blocksBytes blocks).length = (blocksBytes before).length +
      (sizeofBlockHeader + call.payloadSize) + (blocksBytes after).length := by
    rw [hblocks, blocksBytes_append, blocksBytes_cons, List.length_append, List.length_append,
      StoredBlock.length_bytes, ← call.length_payload]
    exact (Nat.add_assoc _ _ _).symm
  have htotal := sizes.total
  have hoffset : (UInt64.ofNat (sizeofHeader + (blocksBytes before).length)).toNat =
      sizeofHeader + (blocksBytes before).length := toNat_ofNat_offset (by omega)
  have hwidthField : (call.stored cumulative).header.width.toUInt32 = metadata.width := by
    rw [BlockCall.stored_header]
    apply UInt32.toNat_inj.1
    rw [UInt8.toNat_toUInt32]
    exact UInt8.toNat_ofNat_of_lt (lt_of_le_of_lt hwidth8Nat (by decide))
  have hmagic : (call.stored cumulative).header.magic = SEARCH_STORE_BLOCK_MAGIC := by
    rw [BlockCall.stored_header]
  unfold blockAccepted
  simp only [Bool.and_eq_true, beq_iff_eq, bne_iff_ne, ne_eq, decide_eq_true_eq]
  refine ⟨⟨⟨⟨⟨⟨⟨⟨hmagic, hwidthField⟩, ?_⟩, ?_⟩, ?_⟩, ?_⟩, ?_⟩, ?_⟩, ?_⟩
  · rw [hslotCount]
    exact call.slots_pos
  · intro hzero
    rw [hzero] at hcount
    exact absurd hcount.symm (Nat.pos_iff_ne_zero.1 hpos)
  · rw [UInt32.le_iff_toNat_le, hcount, hslotCount]
    exact call.length_slots_le
  · intro hzero
    rw [hzero] at hpayload
    have hnone : call.payloadSize = 0 := hpayload.symm
    omega
  · rw [hpayload]
    exact hsize
  · rw [UInt64.le_iff_toNat_le, hoffset, sizes.indexOffset]
    omega
  · rw [hpayload, hoffset, sizes.indexOffset]
    omega

/-- The header of a block of the image. -/
theorem readBlockHeader_image {b : StoredBlock} (hblocks : blocks = before ++ b :: after)
    (hle : (imageBytes metadata blocks).length ≤ Stdio.LONG_MAX) (position : Nat) :
    readBlockHeader ⟨imageBytes metadata blocks, position⟩
        (UInt64.ofNat (sizeofHeader + (blocksBytes before).length)) =
      ok (b.header, ⟨imageBytes metadata blocks,
        sizeofHeader + (blocksBytes before).length + sizeofBlockHeader⟩) := by
  have hfront : (headerCodec.encode (finalHeader (imageHeader metadata blocks)) ++
      blocksBytes before).length = sizeofHeader + (blocksBytes before).length := by
    rw [List.length_append, headerCodec.length_encode, headerCodec_size]
  have hcontent : (⟨imageBytes metadata blocks, position⟩ : Stdio.File).content =
      (headerCodec.encode (finalHeader (imageHeader metadata blocks)) ++ blocksBytes before) ++
        blockCodec.encode b.header ++ (b.payload ++ (blocksBytes after ++
          indexBytes (indexEntries sizeofHeader blocks))) := by
    simp only [imageBytes]
    nth_rewrite 2 [hblocks]
    simp only [blocksBytes_append, blocksBytes_cons, StoredBlock.bytes, List.append_assoc]
  have hseek := seekSet_offset (hcontent.trans (List.append_assoc _ _ _)) hle
  rw [hfront] at hseek
  have hread := read_encoded blockCodec
    (f := ⟨imageBytes metadata blocks, sizeofHeader + (blocksBytes before).length⟩) hcontent
    hfront.symm
  rw [blockCodec_size, hfront] at hread
  unfold readBlockHeader
  simp only [hseek, ofOption_some, ok_bind, hread, Codec.decode_encode]

/-- The payload behind it. -/
theorem readPayload_image {b : StoredBlock} (hblocks : blocks = before ++ b :: after)
    (hsound : b.Sound) :
    readPayload ⟨imageBytes metadata blocks,
        sizeofHeader + (blocksBytes before).length + sizeofBlockHeader⟩ b.header =
      ok (b.payload, ⟨imageBytes metadata blocks,
        sizeofHeader + (blocksBytes before).length + sizeofBlockHeader + b.payload.length⟩) := by
  have hfront : (headerCodec.encode (finalHeader (imageHeader metadata blocks)) ++
      blocksBytes before ++ blockCodec.encode b.header).length =
        sizeofHeader + (blocksBytes before).length + sizeofBlockHeader := by
    rw [List.length_append, List.length_append, headerCodec.length_encode, headerCodec_size,
      blockCodec.length_encode, blockCodec_size]
  have hcontent : imageBytes metadata blocks =
      (headerCodec.encode (finalHeader (imageHeader metadata blocks)) ++ blocksBytes before ++
        blockCodec.encode b.header) ++ b.payload ++ (blocksBytes after ++
          indexBytes (indexEntries sizeofHeader blocks)) := by
    simp only [imageBytes]
    nth_rewrite 2 [hblocks]
    simp only [blocksBytes_append, blocksBytes_cons, StoredBlock.bytes, List.append_assoc]
  have hread := Stdio.File.read_at (f := ⟨imageBytes metadata blocks,
    sizeofHeader + (blocksBytes before).length + sizeofBlockHeader⟩) hcontent hfront.symm
  rw [hfront] at hread
  unfold readPayload
  rw [hsound.size, hread]
  simp only [ofOption_some, ok_bind]
  rw [hsound.crc, beq_self_eq_true, require_true, ok_bind]

/-- `searchStoreReaderNext` reads the next block, in buffers that hold anything. -/
theorem searchStoreReaderNext_image (hwidth : metadata.width ≠ 0) (hwidth8 : metadata.width ≤ 8)
    (hle : (imageBytes metadata blocks).length ≤ Stdio.LONG_MAX)
    (hblocks : blocks = before ++ call.stored cumulative :: after)
    (hsize : call.payloadSize ≤ StoreMaximumPayload) (hslots : call.slots ≠ [])
    (position : Nat) {values mask : List UInt8}
    (hvalues : call.slotCount.toNat * metadata.width.toNat ≤ values.length)
    (hmask : (call.slotCount.toNat + 7) / 8 ≤ mask.length) :
    ∃ values' mask' position',
      searchStoreReaderNext true (readerAt metadata blocks before position) values mask =
        ok (⟨(call.stored cumulative).header, values', mask'⟩,
          readerAt metadata blocks (before ++ [call.stored cumulative]) position') ∧
      (∀ slot ∈ call.slots, slotValue values' metadata.width.toNat slot =
        slotValue call.values metadata.width.toNat slot) ∧
      ∀ i, ByteMask.test mask' i = call.decodedBit mask i := by
  have hmax : StoreMaximumPayload < 2 ^ 32 := by decide
  have hwidthNat : metadata.width.toNat ≠ 0 := fun h => hwidth (UInt32.toNat_inj.1 h)
  have hwidth8Nat : metadata.width.toNat ≤ 8 := UInt32.le_iff_toNat_le.1 hwidth8
  have sizes := imageSizes hle
  have htotal := sizes.total
  have hsound := BlockCall.stored_sound (lt_of_le_of_lt hsize hmax) cumulative
  obtain ⟨values', mask', hdecode, -, -, hslotValues, hbits⟩ :=
    BlockCall.decodeBlock_stored (Nat.pos_of_ne_zero hwidthNat) hwidth8Nat hsize hvalues hmask
  have hmore : (readerAt metadata blocks before position).nextBlock <
      (readerAt metadata blocks before position).header.blockCount := by
    have hlength : blocks.length = before.length + (after.length + 1) := by
      rw [hblocks, List.length_append, List.length_cons]
    have hmul : blocks.length ≤ sizeofIndexEntry * blocks.length :=
      Nat.le_mul_of_pos_left _ (by decide)
    rw [UInt64.lt_iff_toNat_lt]
    simp only [readerAt, finalHeader_blockCount]
    rw [sizes.blockCount, toNat_ofNat_offset (by omega)]
    omega
  have hslotCount : (call.stored cumulative).header.slotCount = call.slotCount := by
    rw [BlockCall.stored_header]
  have hblockWidth : (call.stored cumulative).header.width.toNat = metadata.width.toNat := by
    rw [BlockCall.stored_header]
    exact UInt8.toNat_ofNat_of_lt (lt_of_le_of_lt hwidth8Nat (by decide))
  have hroom : (decide ((call.stored cumulative).header.slotCount.toNat *
      (call.stored cumulative).header.width.toNat ≤ values.length) &&
      decide (maskBytes (call.stored cumulative).header.slotCount ≤ mask.length)) = true := by
    have hbytes := BlockCall.maskBytes_le call.slotCount
    rw [hslotCount, hblockWidth, Bool.and_eq_true, decide_eq_true_eq, decide_eq_true_eq]
    exact ⟨hvalues, by omega⟩
  have hpayload : (call.stored cumulative).payload = call.payload := rfl
  suffices hnext : ∃ position', searchStoreReaderNext true
      (readerAt metadata blocks before position) values mask = ok (⟨(call.stored cumulative).header, values', mask'⟩,
        readerAt metadata blocks (before ++ [call.stored cumulative]) position') by
    obtain ⟨position', hnext⟩ := hnext
    exact ⟨values', mask', position', hnext, hslotValues, hbits⟩
  unfold searchStoreReaderNext
  rw [decide_eq_true hmore, require_true]
  simp only [ok_bind]
  have hheader : readBlockHeader (readerAt metadata blocks before position).file
      (readerAt metadata blocks before position).nextOffset = _ :=
    readBlockHeader_image hblocks hle position
  rw [hheader]
  simp only [ok_bind]
  have haccepted : blockAccepted (readerAt metadata blocks before position).header
      (readerAt metadata blocks before position).nextOffset
        (call.stored cumulative).header = true :=
    blockAccepted_stored hwidth hwidth8 sizes hblocks hsize hslots
  rw [haccepted, require_true]
  simp only [ok_bind]
  rw [readPayload_image hblocks hsound]
  simp only [ok_bind]
  rw [hroom, require_true, hpayload]
  simp only [ok_bind]
  rw [hdecode]
  simp only [ok_bind]
  have hnextBlock : UInt64.ofNat (before ++ [call.stored cumulative]).length =
      UInt64.ofNat before.length + 1 := by
    rw [List.length_append, List.length_singleton, UInt64.ofNat_add]
    rfl
  have hnextOffset : UInt64.ofNat (sizeofHeader +
      (blocksBytes (before ++ [call.stored cumulative])).length) =
      UInt64.ofNat (sizeofHeader + (blocksBytes before).length) +
        UInt64.ofNat (sizeofBlockHeader + (call.stored cumulative).header.payloadSize.toNat) := by
    rw [hsound.size, ← UInt64.ofNat_add, blocksBytes_append, blocksBytes_cons, blocksBytes_nil,
      List.append_nil, List.length_append, StoredBlock.length_bytes, Nat.add_assoc]
  simp only [readerAt, hnextBlock, hnextOffset]
  exact ⟨_, rfl⟩

/-- Behind the last block there is none. -/
theorem searchStoreReaderNext_end (metadata : SearchStoreMetadata) (blocks : List StoredBlock)
    (position : Nat) (values mask : List UInt8) :
    searchStoreReaderNext true (readerAt metadata blocks blocks position) values mask =
      refused := by
  have hnone : ¬ (readerAt metadata blocks blocks position).nextBlock <
      (readerAt metadata blocks blocks position).header.blockCount := by
    have hsame : (readerAt metadata blocks blocks position).nextBlock =
        (readerAt metadata blocks blocks position).header.blockCount := rfl
    rw [hsame]
    exact UInt64.lt_irrefl _
  unfold searchStoreReaderNext
  rw [decide_eq_false hnone, require_false, refused_bind]

end Blocks

/-! ## The index -/

theorem indexEntries_append (offset : Nat) (blocks more : List StoredBlock) :
    indexEntries offset (blocks ++ more) =
      indexEntries offset blocks ++ indexEntries (offset + (blocksBytes blocks).length) more := by
  induction blocks generalizing offset with
  | nil => rfl
  | cons b blocks ih =>
    rw [List.cons_append, indexEntries, ih, indexEntries, List.cons_append, blocksBytes_cons,
      List.length_append, Nat.add_assoc]

theorem indexBytes_append (entries more : List SearchStoreIndexEntry) :
    indexBytes (entries ++ more) = indexBytes entries ++ indexBytes more := by
  simp [indexBytes]

/-- The index entry of a block of the image. -/
theorem readIndexEntry_image {metadata : SearchStoreMetadata}
    {blocks before after : List StoredBlock} {b : StoredBlock} (hblocks : blocks = before ++ b :: after)
    (hle : (imageBytes metadata blocks).length ≤ Stdio.LONG_MAX) (position : Nat) :
    ∃ position', readIndexEntry ⟨imageBytes metadata blocks, position⟩
        (finalHeader (imageHeader metadata blocks)) before.length =
      ok (indexEntry (UInt64.ofNat (sizeofHeader + (blocksBytes before).length)) b.header,
        ⟨imageBytes metadata blocks, position'⟩) := by
  have sizes := imageSizes hle
  have htotal := sizes.total
  have hlength : blocks.length = before.length + (after.length + 1) := by
    rw [hblocks, List.length_append, List.length_cons]
  have hfront : (headerCodec.encode (finalHeader (imageHeader metadata blocks)) ++
      blocksBytes blocks ++ indexBytes (indexEntries sizeofHeader before)).length =
        sizeofHeader + (blocksBytes blocks).length + sizeofIndexEntry * before.length := by
    rw [List.length_append, List.length_append, headerCodec.length_encode, headerCodec_size,
      length_indexBytes, length_indexEntries]
  have hcontent : (⟨imageBytes metadata blocks, position⟩ : Stdio.File).content =
      (headerCodec.encode (finalHeader (imageHeader metadata blocks)) ++ blocksBytes blocks ++
        indexBytes (indexEntries sizeofHeader before)) ++
        indexCodec.encode (indexEntry
          (UInt64.ofNat (sizeofHeader + (blocksBytes before).length)) b.header) ++
        indexBytes (indexEntries (sizeofHeader + (blocksBytes before).length + b.bytes.length)
          after) := by
    have hentries : indexBytes (indexEntries sizeofHeader blocks) =
        indexBytes (indexEntries sizeofHeader before) ++
          (indexCodec.encode (indexEntry
            (UInt64.ofNat (sizeofHeader + (blocksBytes before).length)) b.header) ++
          indexBytes (indexEntries (sizeofHeader + (blocksBytes before).length + b.bytes.length)
            after)) := by
      rw [hblocks, indexEntries_append, indexBytes_append]
      rfl
    simp only [imageBytes, hentries, List.append_assoc]
  have hoffset : (finalHeader (imageHeader metadata blocks)).indexOffset +
      UInt64.ofNat before.length * UInt64.ofNat sizeofIndexEntry =
        UInt64.ofNat (headerCodec.encode (finalHeader (imageHeader metadata blocks)) ++
          blocksBytes blocks ++ indexBytes (indexEntries sizeofHeader before)).length := by
    rw [hfront, UInt64.ofNat_add, UInt64.ofNat_add, UInt64.ofNat_mul, UInt64.mul_comm]
    rfl
  have hseek := seekSet_offset (hcontent.trans (List.append_assoc _ _ _)) hle
  have hread := read_encoded indexCodec
    (f := ⟨imageBytes metadata blocks, (headerCodec.encode
      (finalHeader (imageHeader metadata blocks)) ++ blocksBytes blocks ++
        indexBytes (indexEntries sizeofHeader before)).length⟩) hcontent rfl
  rw [indexCodec_size] at hread
  unfold readIndexEntry
  rw [hoffset]
  simp only [hseek, ofOption_some, ok_bind, hread, Codec.decode_encode]
  exact ⟨_, rfl⟩

/-! ## A written store -/

/-- The candidates of a list of calls. -/
def candidates {width : Nat} (calls : List (BlockCall width)) : Nat :=
  (calls.map fun call => call.slots.length).sum

@[simp] theorem candidates_nil {width : Nat} : candidates ([] : List (BlockCall width)) = 0 := rfl

@[simp] theorem candidates_cons {width : Nat} (call : BlockCall width)
    (calls : List (BlockCall width)) :
    candidates (call :: calls) = call.slots.length + candidates calls := rfl

theorem candidates_append {width : Nat} (calls more : List (BlockCall width)) :
    candidates (calls ++ more) = candidates calls + candidates more := by
  simp [candidates]

/-- The calls that write a block. -/
def keptCalls {width : Nat} (calls : List (BlockCall width)) : List (BlockCall width) :=
  calls.filter fun call => decide (call.slots ≠ [])

theorem slots_ne_nil_of_kept {width : Nat} {calls : List (BlockCall width)} {call : BlockCall width}
    (h : call ∈ keptCalls calls) : call.slots ≠ [] :=
  of_decide_eq_true (List.mem_filter.1 h).2

/-- The blocks are those of the calls that write one. -/
theorem storedBlocks_keptCalls {width : Nat} (cumulative : Nat) (calls : List (BlockCall width)) :
    storedBlocks cumulative (keptCalls calls) = storedBlocks cumulative calls := by
  induction calls generalizing cumulative with
  | nil => rfl
  | cons call calls ih =>
    by_cases hnone : call.slots = []
    · have hskip : keptCalls (call :: calls) = keptCalls calls :=
        List.filter_cons_of_neg (by simp [hnone])
      rw [hskip, ih, storedBlocks, if_pos hnone]
    · have hkeep : keptCalls (call :: calls) = call :: keptCalls calls :=
        List.filter_cons_of_pos (by simp [hnone])
      rw [hkeep, storedBlocks, if_neg hnone, storedBlocks, if_neg hnone, ih]

theorem candidates_keptCalls {width : Nat} (calls : List (BlockCall width)) :
    candidates (keptCalls calls) = candidates calls := by
  induction calls with
  | nil => rfl
  | cons call calls ih =>
    by_cases hnone : call.slots = []
    · have hskip : keptCalls (call :: calls) = keptCalls calls :=
        List.filter_cons_of_neg (by simp [hnone])
      rw [hskip, ih, candidates_cons, hnone, List.length_nil, Nat.zero_add]
    · have hkeep : keptCalls (call :: calls) = call :: keptCalls calls :=
        List.filter_cons_of_pos (by simp [hnone])
      rw [hkeep, candidates_cons, candidates_cons, ih]

theorem totalCandidates_storedBlocks {width : Nat} (cumulative : Nat)
    (calls : List (BlockCall width)) :
    totalCandidates (storedBlocks cumulative calls) = candidates calls := by
  induction calls generalizing cumulative with
  | nil => rfl
  | cons call calls ih =>
    by_cases hnone : call.slots = []
    · rw [storedBlocks, if_pos hnone, ih, candidates_cons, hnone, List.length_nil, Nat.zero_add]
    · rw [storedBlocks, if_neg hnone, totalCandidates_cons, ih, candidates_cons,
        BlockCall.stored_candidateCount]

theorem length_storedBlocks {width : Nat} {cumulative : Nat} {calls : List (BlockCall width)}
    (h : ∀ call ∈ calls, call.slots ≠ []) :
    (storedBlocks cumulative calls).length = calls.length := by
  induction calls generalizing cumulative with
  | nil => rfl
  | cons call calls ih =>
    rw [storedBlocks, if_neg (h call List.mem_cons_self), List.length_cons, List.length_cons,
      ih fun other hother => h other (List.mem_cons_of_mem _ hother)]

/-- Every candidate takes a byte of the file. -/
theorem candidates_le {width : Nat} (hwidth : 0 < width) (cumulative : Nat)
    (calls : List (BlockCall width)) :
    candidates calls ≤ (blocksBytes (storedBlocks cumulative calls)).length := by
  induction calls generalizing cumulative with
  | nil => exact Nat.zero_le _
  | cons call calls ih =>
    by_cases hnone : call.slots = []
    · rw [storedBlocks, if_pos hnone, candidates_cons, hnone, List.length_nil, Nat.zero_add]
      exact ih cumulative
    · have hrest := ih (cumulative + call.slots.length)
      have hcall := call.length_slots_le_payloadSize hwidth
      have hpayload : (call.stored cumulative).payload.length = call.payloadSize :=
        call.length_payload
      rw [storedBlocks, if_neg hnone, candidates_cons, blocksBytes_cons, List.length_append,
        StoredBlock.length_bytes, hpayload]
      omega

section Written

variable {Path : Type} [DecidableEq Path] {metadata : SearchStoreMetadata}

/-- The calls of `searchStoreWriterAddBlock` one after the other, as long as they succeed. -/
def addBlocks {width : Nat} (writer : SearchStoreWriter Path) :
    List (AddBlockAnswers × BlockCall width) → Option (SearchStoreWriter Path)
  | [] => some writer
  | (io, call) :: rest =>
    match searchStoreWriterAddBlock io writer call.base call.slotCount call.values call.mask with
    | (true, writer) => addBlocks writer rest
    | (false, _) => none

/-- A store is opened, every call succeeds, and it is finished. -/
def StoreWritten (metadata : SearchStoreMetadata) (calls : List (BlockCall metadata.width.toNat))
    (path : Path) (dir' : Directory Path) : Prop :=
  ∃ (dir dir₁ : Directory Path) (ioOpen : WriterOpenAnswers)
    (answered : List (AddBlockAnswers × BlockCall metadata.width.toNat)) (ioFinish : FinishAnswers)
    (opened added finished : SearchStoreWriter Path),
    searchStoreWriterOpen ioOpen dir path metadata = (true, dir₁, opened) ∧
    answered.map Prod.snd = calls ∧ addBlocks opened answered = some added ∧
    searchStoreWriterFinish ioFinish dir₁ added = (true, dir', finished)

omit [DecidableEq Path] in
theorem addBlocks_ok {path : Path} {blocks : List StoredBlock}
    {writer writer' : SearchStoreWriter Path}
    {answered : List (AddBlockAnswers × BlockCall metadata.width.toNat)}
    (hold : WriterHolds metadata blocks path writer)
    (h : addBlocks writer answered = some writer') :
    WriterHolds metadata
      (blocks ++ storedBlocks (totalCandidates blocks) (answered.map Prod.snd)) path writer' := by
  induction answered generalizing blocks writer with
  | nil =>
    obtain rfl := Option.some.inj h
    rw [List.map_nil, storedBlocks, List.append_nil]
    exact hold
  | cons answer rest ih =>
    obtain ⟨io, call⟩ := answer
    rw [addBlocks] at h
    split at h
    · rename_i next hadd
      have hnext := ih (searchStoreWriterAddBlock_ok hold hadd) h
      rw [List.append_assoc, totalCandidates_append] at hnext
      have hsplit := storedBlocks_append (totalCandidates blocks) [call] (rest.map Prod.snd)
      rw [List.map_cons, ← List.singleton_append, hsplit]
      exact hnext
    · cases h

/-- A written store is the image of its calls. -/
theorem storeWritten_image {calls : List (BlockCall metadata.width.toNat)} {path : Path}
    {dir' : Directory Path} (h : StoreWritten metadata calls path dir') :
    dir' path = some (imageBytes metadata (storedBlocks 0 calls)) ∧
      (imageBytes metadata (storedBlocks 0 calls)).length ≤ Stdio.LONG_MAX := by
  obtain ⟨dir, dir₁, ioOpen, answered, ioFinish, opened, added, finished, hopen, hcalls, hadd,
    hfinish⟩ := h
  have hold := addBlocks_ok (searchStoreWriterOpen_ok hopen).1 hadd
  rw [List.nil_append, totalCandidates_nil, hcalls] at hold
  obtain ⟨rfl, hle⟩ := searchStoreWriterFinish_ok hold hfinish
  exact ⟨Function.update_self _ _ _, hle⟩

end Written

/-! ## The round trip -/

/-- The number of mask bytes for the slots of a call. -/
def BlockCall.neededMask {width : Nat} (call : BlockCall width) : Nat :=
  (call.slotCount.toNat + 7) / 8

/-- The number of mask bytes does not wrap around, and a mask that is stored as a bitmap has no bits
    behind the last slot. -/
structure BlockCall.Clean {width : Nat} (call : BlockCall width) : Prop where
  noWrap : call.slotCount.toNat + 7 < 2 ^ 32
  padding : call.representation = StoreRepresentationBitmap → ∀ m, call.mask = some m →
    ∀ i, call.slotCount.toNat ≤ i → i < 8 * call.neededMask → ByteMask.test m i = false

/-- A block that was read is the call that wrote it behind `cumulative` candidates. -/
structure ReadsAs {width : Nat} (call : BlockCall width) (cumulative : Nat)
    (block : DecodedBlock) : Prop where
  base : block.header.base = call.base
  slotCount : block.header.slotCount = call.slotCount
  candidateCount : block.header.candidateCount.toNat = call.slots.length
  cumulative : block.header.cumulativeCandidates.toNat = cumulative
  mask : ∀ i < 8 * call.neededMask, ByteMask.test block.mask i = decide (i ∈ call.slots)
  values : ∀ slot ∈ call.slots,
    slotValue block.values width slot = slotValue call.values width slot

/-- Repeated `searchStoreReaderNext`, with buffers that are large enough and hold anything, yields
    the calls and then no block. -/
def Yields {width : Nat} (cumulative : Nat) :
    List (BlockCall width) → SearchStoreReader → Prop
  | [], reader => ∀ values mask, searchStoreReaderNext true reader values mask = refused
  | call :: calls, reader => ∀ values mask,
    call.slotCount.toNat * width ≤ values.length → call.neededMask ≤ mask.length →
      ∃ block reader', searchStoreReaderNext true reader values mask = ok (block, reader') ∧
        ReadsAs call cumulative block ∧ Yields (cumulative + call.slots.length) calls reader'

/-- The store reads back as the calls that wrote it. -/
def RoundTrip {Path : Type} (metadata : SearchStoreMetadata)
    (calls : List (BlockCall metadata.width.toNat)) (path : Path) (dir : Directory Path) : Prop :=
  ∃ reader, searchStoreReaderOpen true dir path = ok reader ∧
    reader.header.metadata = metadata ∧
    reader.header.candidateCount.toNat = candidates calls ∧
    Yields 0 (keptCalls calls) reader ∧
    ∀ before call after, keptCalls calls = before ++ call :: after →
      ∃ entry file, readIndexEntry reader.file reader.header before.length = ok (entry, file) ∧
        entry.cumulativeCandidates.toNat = candidates before ∧ entry.base = call.base ∧
        entry.slotCount = call.slotCount ∧ entry.candidateCount.toNat = call.slots.length

namespace BlockCall

variable {width : Nat} {call : BlockCall width}

/-- Without the wrap-around the bits of the slots decode as they were given. -/
theorem decodedBit_of_slot (hnoWrap : call.slotCount.toNat + 7 < 2 ^ 32) (mask : List UInt8)
    {slot : Nat} (hslot : slot < call.slotCount.toNat) :
    call.decodedBit mask slot = decide (slot ∈ call.slots) := by
  have hbytes : maskBytes call.slotCount = (call.slotCount.toNat + 7) / 8 := by
    rw [maskBytes_eq, Nat.mod_eq_of_lt hnoWrap]
  unfold decodedBit
  rw [hbytes, if_pos (by omega)]
  split_ifs with hbitmap
  · rcases call.representation_cases with ⟨-, hrep, -⟩ | ⟨hne, -, -⟩ | ⟨-, hrep, -⟩
    · rw [hrep] at hbitmap
      exact absurd hbitmap (by decide)
    · obtain ⟨m, hm⟩ := mask_of_length_ne hne
      rw [hm, Option.getD_some, Bool.eq_iff_iff, decide_eq_true_iff, mem_slots, hm]
      exact ⟨fun htest => ⟨hslot, fun m' h' => Option.some.inj h' ▸ htest⟩, fun h => h.2 m rfl⟩
    · rw [hrep] at hbitmap
      exact absurd hbitmap (by decide)
  · rfl

/-- A clean mask decodes as it was given, whatever the buffer held. -/
theorem decodedBit_of_clean (h : call.Clean) (mask : List UInt8) {i : Nat}
    (hi : i < 8 * call.neededMask) : call.decodedBit mask i = decide (i ∈ call.slots) := by
  by_cases hslot : i < call.slotCount.toNat
  · exact decodedBit_of_slot h.noWrap mask hslot
  · have hbytes : maskBytes call.slotCount = call.neededMask := by
      rw [maskBytes_eq, Nat.mod_eq_of_lt h.noWrap]
      rfl
    have hnone : i ∉ call.slots := fun hmem => hslot (mem_slots.1 hmem).1
    unfold decodedBit
    rw [hbytes, if_pos hi]
    split_ifs with hbitmap
    · rcases call.representation_cases with ⟨-, hrep, -⟩ | ⟨hne, -, -⟩ | ⟨-, hrep, -⟩
      · rw [hrep] at hbitmap
        exact absurd hbitmap (by decide)
      · obtain ⟨m, hm⟩ := mask_of_length_ne hne
        rw [hm, Option.getD_some, h.padding hbitmap m hm i (by omega) hi]
        exact (decide_eq_false hnone).symm
      · rw [hrep] at hbitmap
        exact absurd hbitmap (by decide)
    · rfl

/-- If the mask decodes as it was given in every buffer, it is clean. -/
theorem clean_of_decodedBit (hwidth : 0 < width)
    (hsize : call.payloadSize ≤ StoreMaximumPayload)
    (h : ∀ mask : List UInt8, call.neededMask ≤ mask.length →
      ∀ i < 8 * call.neededMask, call.decodedBit mask i = decide (i ∈ call.slots)) :
    call.Clean where
  noWrap := by
    by_contra hwrap
    -- a buffer of ones: a slot that is no candidate stays set
    have hslots := call.length_slots_le_payloadSize hwidth
    have hmax : StoreMaximumPayload + 7 < 2 ^ 32 := by decide
    have hlt := call.slotCount.toNat_lt
    have hbytes : maskBytes call.slotCount = 0 := by
      rw [maskBytes_eq]
      omega
    obtain ⟨i, hi, hnone⟩ : ∃ i < call.slotCount.toNat, i ∉ call.slots := by
      by_contra hall
      push Not at hall
      have hsub : List.range call.slotCount.toNat ⊆ call.slots :=
        fun i hi => hall i (List.mem_range.1 hi)
      have hle := (List.nodup_range.subperm hsub).length_le
      rw [List.length_range] at hle
      omega
    have hneeded : i < 8 * call.neededMask := by
      unfold neededMask
      omega
    have hbit := h (List.replicate call.neededMask 0xFF) (by rw [List.length_replicate]) i hneeded
    unfold decodedBit at hbit
    rw [hbytes, if_neg (by omega), decide_eq_false hnone, Bool.false_or,
      ByteMask.test_replicate_ones hneeded] at hbit
    exact absurd hbit (by decide)
  padding := by
    intro hbitmap m hm i hle hi
    have hbit := h (List.replicate call.neededMask 0) (by rw [List.length_replicate]) i hi
    have hnone : i ∉ call.slots := fun hmem => absurd (mem_slots.1 hmem).1 (by omega)
    have hvalues : call.slotCount.toNat * width ≤ StoreMaximumPayload := by
      rcases call.representation_cases with ⟨-, hrep, -⟩ | ⟨-, -, hsz⟩ | ⟨-, hrep, -⟩
      · rw [hrep] at hbitmap
        exact absurd hbitmap (by decide)
      · omega
      · rw [hrep] at hbitmap
        exact absurd hbitmap (by decide)
    have hbytes : maskBytes call.slotCount = call.neededMask := maskBytes_of_values hwidth hvalues
    unfold decodedBit at hbit
    rw [hbytes, if_pos hi, if_pos hbitmap, hm, Option.getD_some, decide_eq_false hnone] at hbit
    exact hbit

end BlockCall

section RoundTrip

variable {metadata : SearchStoreMetadata} {kept : List (BlockCall metadata.width.toNat)}

/-- The blocks of a list of calls that is split at a call. -/
theorem storedBlocks_split {before after : List (BlockCall metadata.width.toNat)}
    {call : BlockCall metadata.width.toNat} (hkept : kept = before ++ call :: after)
    (hslots : call.slots ≠ []) :
    storedBlocks 0 kept = storedBlocks 0 before ++ call.stored (candidates before) ::
      storedBlocks (candidates before + call.slots.length) after := by
  rw [hkept, storedBlocks_append, totalCandidates_storedBlocks, Nat.zero_add, storedBlocks,
    if_neg hslots]

theorem storedBlocks_snoc {before : List (BlockCall metadata.width.toNat)}
    {call : BlockCall metadata.width.toNat} (hslots : call.slots ≠ []) :
    storedBlocks 0 (before ++ [call]) =
      storedBlocks 0 before ++ [call.stored (candidates before)] := by
  rw [storedBlocks_append, totalCandidates_storedBlocks, Nat.zero_add, storedBlocks_singleton,
    if_neg hslots]

/-- What is assumed of the calls that write a block. -/
structure Storable (metadata : SearchStoreMetadata)
    (kept : List (BlockCall metadata.width.toNat)) : Prop where
  width : metadata.width ≠ 0
  width8 : metadata.width ≤ 8
  size : ∀ call ∈ kept, call.payloadSize ≤ StoreMaximumPayload
  slots : ∀ call ∈ kept, call.slots ≠ []
  length : (imageBytes metadata (storedBlocks 0 kept)).length ≤ Stdio.LONG_MAX

theorem Storable.width_pos (h : Storable metadata kept) : 0 < metadata.width.toNat :=
  Nat.pos_of_ne_zero fun hzero => h.width (UInt32.toNat_inj.1 hzero)

/-- A count of candidates is a `uint64_t`. -/
theorem Storable.toNat_candidates (h : Storable metadata kept)
    {before after : List (BlockCall metadata.width.toNat)} (hkept : kept = before ++ after) :
    (UInt64.ofNat (candidates before)).toNat = candidates before := by
  have hle := candidates_le h.width_pos 0 kept
  have htotal := (imageSizes h.length).total
  rw [hkept, candidates_append] at hle
  rw [← hkept] at hle
  exact toNat_ofNat_offset (by omega)

/-- The block of a call reads as the call, if the call is clean. -/
theorem readsAs_of_bits (h : Storable metadata kept)
    {before after : List (BlockCall metadata.width.toNat)} {call : BlockCall metadata.width.toNat}
    (hkept : kept = before ++ call :: after) {values' mask' : List UInt8}
    (hvalues : ∀ slot ∈ call.slots, slotValue values' metadata.width.toNat slot =
      slotValue call.values metadata.width.toNat slot)
    (hbits : ∀ i < 8 * call.neededMask,
      ByteMask.test mask' i = decide (i ∈ call.slots)) :
    ReadsAs call (candidates before)
      ⟨(call.stored (candidates before)).header, values', mask'⟩ where
  base := by rw [BlockCall.stored_header]
  slotCount := by rw [BlockCall.stored_header]
  candidateCount := call.stored_candidateCount _
  cumulative := by
    rw [BlockCall.stored_header]
    exact h.toNat_candidates hkept
  mask := hbits
  values := hvalues

theorem yields_of_clean (h : Storable metadata kept) (hclean : ∀ call ∈ kept, call.Clean)
    (before after : List (BlockCall metadata.width.toNat)) (hkept : kept = before ++ after)
    (position : Nat) :
    Yields (candidates before) after
      (readerAt metadata (storedBlocks 0 kept) (storedBlocks 0 before) position) := by
  induction after generalizing before position with
  | nil =>
    rw [List.append_nil] at hkept
    intro values mask
    rw [hkept]
    exact searchStoreReaderNext_end metadata _ position values mask
  | cons call after ih =>
    have hmem : call ∈ kept := by
      rw [hkept]
      exact List.mem_append_right _ List.mem_cons_self
    intro values mask hvalues hmask
    obtain ⟨values', mask', position', hnext, hslotValues, hbits⟩ :=
      searchStoreReaderNext_image h.width h.width8 h.length
        (storedBlocks_split hkept (h.slots call hmem)) (h.size call hmem) (h.slots call hmem)
        position hvalues hmask
    refine ⟨_, _, hnext, readsAs_of_bits h hkept hslotValues fun i hi => ?_, ?_⟩
    · rw [hbits]
      exact BlockCall.decodedBit_of_clean (hclean call hmem) mask hi
    · have hrest := ih (before ++ [call]) (by rw [hkept, List.append_assoc]; rfl) position'
      rw [storedBlocks_snoc (h.slots call hmem), candidates_append, candidates_cons,
        candidates_nil, Nat.add_zero] at hrest
      exact hrest

theorem clean_of_yields (h : Storable metadata kept)
    (before after : List (BlockCall metadata.width.toNat)) (hkept : kept = before ++ after)
    (position : Nat)
    (hyields : Yields (candidates before) after
      (readerAt metadata (storedBlocks 0 kept) (storedBlocks 0 before) position)) :
    ∀ call ∈ after, call.Clean := by
  induction after generalizing before position with
  | nil => simp
  | cons call after ih =>
    have hmem : call ∈ kept := by
      rw [hkept]
      exact List.mem_append_right _ List.mem_cons_self
    have hnext := fun (values mask : List UInt8)
        (hvalues : call.slotCount.toNat * metadata.width.toNat ≤ values.length)
        (hmask : (call.slotCount.toNat + 7) / 8 ≤ mask.length) =>
      searchStoreReaderNext_image h.width h.width8 h.length
        (storedBlocks_split hkept (h.slots call hmem)) (h.size call hmem) (h.slots call hmem)
        position hvalues hmask
    have hroom : call.slotCount.toNat * metadata.width.toNat ≤
        (List.replicate (call.slotCount.toNat * metadata.width.toNat) (0 : UInt8)).length := by
      rw [List.length_replicate]
    intro other hother
    rcases List.mem_cons.1 hother with hself | hrest
    · rw [hself]
      refine BlockCall.clean_of_decodedBit h.width_pos (h.size call hmem) fun mask hmask i hi => ?_
      obtain ⟨block, reader', hread, hreads, -⟩ := hyields _ mask hroom hmask
      obtain ⟨values', mask', position', hnext', -, hbits⟩ := hnext _ mask hroom hmask
      rw [hnext'] at hread
      obtain ⟨rfl, -⟩ := Prod.mk.inj (StoreResult.ok.inj hread)
      rw [← hbits]
      exact hreads.mask i hi
    · have hones : call.neededMask ≤ (List.replicate call.neededMask (0 : UInt8)).length := by
        rw [List.length_replicate]
      obtain ⟨block, reader', hread, -, hyields'⟩ := hyields _ _ hroom hones
      obtain ⟨values', mask', position', hnext', -, -⟩ := hnext _ _ hroom hones
      rw [hnext'] at hread
      obtain ⟨-, rfl⟩ := Prod.mk.inj (StoreResult.ok.inj hread)
      rw [← storedBlocks_snoc (h.slots call hmem)] at hyields'
      refine ih (before ++ [call]) (by rw [hkept, List.append_assoc]; rfl) position' ?_ other hrest
      rw [candidates_append, candidates_cons, candidates_nil, Nat.add_zero]
      exact hyields'

/-- The index entry of a call. -/
theorem readIndexEntry_kept (h : Storable metadata kept)
    {before after : List (BlockCall metadata.width.toNat)} {call : BlockCall metadata.width.toNat}
    (hkept : kept = before ++ call :: after) (position : Nat) :
    ∃ entry file, readIndexEntry
        (readerAt metadata (storedBlocks 0 kept) [] position).file
        (readerAt metadata (storedBlocks 0 kept) [] position).header before.length =
          ok (entry, file) ∧
      entry.cumulativeCandidates.toNat = candidates before ∧ entry.base = call.base ∧
      entry.slotCount = call.slotCount ∧ entry.candidateCount.toNat = call.slots.length := by
  have hmem : call ∈ kept := by
    rw [hkept]
    exact List.mem_append_right _ List.mem_cons_self
  have hslots : ∀ other ∈ before, other.slots ≠ [] := fun other hother =>
    h.slots other (by rw [hkept]; exact List.mem_append_left _ hother)
  obtain ⟨position', hread⟩ := readIndexEntry_image
    (storedBlocks_split hkept (h.slots call hmem)) h.length position
  rw [length_storedBlocks hslots] at hread
  refine ⟨_, _, hread, ?_, ?_, ?_, ?_⟩
  · simp only [indexEntry, BlockCall.stored_header]
    exact h.toNat_candidates hkept
  · simp only [indexEntry, BlockCall.stored_header]
  · simp only [indexEntry, BlockCall.stored_header]
  · simp only [indexEntry]
    exact call.stored_candidateCount _

end RoundTrip

section Store

variable {Path : Type} [DecidableEq Path] {metadata : SearchStoreMetadata}
  {calls : List (BlockCall metadata.width.toNat)} {path : Path} {dir : Directory Path}

theorem storable_of_written (hwidth : metadata.width ≠ 0) (hwidth8 : metadata.width ≤ 8)
    (hsize : ∀ call ∈ calls, call.payloadSize ≤ StoreMaximumPayload)
    (hwritten : StoreWritten metadata calls path dir) : Storable metadata (keptCalls calls) where
  width := hwidth
  width8 := hwidth8
  size := fun call hcall => hsize call (List.mem_filter.1 hcall).1
  slots := fun _ hcall => slots_ne_nil_of_kept hcall
  length := by
    rw [storedBlocks_keptCalls]
    exact (storeWritten_image hwritten).2

theorem searchStoreReaderOpen_written (hwidth : metadata.width ≠ 0) (hwidth8 : metadata.width ≤ 8)
    (hwritten : StoreWritten metadata calls path dir) :
    searchStoreReaderOpen true dir path =
      ok (readerAt metadata (storedBlocks 0 (keptCalls calls)) []
        (imageBytes metadata (storedBlocks 0 (keptCalls calls))).length) := by
  obtain ⟨hdir, hle⟩ := storeWritten_image hwritten
  rw [← storedBlocks_keptCalls] at hdir hle
  exact searchStoreReaderOpen_image hwidth hwidth8 hdir hle

theorem clean_of_roundTrip (hwidth : metadata.width ≠ 0) (hwidth8 : metadata.width ≤ 8)
    (hsize : ∀ call ∈ calls, call.payloadSize ≤ StoreMaximumPayload)
    (hwritten : StoreWritten metadata calls path dir) (h : RoundTrip metadata calls path dir) :
    ∀ call ∈ calls, call.slots ≠ [] → call.Clean := by
  intro call hcall hslots
  obtain ⟨reader, hreader, -, -, hyields, -⟩ := h
  rw [searchStoreReaderOpen_written hwidth hwidth8 hwritten] at hreader
  obtain rfl := StoreResult.ok.inj hreader
  exact clean_of_yields (storable_of_written hwidth hwidth8 hsize hwritten) [] (keptCalls calls) rfl
    _ hyields call (List.mem_filter.2 ⟨hcall, decide_eq_true hslots⟩)

theorem roundTrip_of_clean (hwidth : metadata.width ≠ 0) (hwidth8 : metadata.width ≤ 8)
    (hsize : ∀ call ∈ calls, call.payloadSize ≤ StoreMaximumPayload)
    (hwritten : StoreWritten metadata calls path dir)
    (hclean : ∀ call ∈ calls, call.slots ≠ [] → call.Clean) :
    RoundTrip metadata calls path dir := by
  have h := storable_of_written hwidth hwidth8 hsize hwritten
  have hkept : ∀ call ∈ keptCalls calls, call.Clean := fun call hcall =>
    hclean call (List.mem_filter.1 hcall).1 (slots_ne_nil_of_kept hcall)
  refine ⟨_, searchStoreReaderOpen_written hwidth hwidth8 hwritten, rfl, ?_,
    yields_of_clean h hkept [] (keptCalls calls) rfl _,
    fun before call after hsplit => readIndexEntry_kept h hsplit _⟩
  have hcount : (readerAt metadata (storedBlocks 0 (keptCalls calls)) []
      (imageBytes metadata (storedBlocks 0 (keptCalls calls))).length).header.candidateCount =
        UInt64.ofNat (totalCandidates (storedBlocks 0 (keptCalls calls))) := rfl
  rw [hcount, totalCandidates_storedBlocks, ← candidates_keptCalls calls]
  exact h.toNat_candidates (List.append_nil _).symm

end Store

/-- A store of blocks within the payload limit reads back as the calls that wrote it, exactly when
    every call that writes a block is clean. -/
theorem store_round_trip_iff {Path : Type} [DecidableEq Path] (metadata : SearchStoreMetadata)
    (calls : List (BlockCall metadata.width.toNat)) (path : Path) (dir : Directory Path)
    (hwidth : metadata.width ≠ 0) (hwidth8 : metadata.width ≤ 8)
    (hsize : ∀ call ∈ calls, call.payloadSize ≤ StoreMaximumPayload)
    (hwritten : StoreWritten metadata calls path dir) :
    RoundTrip metadata calls path dir ↔ ∀ call ∈ calls, call.slots ≠ [] → call.Clean :=
  ⟨clean_of_roundTrip hwidth hwidth8 hsize hwritten,
    roundTrip_of_clean hwidth hwidth8 hsize hwritten⟩

/-- A store written on a device that fails no call. -/
def writeStore (metadata : SearchStoreMetadata) (calls : List (BlockCall metadata.width.toNat)) :
    Option (Directory Unit) :=
  let accepted := StoreMaximumPayload
  match searchStoreWriterOpen ⟨true, accepted⟩ (fun _ => none) () metadata with
  | (false, _, _) => none
  | (true, dir, writer) =>
    match addBlocks writer (calls.map fun call => (⟨true, accepted, accepted⟩, call)) with
    | none => none
    | some writer =>
      match searchStoreWriterFinish
          ⟨fun _ => ⟨true, true, true, accepted⟩, true, accepted, true, true, true⟩ dir writer with
      | (false, _, _) => none
      | (true, dir, _) => some dir

theorem storeWritten_of_writeStore {metadata : SearchStoreMetadata}
    {calls : List (BlockCall metadata.width.toNat)} {dir : Directory Unit}
    (h : writeStore metadata calls = some dir) : StoreWritten metadata calls () dir := by
  unfold writeStore at h
  simp only at h
  split at h
  · cases h
  · rename_i dir₁ opened hopen
    split at h
    · cases h
    · rename_i added hadd
      split at h
      · cases h
      · rename_i dir₂ finished hfinish
        obtain rfl := Option.some.inj h
        refine ⟨_, _, _, _, _, _, _, _, hopen, ?_, hadd, hfinish⟩
        rw [List.map_map]
        exact List.map_id _

/-- One byte a value. -/
def byteMetadata : SearchStoreMetadata where
  processId := 1
  titleId := 1
  start := 0x1000
  finish := 0x2000
  regionBase := 0
  regionOffset := 0
  alignment := 1
  generation := 1
  type := 0
  region := 0
  backend := 0
  width := 1
  buildId := Vector.replicate 32 0

/-- Three slots of which the first two are candidates, with a mask whose upper bits are set. -/
def paddedCall : BlockCall byteMetadata.width.toNat where
  base := 0x1000
  slotCount := 3
  values := [1, 2, 3]
  mask := some [0xF3]
  slots_pos := by decide
  values_len := by decide
  mask_len := by
    intro m hm
    obtain rfl := Option.some.inj hm
    decide

theorem paddedCall_written : ∃ dir, StoreWritten byteMetadata [paddedCall] () dir := by
  have hsome : (writeStore byteMetadata [paddedCall]).isSome = true := by decide +kernel
  obtain ⟨dir, hdir⟩ := Option.isSome_iff_exists.1 hsome
  exact ⟨dir, storeWritten_of_writeStore hdir⟩

/-- The two sides for a store with this call. -/
theorem store_round_trip_iff_padded : ∃ dir, StoreWritten byteMetadata [paddedCall] () dir ∧
    (RoundTrip byteMetadata [paddedCall] () dir ↔
      ∀ call ∈ [paddedCall], call.slots ≠ [] → call.Clean) := by
  obtain ⟨dir, hwritten⟩ := paddedCall_written
  refine ⟨dir, hwritten, store_round_trip_iff byteMetadata [paddedCall] () dir (by decide)
    (by decide) ?_ hwritten⟩
  intro call hcall
  rw [List.mem_singleton.1 hcall]
  decide

/-- The mask that is read has the bits behind the last slot set. -/
theorem padded_mask_reads_back_padded : ∃ dir, StoreWritten byteMetadata [paddedCall] () dir ∧
    ¬ RoundTrip byteMetadata [paddedCall] () dir := by
  obtain ⟨dir, hwritten⟩ := paddedCall_written
  refine ⟨dir, hwritten, fun h => ?_⟩
  have hclean := clean_of_roundTrip (by decide) (by decide)
    (fun call hcall => by rw [List.mem_singleton.1 hcall]; decide) hwritten h paddedCall
    (List.mem_singleton_self _) (by decide)
  have hbit := hclean.padding (by decide) [0xF3] rfl 4 (by decide) (by decide)
  exact absurd hbit (by decide)

end SysAgent
