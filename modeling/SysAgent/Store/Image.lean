import Mathlib
import SysAgent.Store.Writer

set_option autoImplicit false

/-! # What the writer leaves on disk

A session file as a value: its blocks, each with its payload, from which the header counts and the
index follow. The writer, as long as every call succeeds, holds the image of the calls made so far;
`searchStoreWriterFinish` completes it. -/

namespace SysAgent

/-! ## Blocks -/

structure StoredBlock where
  header : SearchStoreBlockHeader
  payload : List UInt8

namespace StoredBlock

def bytes (b : StoredBlock) : List UInt8 :=
  blockCodec.encode b.header ++ b.payload

/-- The header describes the payload. -/
structure Sound (b : StoredBlock) : Prop where
  magic : b.header.magic = SEARCH_STORE_BLOCK_MAGIC
  size : b.header.payloadSize.toNat = b.payload.length
  crc : b.header.payloadCrc = searchStoreCrc32 b.payload

@[simp] theorem length_bytes (b : StoredBlock) :
    b.bytes.length = sizeofBlockHeader + b.payload.length := by
  simp [bytes]

end StoredBlock

/-- The bytes of consecutive blocks. -/
def blocksBytes (blocks : List StoredBlock) : List UInt8 :=
  blocks.flatMap StoredBlock.bytes

@[simp] theorem blocksBytes_nil : blocksBytes [] = [] := rfl

@[simp] theorem blocksBytes_cons (b : StoredBlock) (blocks : List StoredBlock) :
    blocksBytes (b :: blocks) = b.bytes ++ blocksBytes blocks := rfl

@[simp] theorem blocksBytes_append (blocks more : List StoredBlock) :
    blocksBytes (blocks ++ more) = blocksBytes blocks ++ blocksBytes more := by
  simp [blocksBytes]

theorem length_blocksBytes_ge (blocks : List StoredBlock) :
    blocks.length ≤ (blocksBytes blocks).length := by
  induction blocks with
  | nil => exact Nat.zero_le _
  | cons b blocks ih =>
    have hheader : 1 ≤ sizeofBlockHeader := by decide
    rw [blocksBytes_cons, List.length_append, StoredBlock.length_bytes, List.length_cons]
    omega

/-- The number of candidates in the blocks. -/
def totalCandidates (blocks : List StoredBlock) : Nat :=
  (blocks.map fun b => b.header.candidateCount.toNat).sum

@[simp] theorem totalCandidates_nil : totalCandidates [] = 0 := rfl

@[simp] theorem totalCandidates_cons (b : StoredBlock) (blocks : List StoredBlock) :
    totalCandidates (b :: blocks) = b.header.candidateCount.toNat + totalCandidates blocks := rfl

@[simp] theorem totalCandidates_append (blocks more : List StoredBlock) :
    totalCandidates (blocks ++ more) = totalCandidates blocks + totalCandidates more := by
  simp [totalCandidates]

/-- The index entries of blocks that start at `offset`. -/
def indexEntries (offset : Nat) : List StoredBlock → List SearchStoreIndexEntry
  | [] => []
  | b :: blocks =>
    indexEntry (UInt64.ofNat offset) b.header :: indexEntries (offset + b.bytes.length) blocks

theorem length_indexEntries (offset : Nat) (blocks : List StoredBlock) :
    (indexEntries offset blocks).length = blocks.length := by
  induction blocks generalizing offset with
  | nil => rfl
  | cons b blocks ih => rw [indexEntries, List.length_cons, ih, List.length_cons]

def indexBytes (entries : List SearchStoreIndexEntry) : List UInt8 :=
  entries.flatMap indexCodec.encode

theorem length_indexBytes (entries : List SearchStoreIndexEntry) :
    (indexBytes entries).length = sizeofIndexEntry * entries.length := by
  induction entries with
  | nil => rfl
  | cons e entries ih =>
    have hcons : indexBytes (e :: entries) = indexCodec.encode e ++ indexBytes entries := rfl
    rw [hcons, List.length_append, ih, indexCodec.length_encode, indexCodec_size,
      List.length_cons]
    ring

/-- The header the writer has in memory. -/
def imageHeader (metadata : SearchStoreMetadata) (blocks : List StoredBlock) : SearchStoreHeader :=
  { initialHeader metadata with
    candidateCount := UInt64.ofNat (totalCandidates blocks)
    blockCount := UInt64.ofNat blocks.length
    dataBytes := UInt64.ofNat (blocksBytes blocks).length }

/-- A complete session file. -/
def imageBytes (metadata : SearchStoreMetadata) (blocks : List StoredBlock) : List UInt8 :=
  headerCodec.encode (finalHeader (imageHeader metadata blocks)) ++ blocksBytes blocks ++
    indexBytes (indexEntries sizeofHeader blocks)

theorem length_imageBytes (metadata : SearchStoreMetadata) (blocks : List StoredBlock) :
    (imageBytes metadata blocks).length =
      sizeofHeader + (blocksBytes blocks).length + sizeofIndexEntry * blocks.length := by
  simp [imageBytes, length_indexBytes, length_indexEntries, Nat.add_assoc]

/-! ## Calls -/

/-- The arguments of a call of `searchStoreWriterAddBlock`: the buffers are as long as the slots
    need. -/
structure BlockCall (width : Nat) where
  base : UInt64
  slotCount : UInt32
  values : List UInt8
  mask : Option (List UInt8)
  slots_pos : slotCount ≠ 0
  values_len : slotCount.toNat * width ≤ values.length
  mask_len : ∀ m, mask = some m → slotCount.toNat ≤ 8 * m.length

namespace BlockCall

variable {width : Nat}

/-- The candidate slots. -/
def slots (call : BlockCall width) : List Nat :=
  candidateSlots call.slotCount.toNat call.mask

def representation (call : BlockCall width) : UInt8 :=
  (chooseRepresentation width call.slotCount call.slots.length).1

def payloadSize (call : BlockCall width) : Nat :=
  (chooseRepresentation width call.slotCount call.slots.length).2

def payload (call : BlockCall width) : List UInt8 :=
  blockPayload call.representation width call.slotCount call.values call.mask

/-- The block that the call writes behind `cumulative` candidates. -/
def stored (call : BlockCall width) (cumulative : Nat) : StoredBlock :=
  { header := blockHeader width call.base (UInt64.ofNat cumulative) call.slotCount call.values
      call.mask
    payload := call.payload }

theorem mem_slots {call : BlockCall width} {slot : Nat} :
    slot ∈ call.slots ↔ slot < call.slotCount.toNat ∧
      ∀ m, call.mask = some m → ByteMask.test m slot = true := by
  unfold slots candidateSlots
  cases call.mask with
  | none => simp
  | some m => simp [bitIsSet_eq]

theorem slots_sorted (call : BlockCall width) : call.slots.Pairwise (· < ·) := by
  unfold slots candidateSlots
  split
  · exact List.pairwise_lt_range
  · exact List.Pairwise.filter _ List.pairwise_lt_range

theorem length_slots_le (call : BlockCall width) : call.slots.length ≤ call.slotCount.toNat := by
  unfold slots candidateSlots
  split
  · simp
  · rename_i m _
    have hle := List.length_filter_le (bitIsSet m) (List.range call.slotCount.toNat)
    rwa [List.length_range] at hle

/-- Without a candidate left out there is no difference between the slots and the range. -/
theorem slots_eq_range {call : BlockCall width}
    (h : call.slots.length = call.slotCount.toNat) : call.slots = List.range call.slotCount.toNat := by
  unfold slots candidateSlots at h ⊢
  split
  · rfl
  · rename_i m heq
    rw [heq] at h
    refine List.filter_eq_self.2 fun slot hslot => ?_
    by_contra hclear
    have hlt := List.length_filter_lt_length_iff_exists.2 ⟨slot, hslot, hclear⟩
    rw [List.length_range] at hlt
    exact absurd h (Nat.ne_of_lt hlt)

theorem mask_of_length_ne {call : BlockCall width}
    (h : call.slots.length ≠ call.slotCount.toNat) : ∃ m, call.mask = some m := by
  cases hmask : call.mask with
  | none => simp [slots, candidateSlots, hmask] at h
  | some m => exact ⟨m, rfl⟩

/-! ### Sizes -/

/-- `(slotCount + 7u) / 8u` without the wrap-around. -/
theorem maskBytes_eq (slotCount : UInt32) :
    maskBytes slotCount = (slotCount.toNat + 7) % 2 ^ 32 / 8 := by
  simp [maskBytes, UInt32.toNat_add, UInt32.toNat_div]

theorem maskBytes_le (slotCount : UInt32) : maskBytes slotCount ≤ (slotCount.toNat + 7) / 8 := by
  rw [maskBytes_eq]
  exact Nat.div_le_div_right (Nat.mod_le _ _)

/-- The cases of the representation, with what each takes. -/
theorem representation_cases (call : BlockCall width) :
    (call.slots.length = call.slotCount.toNat ∧ call.representation = StoreRepresentationAll ∧
      call.payloadSize = call.slotCount.toNat * width) ∨
    (call.slots.length ≠ call.slotCount.toNat ∧ call.representation = StoreRepresentationBitmap ∧
      call.payloadSize = maskBytes call.slotCount + call.slotCount.toNat * width) ∨
    (call.slots.length ≠ call.slotCount.toNat ∧ call.representation = StoreRepresentationSparse ∧
      call.payloadSize = call.slots.length * (4 + width)) := by
  unfold representation payloadSize chooseRepresentation
  by_cases hall : call.slots.length = call.slotCount.toNat
  · exact Or.inl ⟨hall, by simp [hall], by simp [hall]⟩
  · by_cases hsparse : call.slots.length * (4 + width) <
        maskBytes call.slotCount + call.slotCount.toNat * width
    · exact Or.inr (Or.inr ⟨hall, by simp [hall, hsparse], by simp [hall, hsparse]⟩)
    · exact Or.inr (Or.inl ⟨hall, by simp [hall, hsparse], by simp [hall, hsparse]⟩)

theorem length_flatMap_slots {call : BlockCall width} {slots : List Nat}
    (h : ∀ slot ∈ slots, slot < call.slotCount.toNat) :
    (slots.flatMap fun slot =>
      Codec.u32.encode (UInt32.ofNat slot) ++ slotValue call.values width slot).length =
        slots.length * (4 + width) := by
  induction slots with
  | nil => simp
  | cons slot slots ih =>
    have hvalue := length_slotValue (h slot List.mem_cons_self) call.values_len
    have hrest := ih fun s hs => h s (List.mem_cons_of_mem _ hs)
    have hword : Codec.u32.size = 4 := rfl
    rw [List.flatMap_cons, List.length_append, List.length_append, hrest, hvalue,
      Codec.u32.length_encode, hword, List.length_cons]
    ring

theorem length_payload (call : BlockCall width) : call.payload.length = call.payloadSize := by
  unfold payload blockPayload
  rcases call.representation_cases with ⟨-, hrep, hsize⟩ | ⟨hne, hrep, hsize⟩ | ⟨-, hrep, hsize⟩
  · have hlen := call.values_len
    rw [hrep, hsize, if_pos (by decide), List.length_take]
    omega
  · obtain ⟨m, hm⟩ := mask_of_length_ne hne
    have hlen := call.values_len
    have hmask := call.mask_len m hm
    have hbytes := maskBytes_le call.slotCount
    rw [hrep, hsize, if_neg (by decide), if_pos (by decide), hm, Option.getD_some,
      List.length_append, List.length_take, List.length_take]
    omega
  · rw [hrep, hsize, if_neg (by decide), if_neg (by decide)]
    exact length_flatMap_slots fun slot hslot => (mem_slots.1 hslot).1

theorem length_slots_lt (call : BlockCall width) : call.slots.length < 2 ^ 32 :=
  lt_of_le_of_lt call.length_slots_le call.slotCount.toNat_lt

/-- The header of the block, field by field. -/
theorem stored_header (call : BlockCall width) (cumulative : Nat) :
    (call.stored cumulative).header =
      { magic := SEARCH_STORE_BLOCK_MAGIC, representation := call.representation,
        width := UInt8.ofNat width, reserved := 0, base := call.base,
        cumulativeCandidates := UInt64.ofNat cumulative, slotCount := call.slotCount,
        candidateCount := UInt32.ofNat call.slots.length,
        payloadSize := UInt32.ofNat call.payloadSize, payloadCrc := searchStoreCrc32 call.payload } := by
  unfold stored payload payloadSize representation slots blockHeader
  dsimp only

@[simp] theorem stored_candidateCount (call : BlockCall width) (cumulative : Nat) :
    (call.stored cumulative).header.candidateCount.toNat = call.slots.length := by
  rw [stored_header, UInt32.toNat_ofNat']
  exact Nat.mod_eq_of_lt call.length_slots_lt

theorem stored_payloadSize {call : BlockCall width} (h : call.payloadSize < 2 ^ 32)
    (cumulative : Nat) : (call.stored cumulative).header.payloadSize.toNat = call.payloadSize := by
  rw [stored_header, UInt32.toNat_ofNat']
  exact Nat.mod_eq_of_lt h

theorem stored_sound {call : BlockCall width} (h : call.payloadSize < 2 ^ 32) (cumulative : Nat) :
    (call.stored cumulative).Sound where
  magic := by rw [stored_header]
  size := (stored_payloadSize h cumulative).trans call.length_payload.symm
  crc := by rw [stored_header]; rfl

end BlockCall

/-- The blocks that calls write behind `cumulative` candidates; a call without candidates writes
    none. -/
def storedBlocks {width : Nat} (cumulative : Nat) : List (BlockCall width) → List StoredBlock
  | [] => []
  | call :: calls =>
    if call.slots = [] then storedBlocks cumulative calls
    else call.stored cumulative :: storedBlocks (cumulative + call.slots.length) calls

theorem storedBlocks_append {width : Nat} (cumulative : Nat) (calls more : List (BlockCall width)) :
    storedBlocks cumulative (calls ++ more) = storedBlocks cumulative calls ++
      storedBlocks (cumulative + totalCandidates (storedBlocks cumulative calls)) more := by
  induction calls generalizing cumulative with
  | nil => rfl
  | cons call calls ih =>
    by_cases hnone : call.slots = []
    · simp only [List.cons_append, storedBlocks, if_pos hnone, ih]
    · simp only [List.cons_append, storedBlocks, if_neg hnone, ih, totalCandidates_cons,
        BlockCall.stored_candidateCount, Nat.add_assoc]

theorem storedBlocks_singleton {width : Nat} (cumulative : Nat) (call : BlockCall width) :
    storedBlocks cumulative [call] = if call.slots = [] then [] else [call.stored cumulative] := by
  simp only [storedBlocks]

/-! ## The writer between calls -/

/-- The writer has written `blocks`, and no call has failed. -/
structure WriterHolds {Path : Type} (metadata : SearchStoreMetadata) (blocks : List StoredBlock)
    (path : Path) (writer : SearchStoreWriter Path) : Prop where
  file : ∃ f, writer.file = some f ∧
    f.content = headerCodec.encode (initialHeader metadata) ++ blocksBytes blocks ∧
    f.position = f.content.length ∧ f.content.length ≤ Stdio.LONG_MAX
  header : writer.header = imageHeader metadata blocks
  path_eq : writer.path = path
  failed : writer.failed = false
  sound : ∀ b ∈ blocks, b.Sound

section Writer

variable {Path : Type} [DecidableEq Path] {metadata : SearchStoreMetadata}
  {blocks : List StoredBlock} {path : Path} {writer writer' : SearchStoreWriter Path}
  {dir dir' : Directory Path}

@[simp] theorem imageHeader_metadata (metadata : SearchStoreMetadata)
    (blocks : List StoredBlock) : (imageHeader metadata blocks).metadata = metadata := rfl

/-- One more block in the header. -/
theorem imageHeader_append (metadata : SearchStoreMetadata) (blocks : List StoredBlock)
    (b : StoredBlock) :
    imageHeader metadata (blocks ++ [b]) =
      { imageHeader metadata blocks with
        candidateCount := (imageHeader metadata blocks).candidateCount +
          UInt64.ofNat b.header.candidateCount.toNat
        blockCount := (imageHeader metadata blocks).blockCount + 1
        dataBytes := (imageHeader metadata blocks).dataBytes +
          UInt64.ofNat (sizeofBlockHeader + b.payload.length) } := by
  simp only [imageHeader, totalCandidates_append, totalCandidates_cons, totalCandidates_nil,
    Nat.add_zero, blocksBytes_append, blocksBytes_cons, blocksBytes_nil, List.append_nil,
    List.length_append, List.length_singleton, StoredBlock.length_bytes, UInt64.ofNat_add]
  rfl

@[simp] theorem imageHeader_nil (metadata : SearchStoreMetadata) :
    imageHeader metadata [] = initialHeader metadata := by
  simp only [imageHeader, totalCandidates_nil, List.length_nil, blocksBytes_nil]
  rfl

theorem searchStoreWriterOpen_ok {io : WriterOpenAnswers}
    (h : searchStoreWriterOpen io dir path metadata = (true, dir', writer)) :
    WriterHolds metadata [] path writer ∧ dir' = Function.update dir path (some []) := by
  simp only [searchStoreWriterOpen] at h
  split at h
  · exact absurd (congrArg Prod.fst h) Bool.false_ne_true
  · split at h
    · rename_i file hwrite
      simp only [Prod.mk.injEq, true_and] at h
      obtain ⟨rfl, rfl⟩ := h
      have hend : Stdio.File.create.position = Stdio.File.create.content.length := rfl
      have hcreate : Stdio.File.create.content.length ≤ Stdio.LONG_MAX := by
        simp only [Stdio.File.create_content, List.length_nil, Nat.zero_le]
      have hcontent : file.content =
          headerCodec.encode (initialHeader metadata) ++ blocksBytes [] := by
        rw [Stdio.File.write_end hend hwrite, Stdio.File.create_content, List.nil_append,
          blocksBytes_nil, List.append_nil]
      have hle := Stdio.File.write_end_le hend hcreate hwrite
      refine ⟨?_, rfl⟩
      exact
        { file := ⟨file, rfl, hcontent, Stdio.File.write_end_position hend hwrite, hle⟩
          header := (imageHeader_nil metadata).symm
          path_eq := rfl
          failed := rfl
          sound := by simp }
    · exact absurd (congrArg Prod.fst h) Bool.false_ne_true

omit [DecidableEq Path] in
/-- A call that succeeds appends the block of its candidates. -/
theorem searchStoreWriterAddBlock_ok {io : AddBlockAnswers}
    {call : BlockCall metadata.width.toNat} (hold : WriterHolds metadata blocks path writer)
    (h : searchStoreWriterAddBlock io writer call.base call.slotCount call.values call.mask =
      (true, writer')) :
    WriterHolds metadata (blocks ++ storedBlocks (totalCandidates blocks) [call]) path writer' := by
  obtain ⟨f, hf, hcontent, hposition, hle⟩ := hold.file
  have hwidth : writer.header.metadata.width.toNat = metadata.width.toNat := by
    rw [hold.header, imageHeader_metadata]
  have hrefuse {w : SearchStoreWriter Path} : (false, w) ≠ (true, writer') :=
    fun heq => Bool.false_ne_true (congrArg Prod.fst heq)
  have hslots : candidateSlots call.slotCount.toNat call.mask = call.slots := rfl
  simp only [searchStoreWriterAddBlock, hf, hwidth, hslots] at h
  split at h
  · exact absurd h hrefuse
  · rw [storedBlocks_singleton]
    by_cases hnone : call.slots = []
    · rw [if_pos (by rw [hnone, List.length_nil])] at h
      obtain rfl : writer = writer' := congrArg Prod.snd h
      rw [if_pos hnone, List.append_nil]
      exact hold
    · rw [if_neg (mt List.length_eq_zero_iff.1 hnone)] at h
      rw [if_neg hnone]
      have hchoice : chooseRepresentation metadata.width.toNat call.slotCount call.slots.length =
        (call.representation, call.payloadSize) := rfl
      have hblock : blockHeader metadata.width.toNat call.base writer.header.candidateCount
          call.slotCount call.values call.mask = (call.stored (totalCandidates blocks)).header := by
        rw [hold.header]
        rfl
      have hpayload : blockPayload call.representation metadata.width.toNat call.slotCount
        call.values call.mask = call.payload := rfl
      simp only [hchoice, hblock, hpayload] at h
      split at h
      · exact absurd h hrefuse
      · rename_i hsize
        split at h
        · exact absurd h hrefuse
        · rename_i f₁ hheader
          split at h
          · exact absurd h hrefuse
          · rename_i f₂ hbody
            simp only [Prod.mk.injEq, true_and] at h
            have hend : f.position = f.content.length := hposition
            have hend₁ := Stdio.File.write_end_position hend hheader
            have hle₁ := Stdio.File.write_end_le hend hle hheader
            have hsize' : call.payloadSize < 2 ^ 32 := by
              simp only [Bool.or_eq_true, decide_eq_true_eq, not_or, not_lt] at hsize
              omega
            have hcontent₂ : f₂.content = headerCodec.encode (initialHeader metadata) ++
                blocksBytes (blocks ++ [call.stored (totalCandidates blocks)]) := by
              rw [Stdio.File.write_end hend₁ hbody, Stdio.File.write_end hend hheader, hcontent,
                blocksBytes_append, blocksBytes_cons, blocksBytes_nil, List.append_nil,
                List.append_assoc, List.append_assoc]
              rfl
            have hheader' : { writer.header with
                candidateCount := writer.header.candidateCount + UInt64.ofNat call.slots.length
                blockCount := writer.header.blockCount + 1
                dataBytes := writer.header.dataBytes +
                  UInt64.ofNat (sizeofBlockHeader + call.payloadSize) } =
                imageHeader metadata (blocks ++ [call.stored (totalCandidates blocks)]) := by
              rw [imageHeader_append, BlockCall.stored_candidateCount, ← call.length_payload,
                hold.header]
              rfl
            rw [hheader'] at h
            subst h
            exact
              { file := ⟨f₂, rfl, hcontent₂, Stdio.File.write_end_position hend₁ hbody,
                  Stdio.File.write_end_le hend₁ hle₁ hbody⟩
                header := rfl
                path_eq := hold.path_eq
                failed := hold.failed
                sound := by
                  intro b hb
                  rcases List.mem_append.1 hb with hb | hb
                  · exact hold.sound b hb
                  · rw [List.mem_singleton.1 hb]
                    exact BlockCall.stored_sound hsize' _ }

/-! ### The index -/

/-- One turn of the loop reads the header of a block and appends its entry. -/
theorem writeIndexEntry_ok {io : IndexAnswers} {f f' : Stdio.File} {before after : List UInt8}
    {b : StoredBlock} {offset' : UInt64} (hcontent : f.content = before ++ b.bytes ++ after)
    (hle : f.content.length ≤ Stdio.LONG_MAX) (hsound : b.Sound)
    (h : writeIndexEntry io f (UInt64.ofNat before.length) = some (f', offset')) :
    f'.content = f.content ++ indexCodec.encode (indexEntry (UInt64.ofNat before.length) b.header) ∧
      f'.content.length ≤ Stdio.LONG_MAX ∧
      offset' = UInt64.ofNat (before ++ b.bytes).length := by
  have hheader : f.content = before ++ blockCodec.encode b.header ++ (b.payload ++ after) := by
    rw [hcontent, StoredBlock.bytes]
    simp only [List.append_assoc]
  simp only [writeIndexEntry, Option.bind_eq_bind, Option.bind_eq_some_iff] at h
  obtain ⟨-, -, f₁, hseek, -, -, ⟨bytes, f₂⟩, hread, -, -, h⟩ := h
  have hseek' := seekSet_offset (hheader.trans (List.append_assoc _ _ _)) hle
  obtain rfl := Option.some.inj (hseek.symm.trans hseek')
  have hread' := read_encoded blockCodec (f := { f with position := before.length }) hheader rfl
  rw [blockCodec_size] at hread'
  obtain ⟨rfl, rfl⟩ := Prod.mk.inj (Option.some.inj (hread.symm.trans hread'))
  simp only [blockCodec.decode_encode] at h
  split at h
  · rename_i f₃ hwrite
    obtain ⟨rfl, rfl⟩ := Prod.mk.inj (Option.some.inj h)
    refine ⟨?_, ?_, ?_⟩
    · rw [Stdio.File.write_end (Stdio.File.seekEnd_position _) hwrite]
      rfl
    · exact Stdio.File.write_end_le (Stdio.File.seekEnd_position _) (by simpa using hle) hwrite
    · rw [List.length_append, StoredBlock.length_bytes, ← hsound.size, UInt64.ofNat_add,
        UInt64.ofNat_add, UInt64.add_assoc, UInt64.ofNat_uInt32ToNat]
  · cases h

/-- The whole loop appends the entries of the blocks. -/
theorem writeIndexLoop_ok {io : Nat → IndexAnswers} {f f' : Stdio.File}
    {before after : List UInt8} {blocks : List StoredBlock} {index : Nat}
    (hcontent : f.content = before ++ blocksBytes blocks ++ after)
    (hle : f.content.length ≤ Stdio.LONG_MAX) (hsound : ∀ b ∈ blocks, b.Sound)
    (h : writeIndexLoop io f (UInt64.ofNat before.length) index blocks.length = some f') :
    f'.content = f.content ++ indexBytes (indexEntries before.length blocks) ∧
      f'.content.length ≤ Stdio.LONG_MAX := by
  induction blocks generalizing f before after index with
  | nil =>
    obtain rfl := Option.some.inj h
    exact ⟨(List.append_nil _).symm, hle⟩
  | cons b blocks ih =>
    rw [List.length_cons, writeIndexLoop, Option.bind_eq_bind, Option.bind_eq_some_iff] at h
    obtain ⟨⟨f₁, offset'⟩, hentry, hrest⟩ := h
    have hcontent₁ : f.content = before ++ b.bytes ++ (blocksBytes blocks ++ after) := by
      rw [hcontent, blocksBytes_cons]
      simp only [List.append_assoc]
    obtain ⟨hcontent₂, hle₂, rfl⟩ :=
      writeIndexEntry_ok hcontent₁ hle (hsound b List.mem_cons_self) hentry
    have hcontent₃ : f₁.content = (before ++ b.bytes) ++ blocksBytes blocks ++
        (after ++ indexCodec.encode (indexEntry (UInt64.ofNat before.length) b.header)) := by
      rw [hcontent₂, hcontent₁]
      simp only [List.append_assoc]
    obtain ⟨hcontent₄, hle₄⟩ :=
      ih hcontent₃ hle₂ (fun c hc => hsound c (List.mem_cons_of_mem _ hc)) hrest
    refine ⟨?_, hle₄⟩
    rw [hcontent₄, hcontent₂, List.append_assoc, List.length_append]
    rfl

/-! ### The complete file -/

/-- `searchStoreWriterFinish` leaves the image of the blocks. -/
theorem searchStoreWriterFinish_ok {io : FinishAnswers}
    (hold : WriterHolds metadata blocks path writer)
    (h : searchStoreWriterFinish io dir writer = (true, dir', writer')) :
    dir' = Function.update dir path (some (imageBytes metadata blocks)) ∧
      (imageBytes metadata blocks).length ≤ Stdio.LONG_MAX := by
  obtain ⟨f, hf, hcontent, hposition, hle⟩ := hold.file
  have hrefuse {d : Directory Path} {w : SearchStoreWriter Path} :
      (false, d, w) ≠ (true, dir', writer') :=
    fun heq => Bool.false_ne_true (congrArg Prod.fst heq)
  have hcount : (imageHeader metadata blocks).blockCount.toNat = blocks.length := by
    have hblocks := length_blocksBytes_ge blocks
    rw [hcontent, List.length_append] at hle
    exact toNat_ofNat_offset (by omega)
  simp only [searchStoreWriterFinish, hf, hold.failed, hold.header, hold.path_eq, hcount] at h
  split at h
  · rename_i hfalse
    cases hfalse
  · split at h
    · exact absurd h hrefuse
    · rename_i f₁ hindex
      have hheader : (headerCodec.encode (initialHeader metadata)).length = sizeofHeader := by
        rw [headerCodec.length_encode, headerCodec_size]
      rw [← hheader] at hindex
      obtain ⟨hcontent₁, hle₁⟩ := writeIndexLoop_ok
        (hcontent.trans (List.append_nil _).symm) hle hold.sound hindex
      rw [hcontent, hheader, List.append_assoc] at hcontent₁
      split at h
      · rename_i f₂ hseekio hseek
        obtain rfl := Option.some.inj
          (hseek.symm.trans (Stdio.File.seekSet_eq (Nat.zero_le Stdio.LONG_MAX)))
        split at h
        · rename_i f₃ hwrite
          split at h
          · obtain ⟨hdir, -⟩ := Prod.mk.inj (Prod.mk.inj h).2
            have hfinal := Stdio.File.write_start
              (f := { f₁ with position := 0 }) rfl hcontent₁
              ((headerCodec.length_encode _).trans (headerCodec.length_encode _).symm) hwrite
            have hcontent₃ : f₃.content = imageBytes metadata blocks := by
              rw [hfinal, imageBytes, List.append_assoc]
            refine ⟨by rw [← hdir, hcontent₃], ?_⟩
            rw [hcontent₁] at hle₁
            rw [← hcontent₃, hfinal]
            simpa only [List.length_append, headerCodec.length_encode] using hle₁
          · exact absurd h hrefuse
        · exact absurd h hrefuse
      · exact absurd h hrefuse

end Writer

end SysAgent
