import Mathlib
import SysAgent.Store.RoundTrip

set_option autoImplicit false

/-! # The readers on any file (`search_store.c`)

Both readers find a block at an offset and check its header and the checksum of its payload.
`searchStoreReaderNext` then requires that the size of the payload is the one of its representation;
`searchStoreReadAddresses` walks through the payload without that check. A payload can be consistent
with its checksum and still be shorter than the walk. -/

namespace SysAgent

open StoreResult

/-! ## Results without a fault -/

namespace StoreResult

variable {α β : Type}

theorem bind_ne_fault {r : StoreResult α} {f : α → StoreResult β} (h : r ≠ fault)
    (hf : ∀ a, r = ok a → f a ≠ fault) : (r >>= f) ≠ fault := by
  cases r with
  | ok a => exact hf a rfl
  | refused => simp
  | fault => exact absurd rfl h

theorem require_ne_fault (b : Bool) : require b ≠ fault := by
  cases b <;> simp

theorem ofOption_ne_fault (o : Option α) : ofOption o ≠ fault := by
  cases o <;> simp

theorem exists_ok {r : StoreResult α} (hrefused : r ≠ refused) (hfault : r ≠ fault) :
    ∃ a, r = ok a := by
  cases r with
  | ok a => exact ⟨a, rfl⟩
  | refused => exact absurd rfl hrefused
  | fault => exact absurd rfl hfault

end StoreResult

/-! ## Items of a file -/

section Items

variable {f g : Stdio.File}

/-- A seek forgets the position before it. -/
theorem seekSet_congr (h : f.content = g.content) (offset : Nat) :
    f.seekSet offset = g.seekSet offset := by
  simp only [Stdio.File.seekSet, h]

theorem content_of_seekSet {offset : Nat} (h : f.seekSet offset = some g) :
    g.content = f.content := by
  unfold Stdio.File.seekSet at h
  split_ifs at h
  obtain rfl := Option.some.inj h
  rfl

theorem content_of_read {n : Nat} {bytes : List UInt8} (h : f.read n = some (bytes, g)) :
    g.content = f.content ∧ bytes.length = n := by
  unfold Stdio.File.read at h
  split_ifs at h with hfits
  obtain ⟨rfl, rfl⟩ := Prod.mk.inj (Option.some.inj h)
  refine ⟨rfl, ?_⟩
  rw [List.length_take, List.length_drop]
  omega

theorem readBlockHeader_congr (h : f.content = g.content) (offset : UInt64) :
    readBlockHeader f offset = readBlockHeader g offset := by
  rw [readBlockHeader, readBlockHeader, seekSet_congr h]

theorem readIndexEntry_congr (h : f.content = g.content) (header : SearchStoreHeader)
    (index : Nat) : readIndexEntry f header index = readIndexEntry g header index := by
  rw [readIndexEntry, readIndexEntry, seekSet_congr h]

theorem content_of_readBlockHeader {offset : UInt64} {block : SearchStoreBlockHeader}
    (h : readBlockHeader f offset = ok (block, g)) : g.content = f.content := by
  obtain ⟨sought, hseek, h⟩ := bind_eq_ok.1 h
  obtain ⟨⟨bytes, behind⟩, hread, h⟩ := bind_eq_ok.1 h
  obtain ⟨-, rfl⟩ := Prod.mk.inj (StoreResult.ok.inj h)
  rw [(content_of_read (ofOption_eq_ok.1 hread)).1, content_of_seekSet (ofOption_eq_ok.1 hseek)]

theorem content_of_readIndexEntry {header : SearchStoreHeader} {index : Nat}
    {entry : SearchStoreIndexEntry} (h : readIndexEntry f header index = ok (entry, g)) :
    g.content = f.content := by
  obtain ⟨sought, hseek, h⟩ := bind_eq_ok.1 h
  obtain ⟨⟨bytes, behind⟩, hread, h⟩ := bind_eq_ok.1 h
  obtain ⟨-, rfl⟩ := Prod.mk.inj (StoreResult.ok.inj h)
  rw [(content_of_read (ofOption_eq_ok.1 hread)).1, content_of_seekSet (ofOption_eq_ok.1 hseek)]

theorem content_of_readPayload {block : SearchStoreBlockHeader} {payload : List UInt8}
    (h : readPayload f block = ok (payload, g)) :
    g.content = f.content ∧ payload.length = block.payloadSize.toNat := by
  obtain ⟨⟨bytes, behind⟩, hread, h⟩ := bind_eq_ok.1 h
  obtain ⟨_, -, h⟩ := bind_eq_ok.1 h
  obtain ⟨rfl, rfl⟩ := Prod.mk.inj (StoreResult.ok.inj h)
  exact content_of_read (ofOption_eq_ok.1 hread)

theorem readBlockHeader_ne_fault (f : Stdio.File) (offset : UInt64) :
    readBlockHeader f offset ≠ fault :=
  bind_ne_fault (ofOption_ne_fault _) fun _ _ =>
    bind_ne_fault (ofOption_ne_fault _) fun _ _ => by simp

theorem readIndexEntry_ne_fault (f : Stdio.File) (header : SearchStoreHeader) (index : Nat) :
    readIndexEntry f header index ≠ fault :=
  bind_ne_fault (ofOption_ne_fault _) fun _ _ =>
    bind_ne_fault (ofOption_ne_fault _) fun _ _ => by simp

theorem readPayload_ne_fault (f : Stdio.File) (block : SearchStoreBlockHeader) :
    readPayload f block ≠ fault :=
  bind_ne_fault (ofOption_ne_fault _) fun _ _ =>
    bind_ne_fault (require_ne_fault _) fun _ _ => by simp

theorem findBlock_ne_fault (f : Stdio.File) (header : SearchStoreHeader) (offset : UInt64)
    (low high : Nat) : findBlock f header offset low high ≠ fault := by
  induction hn : high - low using Nat.strong_induction_on generalizing f low high with
  | _ n ih =>
    rw [findBlock]
    split_ifs with hlt
    · refine bind_ne_fault (readIndexEntry_ne_fault _ _ _) fun ⟨entry, g⟩ _ =>
        bind_ne_fault (require_ne_fault _) fun _ _ => ?_
      split_ifs with hoffset
      · exact ih _ (by omega) _ _ _ rfl
      · exact ih _ (by omega) _ _ _ rfl
    · simp

/-- The search reads, and leaves the content as it is. -/
theorem content_of_findBlock {header : SearchStoreHeader} {offset : UInt64} {low high low' : Nat}
    (h : findBlock f header offset low high = ok (low', g)) (hlow : low ≤ high) :
    g.content = f.content ∧ low' ≤ high := by
  induction hn : high - low using Nat.strong_induction_on generalizing f low high with
  | _ n ih =>
    rw [findBlock] at h
    split_ifs at h with hlt
    · obtain ⟨⟨entry, behind⟩, hread, h⟩ := bind_eq_ok.1 h
      obtain ⟨_, -, h⟩ := bind_eq_ok.1 h
      have hbehind := content_of_readIndexEntry hread
      split_ifs at h with hoffset
      · obtain ⟨hcontent, hle⟩ := ih _ (by omega) h (by omega) rfl
        exact ⟨hcontent.trans hbehind, hle⟩
      · obtain ⟨hcontent, hle⟩ := ih _ (by omega) h (by omega) rfl
        exact ⟨hcontent.trans hbehind, by omega⟩
    · obtain ⟨rfl, rfl⟩ := Prod.mk.inj (StoreResult.ok.inj h)
      exact ⟨rfl, hlow⟩

end Items

/-! ## The slots of a sparse payload -/

section Slots

variable {header : SearchStoreHeader} {block : SearchStoreBlockHeader} {payload : List UInt8}

/-- The slot number of an entry. -/
def sparseSlot (block : SearchStoreBlockHeader) (payload : List UInt8) (k : Nat) : UInt32 :=
  Codec.u32.decode ((payload.drop (k * (4 + block.width.toNat))).take 4)

/-- The number of entry `k` lies in the payload. -/
def SlotReadable (block : SearchStoreBlockHeader) (payload : List UInt8) (k : Nat) : Prop :=
  k * (4 + block.width.toNat) + 4 ≤ payload.length

/-- Both readers refuse at entry `k`: its slot is none of the block or not behind the one before. -/
structure SlotRejected (block : SearchStoreBlockHeader) (payload : List UInt8) (k : Nat) : Prop where
  readable : SlotReadable block payload k
  unordered : block.slotCount ≤ sparseSlot block payload k ∨
    0 < k ∧ sparseSlot block payload k ≤ sparseSlot block payload (k - 1)

theorem SlotReadable.of_le {j k : Nat} (h : SlotReadable block payload k) (hle : j ≤ k) :
    SlotReadable block payload j := by
  have hmul : j * (4 + block.width.toNat) ≤ k * (4 + block.width.toNat) :=
    Nat.mul_le_mul_right _ hle
  unfold SlotReadable at h ⊢
  omega

theorem bytesAt_slot {k : Nat} (h : SlotReadable block payload k) :
    bytesAt payload (k * (4 + block.width.toNat)) 4 =
      ok ((payload.drop (k * (4 + block.width.toNat))).take 4) :=
  if_pos h

/-- The check of a slot number, where `previous` is the one before. -/
theorem slot_check {k : Nat} {previous : UInt32} (hreadable : SlotReadable block payload k)
    (hprevious : 0 < k → previous = sparseSlot block payload (k - 1)) :
    (decide (sparseSlot block payload k < block.slotCount) &&
      !(decide (k > 0) && decide (sparseSlot block payload k ≤ previous))) = true ↔
        ¬ SlotRejected block payload k := by
  have hcases : SlotRejected block payload k ↔
      block.slotCount ≤ sparseSlot block payload k ∨ 0 < k ∧ sparseSlot block payload k ≤ previous := by
    constructor
    · rintro ⟨-, hlarge | ⟨hpos, hle⟩⟩
      · exact .inl hlarge
      · exact .inr ⟨hpos, (hprevious hpos).symm ▸ hle⟩
    · rintro (hlarge | ⟨hpos, hle⟩)
      · exact ⟨hreadable, .inl hlarge⟩
      · exact ⟨hreadable, .inr ⟨hpos, hprevious hpos ▸ hle⟩⟩
  rw [hcases]
  simp only [Bool.and_eq_true, decide_eq_true_eq, Bool.not_eq_true', Bool.and_eq_false_iff,
    decide_eq_false_iff_not, not_or, not_and, UInt32.not_le, gt_iff_lt]
  constructor
  · rintro ⟨hsmall, hfirst | hbehind⟩
    · exact ⟨hsmall, fun hpos => absurd hpos hfirst⟩
    · exact ⟨hsmall, fun _ => hbehind⟩
  · rintro ⟨hsmall, hbehind⟩
    by_cases hpos : 0 < k
    · exact ⟨hsmall, .inr (hbehind hpos)⟩
    · exact ⟨hsmall, .inl hpos⟩

theorem next_cursor (k width : Nat) : k * (4 + width) + 4 + width = (k + 1) * (4 + width) := by
  rw [Nat.succ_mul]
  omega

/-! ### The walk of the pages -/

section Pages

variable {offset : UInt64} {count k : Nat} {previous : UInt32} {ordinal : UInt64}
  {addresses : List UInt64} {left : Nat}

theorem copySparse_rejected (h : SlotRejected block payload k)
    (hprevious : 0 < k → previous = sparseSlot block payload (k - 1)) :
    copySparse header block payload offset count k (k * (4 + block.width.toNat)) previous ordinal
      addresses (left + 1) = refused := by
  have hcheck := Bool.eq_false_of_not_eq_true
    ((slot_check h.readable hprevious).not.2 (not_not.2 h))
  unfold sparseSlot at hcheck
  rw [copySparse, bytesAt_slot h.readable, ok_bind]
  simp only [hcheck, require_false, refused_bind]

theorem copySparse_taken (header : SearchStoreHeader) (offset : UInt64) (count : Nat)
    (ordinal : UInt64) (addresses : List UInt64) (left : Nat)
    (hreadable : SlotReadable block payload k)
    (h : ¬ SlotRejected block payload k)
    (hprevious : 0 < k → previous = sparseSlot block payload (k - 1)) :
    ∃ addresses', copySparse header block payload offset count k (k * (4 + block.width.toNat))
        previous ordinal addresses (left + 1) =
      copySparse header block payload offset count (k + 1) ((k + 1) * (4 + block.width.toNat))
        (sparseSlot block payload k) (ordinal + 1) addresses' left := by
  have hcheck := (slot_check hreadable hprevious).2 h
  unfold sparseSlot at hcheck ⊢
  rw [copySparse, bytesAt_slot hreadable, ok_bind]
  simp only [hcheck, require_true, ok_bind, next_cursor]
  exact ⟨_, rfl⟩

theorem copySparse_beyond (h : ¬ SlotReadable block payload k) :
    copySparse header block payload offset count k (k * (4 + block.width.toNat)) previous ordinal
      addresses (left + 1) = fault := by
  have hbytes : bytesAt payload (k * (4 + block.width.toNat)) 4 = fault := if_neg h
  rw [copySparse, hbytes, fault_bind]

/-- An entry out of order ends the walk. -/
theorem copySparse_of_rejected (h : ∃ j, k ≤ j ∧ j < k + left ∧ SlotRejected block payload j)
    (hprevious : 0 < k → previous = sparseSlot block payload (k - 1)) :
    copySparse header block payload offset count k (k * (4 + block.width.toNat)) previous ordinal
      addresses left = refused := by
  induction left generalizing k previous ordinal addresses with
  | zero =>
    obtain ⟨j, hle, hlt, -⟩ := h
    omega
  | succ left ih =>
    by_cases hk : SlotRejected block payload k
    · exact copySparse_rejected hk hprevious
    · obtain ⟨j, hle, hlt, hj⟩ := h
      have hne : j ≠ k := fun heq => hk (heq ▸ hj)
      obtain ⟨addresses', hstep⟩ := copySparse_taken header offset count ordinal addresses left
        (hj.readable.of_le hle) hk hprevious
      rw [hstep]
      exact ih ⟨j, by omega, by omega, hj⟩ fun _ => rfl

/-- Nothing else makes it refuse. -/
theorem copySparse_ne_refused (h : ∀ j, k ≤ j → j < k + left → ¬ SlotRejected block payload j)
    (hprevious : 0 < k → previous = sparseSlot block payload (k - 1)) :
    copySparse header block payload offset count k (k * (4 + block.width.toNat)) previous ordinal
      addresses left ≠ refused := by
  induction left generalizing k previous ordinal addresses with
  | zero => simp [copySparse]
  | succ left ih =>
    by_cases hreadable : SlotReadable block payload k
    · obtain ⟨addresses', hstep⟩ := copySparse_taken header offset count ordinal addresses left
        hreadable (h k (Nat.le_refl _) (by omega)) hprevious
      rw [hstep]
      exact ih (fun j hle hlt => h j (by omega) (by omega)) fun _ => rfl
    · rw [copySparse_beyond hreadable]
      simp

/-- With all slot numbers in the payload the walk stays in it. -/
theorem copySparse_ne_fault (h : ∀ j < k + left, SlotReadable block payload j)
    (hprevious : 0 < k → previous = sparseSlot block payload (k - 1)) :
    copySparse header block payload offset count k (k * (4 + block.width.toNat)) previous ordinal
      addresses left ≠ fault := by
  induction left generalizing k previous ordinal addresses with
  | zero => simp [copySparse]
  | succ left ih =>
    by_cases hk : SlotRejected block payload k
    · rw [copySparse_rejected hk hprevious]
      simp
    · obtain ⟨addresses', hstep⟩ := copySparse_taken header offset count ordinal addresses left
        (h k (by omega)) hk hprevious
      rw [hstep]
      exact ih (fun j hlt => h j (by omega)) fun _ => rfl

end Pages

/-! ### The loop of the sequential reader -/

section Next

variable {k : Nat} {previous : UInt32} {values mask : List UInt8} {left : Nat}

theorem decodeSparse_rejected (h : SlotRejected block payload k)
    (hprevious : 0 < k → previous = sparseSlot block payload (k - 1)) :
    decodeSparse block payload k (k * (4 + block.width.toNat)) previous values mask (left + 1) =
      refused := by
  have hcheck := Bool.eq_false_of_not_eq_true
    ((slot_check h.readable hprevious).not.2 (not_not.2 h))
  unfold sparseSlot at hcheck
  rw [decodeSparse, bytesAt_slot h.readable, ok_bind]
  simp only [hcheck, require_false, refused_bind]

/-- An entry in order is written within the buffers. -/
theorem decodeSparse_taken (left : Nat)
    (hvalue : k * (4 + block.width.toNat) + 4 + block.width.toNat ≤ payload.length)
    (h : ¬ SlotRejected block payload k)
    (hprevious : 0 < k → previous = sparseSlot block payload (k - 1))
    (hvalues : block.slotCount.toNat * block.width.toNat ≤ values.length)
    (hmask : (block.slotCount.toNat + 7) / 8 ≤ mask.length) :
    ∃ values' mask', values'.length = values.length ∧ mask'.length = mask.length ∧
      decodeSparse block payload k (k * (4 + block.width.toNat)) previous values mask (left + 1) =
        decodeSparse block payload (k + 1) ((k + 1) * (4 + block.width.toNat))
          (sparseSlot block payload k) values' mask' left := by
  have hreadable : SlotReadable block payload k := by
    unfold SlotReadable
    omega
  have hslot : (sparseSlot block payload k).toNat < block.slotCount.toNat := by
    refine UInt32.lt_iff_toNat_lt.1 (UInt32.not_le.1 fun hle => h ⟨hreadable, .inl hle⟩)
  have hfits : (sparseSlot block payload k).toNat * block.width.toNat + block.width.toNat ≤
      values.length := by
    have hmul := Nat.mul_le_mul_right block.width.toNat hslot
    rw [Nat.succ_mul] at hmul
    omega
  have hcheck := (slot_check hreadable hprevious).2 h
  have hbit : bitSet mask (sparseSlot block payload k).toNat =
      ok (ByteMask.set mask (sparseSlot block payload k).toNat) := if_pos (by omega)
  obtain ⟨item, hitem, hlength⟩ : ∃ item,
      bytesAt payload (k * (4 + block.width.toNat) + 4) block.width.toNat = ok item ∧
        item.length = block.width.toNat := by
    refine ⟨_, if_pos hvalue, ?_⟩
    rw [List.length_take, List.length_drop]
    omega
  have hwritten : (sparseSlot block payload k).toNat * block.width.toNat + item.length ≤
      values.length := by rwa [hlength]
  have hcopy := copyInto_ok hwritten
  refine ⟨overwrite values ((sparseSlot block payload k).toNat * block.width.toNat) item,
    ByteMask.set mask (sparseSlot block payload k).toNat, length_overwrite hwritten,
    List.length_set, ?_⟩
  unfold sparseSlot at hcheck hbit hcopy ⊢
  rw [decodeSparse, bytesAt_slot hreadable, ok_bind]
  simp only [hcheck, require_true, ok_bind, hbit, hitem, hcopy, next_cursor]

/-- The loop stays in its buffers, and goes to the end where no entry is out of order. -/
theorem decodeSparse_within
    (h : ∀ j < k + left, j * (4 + block.width.toNat) + 4 + block.width.toNat ≤ payload.length)
    (hprevious : 0 < k → previous = sparseSlot block payload (k - 1))
    (hvalues : block.slotCount.toNat * block.width.toNat ≤ values.length)
    (hmask : (block.slotCount.toNat + 7) / 8 ≤ mask.length) :
    decodeSparse block payload k (k * (4 + block.width.toNat)) previous values mask left ≠ fault ∧
      ((∀ j, k ≤ j → j < k + left → ¬ SlotRejected block payload j) →
        decodeSparse block payload k (k * (4 + block.width.toNat)) previous values mask left ≠
          refused) := by
  induction left generalizing k previous values mask with
  | zero => simp [decodeSparse]
  | succ left ih =>
    by_cases hk : SlotRejected block payload k
    · rw [decodeSparse_rejected hk hprevious]
      exact ⟨by simp, fun hnone => absurd hk (hnone k (Nat.le_refl _) (by omega))⟩
    · obtain ⟨values', mask', hvalues', hmask', hstep⟩ := decodeSparse_taken left
        (h k (by omega)) hk hprevious hvalues hmask
      have hrest : ∀ j < k + 1 + left,
          j * (4 + block.width.toNat) + 4 + block.width.toNat ≤ payload.length :=
        fun j hlt => h j (by omega)
      obtain ⟨hfault, hrefused⟩ := ih hrest (fun _ => rfl) (hvalues'.symm ▸ hvalues)
        (hmask'.symm ▸ hmask)
      rw [hstep]
      exact ⟨hfault, fun hnone => hrefused fun j hle hlt => hnone j (by omega) (by omega)⟩

end Next

end Slots

/-! ## Decoding a block -/

section Decode

variable {block : SearchStoreBlockHeader} {payload values mask : List UInt8}

/-- The payload has the size that its representation takes. -/
def sizesAgree (block : SearchStoreBlockHeader) : Bool :=
  let valueBytes := block.slotCount.toNat * block.width.toNat
  let payloadSize := block.payloadSize.toNat
  block.representation == StoreRepresentationAll && payloadSize == valueBytes ||
    block.representation == StoreRepresentationBitmap &&
      payloadSize == maskBytes block.slotCount + valueBytes ||
    block.representation == StoreRepresentationSparse &&
      payloadSize == block.candidateCount.toNat * (4 + block.width.toNat)

/-- The buffers hold the values and the mask of a block. -/
structure Held (block : SearchStoreBlockHeader) (values mask : List UInt8) : Prop where
  values : block.slotCount.toNat * block.width.toNat ≤ values.length
  mask : (block.slotCount.toNat + 7) / 8 ≤ mask.length
  size : maskBytes block.slotCount = (block.slotCount.toNat + 7) / 8

theorem decodeAll_ok (held : Held block values mask)
    (hpayload : payload.length = block.slotCount.toNat * block.width.toNat) :
    ∃ r, decodeAll block payload values mask = ok r := by
  have hsize := held.size
  have hmask := held.mask
  have hvalues : 0 + payload.length ≤ values.length := by
    rw [hpayload, Nat.zero_add]
    exact held.values
  have hfull : 0 + (List.replicate (maskBytes block.slotCount) (0xFF : UInt8)).length ≤
      mask.length := by
    rw [List.length_replicate]
    omega
  simp only [decodeAll, bytesAt_all hpayload.symm, copyInto_ok hvalues, copyInto_ok hfull, ok_bind]
  by_cases hrest : block.slotCount.toNat % 8 = 0
  · rw [if_neg (not_not.2 hrest)]
    exact ⟨_, rfl⟩
  · have hpos : maskBytes block.slotCount ≠ 0 := by omega
    have hlast : ∃ last, bytesAt (overwrite mask 0 (List.replicate (maskBytes block.slotCount) 0xFF))
        (maskBytes block.slotCount - 1) 1 = ok last ∧ last.length = 1 := by
      have hfits : maskBytes block.slotCount - 1 + 1 ≤
          (overwrite mask 0 (List.replicate (maskBytes block.slotCount) 0xFF)).length := by
        rw [length_overwrite hfull]
        omega
      refine ⟨_, if_pos hfits, ?_⟩
      rw [List.length_take, List.length_drop]
      omega
    obtain ⟨last, hlast, hlength⟩ := hlast
    have hkept : maskBytes block.slotCount - 1 +
        (last.map (· &&& UInt8.ofNat (2 ^ (block.slotCount.toNat % 8) - 1))).length ≤
          (overwrite mask 0 (List.replicate (maskBytes block.slotCount) 0xFF)).length := by
      rw [length_overwrite hfull, List.length_map]
      omega
    rw [if_pos hrest, if_neg hpos, hlast, ok_bind, copyInto_ok hkept, ok_bind]
    exact ⟨_, rfl⟩

theorem decodeBitmap_ok (held : Held block values mask)
    (hpayload : payload.length =
      maskBytes block.slotCount + block.slotCount.toNat * block.width.toNat) :
    ∃ r, decodeBitmap block payload values mask = ok r := by
  have hsize := held.size
  have hmaskLen := held.mask
  have hvaluesLen := held.values
  obtain ⟨bits, hbits, hbitsLength⟩ : ∃ bits, bytesAt payload 0 (maskBytes block.slotCount) =
      ok bits ∧ bits.length = maskBytes block.slotCount := by
    refine ⟨_, if_pos (by omega), ?_⟩
    rw [List.length_take, List.length_drop]
    omega
  obtain ⟨stored, hstored, hstoredLength⟩ : ∃ stored, bytesAt payload (maskBytes block.slotCount)
      (block.slotCount.toNat * block.width.toNat) = ok stored ∧
        stored.length = block.slotCount.toNat * block.width.toNat := by
    refine ⟨_, if_pos (by omega), ?_⟩
    rw [List.length_take, List.length_drop]
    omega
  have hmask : 0 + bits.length ≤ mask.length := by omega
  have hvalues : 0 + stored.length ≤ values.length := by omega
  simp only [decodeBitmap, hbits, hstored, ok_bind, copyInto_ok hmask, copyInto_ok hvalues]
  exact ⟨_, rfl⟩

/-- A sparse payload of the right size holds all entries. -/
theorem entries_readable
    (hpayload : payload.length = block.candidateCount.toNat * (4 + block.width.toNat)) {j : Nat}
    (hj : j < block.candidateCount.toNat) :
    j * (4 + block.width.toNat) + 4 + block.width.toNat ≤ payload.length := by
  rw [next_cursor, hpayload]
  exact Nat.mul_le_mul_right _ hj

/-- The sequential reader stays in buffers that hold the block, and refuses exactly a size that is
    not the one of the representation or an entry out of order. -/
theorem decodeBlock_within (held : Held block values mask)
    (hpayload : payload.length = block.payloadSize.toNat) :
    decodeBlock block payload values mask ≠ fault ∧
      (sizesAgree block = true →
        (block.representation = StoreRepresentationSparse →
          ∀ j < block.candidateCount.toNat, ¬ SlotRejected block payload j) →
        decodeBlock block payload values mask ≠ refused) ∧
      (sizesAgree block = false → decodeBlock block payload values mask = refused) := by
  have hsize := held.size
  have hmaskFits := held.mask
  have hzeros : 0 + (List.replicate (block.slotCount.toNat * block.width.toNat)
      (0 : UInt8)).length ≤ values.length := by
    rw [List.length_replicate, Nat.zero_add]
    exact held.values
  have hclear : 0 + (List.replicate (maskBytes block.slotCount) (0 : UInt8)).length ≤
      mask.length := by
    rw [List.length_replicate]
    omega
  obtain ⟨values₀, hvalues₀⟩ : ∃ v, v = overwrite values 0
    (List.replicate (block.slotCount.toNat * block.width.toNat) 0) := ⟨_, rfl⟩
  obtain ⟨mask₀, hmask₀⟩ : ∃ m, m = overwrite mask 0
    (List.replicate (maskBytes block.slotCount) 0) := ⟨_, rfl⟩
  have hvaluesLen : values₀.length = values.length := hvalues₀ ▸ length_overwrite hzeros
  have hmaskLen : mask₀.length = mask.length := hmask₀ ▸ length_overwrite hclear
  have held₀ : Held block values₀ mask₀ :=
    ⟨hvaluesLen ▸ held.values, hmaskLen ▸ held.mask, held.size⟩
  simp only [decodeBlock, copyInto_ok hzeros, copyInto_ok hclear, ok_bind, ← hvalues₀, ← hmask₀,
    ← hpayload]
  simp only [sizesAgree, ← hpayload]
  split_ifs with hall hbitmap hsparse
  · obtain ⟨r, hr⟩ := decodeAll_ok held₀ (eq_of_beq (Bool.and_eq_true _ _ ▸ hall).2)
    simp [hr, hall]
  · obtain ⟨r, hr⟩ := decodeBitmap_ok held₀ (eq_of_beq (Bool.and_eq_true _ _ ▸ hbitmap).2)
    simp [hr, hbitmap]
  · obtain ⟨hrepresentation, hlength⟩ : block.representation = StoreRepresentationSparse ∧
        payload.length = block.candidateCount.toNat * (4 + block.width.toNat) := by
      simpa using hsparse
    have hentries : ∀ j < 0 + block.candidateCount.toNat,
        j * (4 + block.width.toNat) + 4 + block.width.toNat ≤ payload.length :=
      fun j hj => entries_readable hlength (by omega)
    have hfirst : 0 < 0 → (0 : UInt32) = sparseSlot block payload (0 - 1) :=
      fun hpos => absurd hpos (Nat.lt_irrefl 0)
    have hwithin := decodeSparse_within hentries hfirst held₀.values held₀.mask
    rw [Nat.zero_mul] at hwithin
    refine ⟨hwithin.1, fun _ hnone => hwithin.2 fun j _ hj => hnone hrepresentation j (by omega),
      fun hagree => ?_⟩
    rw [hsparse, Bool.or_true] at hagree
    cases hagree
  · refine ⟨by simp, fun hagree => ?_, fun _ => rfl⟩
    simp [hall, hbitmap, hsparse] at hagree

end Decode

/-! ## Walking through a block -/

section Walk

variable {header : SearchStoreHeader} {block : SearchStoreBlockHeader} {payload : List UInt8}
  {offset : UInt64} {count : Nat}

theorem copySlots_ne_refused (mask : Option (List UInt8)) (slot : Nat) (ordinal : UInt64)
    (addresses : List UInt64) (left : Nat) :
    copySlots header block mask offset count slot ordinal addresses left ≠ refused := by
  induction left generalizing slot ordinal addresses with
  | zero => simp [copySlots]
  | succ left ih =>
    rw [copySlots]
    by_cases hroom : addresses.length < count
    · rw [if_pos hroom]
      cases mask with
      | none =>
        simp only [ok_bind, Bool.not_true, Bool.false_eq_true, if_false]
        exact ih _ _ _
      | some mask =>
        by_cases hfits : slot / 8 < mask.length
        · simp only [if_pos hfits, ok_bind]
          split
          · exact ih _ _ _
          · exact ih _ _ _
        · simp [hfits]
    · rw [if_neg hroom]
      simp

/-- A mask of all slots is not read beyond its end. -/
theorem copySlots_ne_fault {mask : Option (List UInt8)} (slot : Nat) (ordinal : UInt64)
    (addresses : List UInt64) (left : Nat)
    (h : ∀ m, mask = some m → (slot + left + 7) / 8 ≤ m.length) :
    copySlots header block mask offset count slot ordinal addresses left ≠ fault := by
  induction left generalizing slot ordinal addresses with
  | zero => simp [copySlots]
  | succ left ih =>
    have hrest : ∀ m, mask = some m → (slot + 1 + left + 7) / 8 ≤ m.length := fun m hm => by
      have hle := h m hm
      omega
    rw [copySlots]
    by_cases hroom : addresses.length < count
    · rw [if_pos hroom]
      cases mask with
      | none =>
        simp only [ok_bind, Bool.not_true, Bool.false_eq_true, if_false]
        exact ih _ _ _ hrest
      | some mask =>
        have hfits : slot / 8 < mask.length := by
          have hle := h mask rfl
          omega
        simp only [if_pos hfits, ok_bind]
        split
        · exact ih _ _ _ hrest
        · exact ih _ _ _ hrest
    · rw [if_neg hroom]
      simp

/-- The walk through the payload of a block, by its representation. -/
def copyCandidates (header : SearchStoreHeader) (block : SearchStoreBlockHeader)
    (payload : List UInt8) (offset : UInt64) (count : Nat) (addresses : List UInt64) :
    StoreResult (List UInt64) :=
  if block.representation == StoreRepresentationSparse then
    copySparse header block payload offset count 0 0 0 block.cumulativeCandidates addresses
      block.candidateCount.toNat
  else
    copySlots header block
      (if block.representation == StoreRepresentationBitmap then some payload else none)
      offset count 0 block.cumulativeCandidates addresses block.slotCount.toNat

/-- Both readers refuse the entries of a sparse block. -/
def EntriesRejected (block : SearchStoreBlockHeader) (payload : List UInt8) : Prop :=
  block.representation = StoreRepresentationSparse ∧
    ∃ j < block.candidateCount.toNat, SlotRejected block payload j

theorem copyCandidates_refused_iff (addresses : List UInt64) :
    copyCandidates header block payload offset count addresses = refused ↔
      EntriesRejected block payload := by
  have hfirst : 0 < 0 → (0 : UInt32) = sparseSlot block payload (0 - 1) :=
    fun hpos => absurd hpos (Nat.lt_irrefl 0)
  unfold copyCandidates EntriesRejected
  by_cases hsparse : block.representation = StoreRepresentationSparse
  · rw [if_pos (beq_iff_eq.2 hsparse)]
    constructor
    · intro h
      refine ⟨hsparse, by_contra fun hnone => ?_⟩
      push Not at hnone
      have hne : copySparse header block payload offset count 0 (0 * (4 + block.width.toNat)) 0
          block.cumulativeCandidates addresses block.candidateCount.toNat ≠ refused :=
        copySparse_ne_refused (fun j _ hj => hnone j (by omega)) hfirst
      rw [Nat.zero_mul] at hne
      exact hne h
    · rintro ⟨-, j, hj, hrejected⟩
      have hrefused : copySparse header block payload offset count 0
          (0 * (4 + block.width.toNat)) 0 block.cumulativeCandidates addresses
            block.candidateCount.toNat = refused :=
        copySparse_of_rejected ⟨j, Nat.zero_le j, by omega, hrejected⟩ hfirst
      rw [Nat.zero_mul] at hrefused
      exact hrefused
  · rw [if_neg (fun heq => hsparse (eq_of_beq heq))]
    exact ⟨fun h => absurd h (copySlots_ne_refused _ _ _ _ _), fun h => absurd h.1 hsparse⟩

/-- With a payload of the right size the walk stays in it. -/
theorem copyCandidates_ne_fault (hagree : sizesAgree block = true)
    (hsize : maskBytes block.slotCount = (block.slotCount.toNat + 7) / 8)
    (hpayload : payload.length = block.payloadSize.toNat) (addresses : List UInt64) :
    copyCandidates header block payload offset count addresses ≠ fault := by
  simp only [sizesAgree, ← hpayload, Bool.or_eq_true, Bool.and_eq_true, beq_iff_eq] at hagree
  unfold copyCandidates
  split_ifs with hsparse hbitmap
  · rw [beq_iff_eq] at hsparse
    have hlength : payload.length = block.candidateCount.toNat * (4 + block.width.toNat) := by
      rcases hagree with (⟨hall, -⟩ | ⟨hbitmap, -⟩) | ⟨-, hlength⟩
      · exact absurd (hsparse.symm.trans hall) (by decide)
      · exact absurd (hsparse.symm.trans hbitmap) (by decide)
      · exact hlength
    have hfirst : 0 < 0 → (0 : UInt32) = sparseSlot block payload (0 - 1) :=
      fun hpos => absurd hpos (Nat.lt_irrefl 0)
    have hreadable : ∀ j < 0 + block.candidateCount.toNat, SlotReadable block payload j := by
      intro j hj
      have hentry := entries_readable hlength (show j < block.candidateCount.toNat by omega)
      unfold SlotReadable
      omega
    have hne : copySparse header block payload offset count 0 (0 * (4 + block.width.toNat)) 0
        block.cumulativeCandidates addresses block.candidateCount.toNat ≠ fault :=
      copySparse_ne_fault hreadable hfirst
    rw [Nat.zero_mul] at hne
    exact hne
  · rw [beq_iff_eq] at hbitmap
    refine copySlots_ne_fault _ _ _ _ fun m hm => ?_
    obtain rfl := Option.some.inj hm
    rcases hagree with (⟨hall, -⟩ | ⟨-, hlength⟩) | ⟨hsparse', -⟩
    · exact absurd (hbitmap.symm.trans hall) (by decide)
    · omega
    · exact absurd (hbitmap.symm.trans hsparse') (by decide)
  · exact copySlots_ne_fault _ _ _ _ fun m hm => by cases hm

/-! ### Room in the page -/

theorem length_copySparse {addresses result : List UInt64} {candidate cursor left : Nat}
    {previous : UInt32} {ordinal : UInt64} (hroom : addresses.length ≤ count)
    (h : copySparse header block payload offset count candidate cursor previous ordinal addresses
      left = ok result) : result.length ≤ count := by
  induction left generalizing candidate cursor previous ordinal addresses with
  | zero =>
    obtain rfl := StoreResult.ok.inj h
    exact hroom
  | succ left ih =>
    rw [copySparse] at h
    obtain ⟨bytes, -, h⟩ := bind_eq_ok.1 h
    obtain ⟨_, -, h⟩ := bind_eq_ok.1 h
    refine ih ?_ h
    split_ifs with hreached
    · simp only [Bool.and_eq_true, decide_eq_true_eq] at hreached
      rw [List.length_append, List.length_singleton]
      omega
    · exact hroom

theorem length_copySlots {mask : Option (List UInt8)} {addresses result : List UInt64}
    {slot left : Nat} {ordinal : UInt64} (hroom : addresses.length ≤ count)
    (h : copySlots header block mask offset count slot ordinal addresses left = ok result) :
    result.length ≤ count := by
  induction left generalizing slot ordinal addresses with
  | zero =>
    obtain rfl := StoreResult.ok.inj h
    exact hroom
  | succ left ih =>
    rw [copySlots] at h
    by_cases hleft : addresses.length < count
    · have hnext : ∀ reached : Prop, [Decidable reached] →
          (if reached then addresses ++ [slotAddress header block (UInt64.ofNat slot)]
            else addresses).length ≤ count := by
        intro reached _
        split_ifs
        · rw [List.length_append, List.length_singleton]
          omega
        · exact hroom
      rw [if_pos hleft] at h
      cases mask with
      | none =>
        simp only [ok_bind, Bool.not_true, Bool.false_eq_true, if_false] at h
        exact ih (hnext _) h
      | some mask =>
        by_cases hfits : slot / 8 < mask.length
        · simp only [if_pos hfits, ok_bind] at h
          split at h
          · exact ih hroom h
          · exact ih (hnext _) h
        · simp [hfits] at h
    · rw [if_neg hleft] at h
      obtain rfl := StoreResult.ok.inj h
      exact hroom

theorem length_copyCandidates {addresses result : List UInt64} (hroom : addresses.length ≤ count)
    (h : copyCandidates header block payload offset count addresses = ok result) :
    result.length ≤ count := by
  unfold copyCandidates at h
  split_ifs at h
  · exact length_copySparse hroom h
  · exact length_copySlots hroom h
  · exact length_copySlots hroom h

end Walk

/-! ## The blocks of a file -/

/-- The buffers of a refinement: `UNKNOWN_CHUNK_SIZE + 8` and `UNKNOWN_CHUNK_SIZE / 8 + 8`. -/
def valuesCapacity : Nat := 0x40000 + 8
def maskCapacity : Nat := 0x40000 / 8 + 8

/-- The payload has the size of its representation, and the buffers hold what it decodes to. -/
def blockFits (block : SearchStoreBlockHeader) : Bool :=
  sizesAgree block && decide (block.slotCount.toNat * block.width.toNat ≤ valuesCapacity) &&
    decide (maskBytes block.slotCount ≤ maskCapacity)

/-- A block header at an offset and the payload behind it with its checksum. -/
def FoundAt (file : Stdio.File) (offset : UInt64) (block : SearchStoreBlockHeader)
    (payload : List UInt8) : Prop :=
  ∃ behind rest, readBlockHeader file offset = ok (block, behind) ∧
    readPayload behind block = ok (payload, rest)

/-- What there is at the offset of an index entry fits. -/
def EntryFits (file : Stdio.File) (entry : SearchStoreIndexEntry) : Prop :=
  ∀ block payload, FoundAt file entry.fileOffset block payload → blockFits block = true

/-- No block of an index entry passes the checks that the pages make. -/
def BlockRefused (file : Stdio.File) (header : SearchStoreHeader)
    (entry : SearchStoreIndexEntry) : Prop :=
  ∀ block payload, FoundAt file entry.fileOffset block payload →
    entryAccepted header entry block = true → EntriesRejected block payload

theorem FoundAt.length {file : Stdio.File} {offset : UInt64} {block : SearchStoreBlockHeader}
    {payload : List UInt8} (h : FoundAt file offset block payload) :
    payload.length = block.payloadSize.toNat := by
  obtain ⟨behind, rest, -, hpayload⟩ := h
  exact (content_of_readPayload hpayload).2

theorem FoundAt.unique {file : Stdio.File} {offset : UInt64} {block block' : SearchStoreBlockHeader}
    {payload payload' : List UInt8} (h : FoundAt file offset block payload)
    (h' : FoundAt file offset block' payload') : block' = block ∧ payload' = payload := by
  obtain ⟨behind, rest, hheader, hpayload⟩ := h
  obtain ⟨behind', rest', hheader', hpayload'⟩ := h'
  obtain ⟨rfl, rfl⟩ := Prod.mk.inj (StoreResult.ok.inj (hheader'.symm.trans hheader))
  obtain ⟨rfl, -⟩ := Prod.mk.inj (StoreResult.ok.inj (hpayload'.symm.trans hpayload))
  exact ⟨rfl, rfl⟩

theorem blockAccepted_width {header : SearchStoreHeader} {offset : UInt64}
    {block : SearchStoreBlockHeader} (h : blockAccepted header offset block = true) :
    block.width.toUInt32 = header.metadata.width := by
  simp only [blockAccepted, Bool.and_eq_true, beq_iff_eq] at h
  exact h.1.1.1.1.1.1.1.2

/-- A block of a store whose values are not empty has few slots if the buffers hold it. -/
theorem maskBytes_of_width {header : SearchStoreHeader} {offset : UInt64}
    {block : SearchStoreBlockHeader} (hwidth : header.metadata.width ≠ 0)
    (haccepted : blockAccepted header offset block = true)
    (hvalues : block.slotCount.toNat * block.width.toNat ≤ valuesCapacity) :
    maskBytes block.slotCount = (block.slotCount.toNat + 7) / 8 := by
  have hpos : 0 < block.width.toNat := by
    rw [Nat.pos_iff_ne_zero]
    intro hzero
    have heq := blockAccepted_width haccepted
    rw [UInt8.toNat_inj.1 (hzero.trans UInt8.toNat_zero.symm)] at heq
    exact hwidth heq.symm
  have hle := Nat.le_mul_of_pos_right block.slotCount.toNat hpos
  have hcapacity : valuesCapacity + 7 < 2 ^ 32 := by decide
  rw [BlockCall.maskBytes_eq, Nat.mod_eq_of_lt (by omega)]

theorem held_of_capacity {header : SearchStoreHeader} {offset : UInt64}
    {block : SearchStoreBlockHeader} {values mask : List UInt8}
    (hwidth : header.metadata.width ≠ 0) (haccepted : blockAccepted header offset block = true)
    (hvalues : block.slotCount.toNat * block.width.toNat ≤ valuesCapacity)
    (hmask : maskBytes block.slotCount ≤ maskCapacity) (hvaluesLen : values.length = valuesCapacity)
    (hmaskLen : mask.length = maskCapacity) : Held block values mask := by
  have hsize := maskBytes_of_width hwidth haccepted hvalues
  exact ⟨hvaluesLen.symm ▸ hvalues, by omega, hsize⟩

/-! ## The sequential reader -/

section Next

variable {Path : Type} {dir : Directory Path} {path : Path} {reader : SearchStoreReader}

/-- A reader that was opened and has read any number of blocks. -/
inductive ReaderReached {Path : Type} (dir : Directory Path) (path : Path) :
    SearchStoreReader → Prop
  | opened {device : Bool} {reader : SearchStoreReader} :
    searchStoreReaderOpen device dir path = ok reader → ReaderReached dir path reader
  | next {device : Bool} {reader reader' : SearchStoreReader} {values mask : List UInt8}
      {block : DecodedBlock} :
    ReaderReached dir path reader →
      searchStoreReaderNext device reader values mask = ok (block, reader') →
      ReaderReached dir path reader'

/-- What an opened reader has checked: its header, and that the file ends with the index. -/
theorem searchStoreReaderOpen_ok {device : Bool}
    (h : searchStoreReaderOpen device dir path = ok reader) :
    headerAccepted reader.header = true ∧
      sizeAccepted reader.header reader.file.content.length = true := by
  obtain ⟨_, -, h⟩ := bind_eq_ok.1 h
  obtain ⟨content, -, h⟩ := bind_eq_ok.1 h
  obtain ⟨⟨bytes, file⟩, -, h⟩ := bind_eq_ok.1 h
  obtain ⟨_, hheader, h⟩ := bind_eq_ok.1 h
  obtain ⟨_, hsize, h⟩ := bind_eq_ok.1 h
  obtain rfl := StoreResult.ok.inj h
  exact ⟨require_eq_ok.1 hheader, require_eq_ok.1 hsize⟩

theorem searchStoreReaderOpen_ne_fault (device : Bool) (dir : Directory Path) (path : Path) :
    searchStoreReaderOpen device dir path ≠ fault :=
  bind_ne_fault (require_ne_fault _) fun _ _ => bind_ne_fault (ofOption_ne_fault _) fun _ _ =>
    bind_ne_fault (ofOption_ne_fault _) fun _ _ => bind_ne_fault (require_ne_fault _) fun _ _ =>
      bind_ne_fault (require_ne_fault _) fun _ _ => by simp

theorem headerAccepted_width {header : SearchStoreHeader} (h : headerAccepted header = true) :
    header.metadata.width ≠ 0 := by
  simp only [headerAccepted, Bool.and_eq_true, bne_iff_ne, ne_eq] at h
  exact h.1.2

/-- Reading a block leaves the header of the reader as it is. -/
theorem header_of_next {device : Bool} {reader' : SearchStoreReader} {values mask : List UInt8}
    {block : DecodedBlock}
    (h : searchStoreReaderNext device reader values mask = ok (block, reader')) :
    reader'.header = reader.header := by
  obtain ⟨_, -, h⟩ := bind_eq_ok.1 h
  obtain ⟨_, -, h⟩ := bind_eq_ok.1 h
  obtain ⟨⟨header, behind⟩, -, h⟩ := bind_eq_ok.1 h
  obtain ⟨_, -, h⟩ := bind_eq_ok.1 h
  obtain ⟨⟨payload, rest⟩, -, h⟩ := bind_eq_ok.1 h
  obtain ⟨_, -, h⟩ := bind_eq_ok.1 h
  obtain ⟨⟨values', mask'⟩, -, h⟩ := bind_eq_ok.1 h
  obtain ⟨-, rfl⟩ := Prod.mk.inj (StoreResult.ok.inj h)
  rfl

theorem ReaderReached.width (h : ReaderReached dir path reader) :
    reader.header.metadata.width ≠ 0 := by
  induction h with
  | opened hopen => exact headerAccepted_width (searchStoreReaderOpen_ok hopen).1
  | next _ hnext ih => exact header_of_next hnext ▸ ih

/-- The sequential reader leaves no buffer, whatever the file holds. -/
theorem searchStoreReaderNext_ne_fault (hwidth : reader.header.metadata.width ≠ 0) (device : Bool)
    {values mask : List UInt8} (hvalues : values.length = valuesCapacity)
    (hmask : mask.length = maskCapacity) :
    searchStoreReaderNext device reader values mask ≠ fault := by
  refine bind_ne_fault (require_ne_fault _) fun _ _ => bind_ne_fault (require_ne_fault _) fun _ _ =>
    bind_ne_fault (readBlockHeader_ne_fault _ _) fun ⟨block, behind⟩ _ =>
      bind_ne_fault (require_ne_fault _) fun _ haccepted =>
        bind_ne_fault (readPayload_ne_fault _ _) fun ⟨payload, rest⟩ hpayload =>
          bind_ne_fault (require_ne_fault _) fun _ hcapacity =>
            bind_ne_fault ?_ fun _ _ => by simp
  have hcapacity' := require_eq_ok.1 hcapacity
  simp only [Bool.and_eq_true, decide_eq_true_eq, hvalues, hmask] at hcapacity'
  have held := held_of_capacity hwidth (require_eq_ok.1 haccepted) hcapacity'.1 hcapacity'.2
    hvalues hmask
  exact (decodeBlock_within held (content_of_readPayload hpayload).2).1

/-- The sequential reader accepts the block at an offset, whatever its buffers hold. -/
def NextAccepts (reader : SearchStoreReader) (offset : UInt64) : Prop :=
  ∀ values mask, values.length = valuesCapacity → mask.length = maskCapacity →
    ∃ r, searchStoreReaderNext true { reader with nextBlock := 0, nextOffset := offset }
      values mask = ok r

theorem nextAccepts_of_found {offset : UInt64} {block : SearchStoreBlockHeader}
    {payload : List UInt8} (hwidth : reader.header.metadata.width ≠ 0)
    (hcount : 0 < reader.header.blockCount) (hfound : FoundAt reader.file offset block payload)
    (haccepted : blockAccepted reader.header offset block = true)
    (hfits : blockFits block = true) (hentries : ¬ EntriesRejected block payload) :
    NextAccepts reader offset := by
  intro values mask hvalues hmask
  simp only [blockFits, Bool.and_eq_true, decide_eq_true_eq] at hfits
  obtain ⟨⟨hagree, hvaluesFit⟩, hmaskFit⟩ := hfits
  have held := held_of_capacity hwidth haccepted hvaluesFit hmaskFit hvalues hmask
  obtain ⟨hfault, hrefused, -⟩ := decodeBlock_within held hfound.length
  have hnone : block.representation = StoreRepresentationSparse →
      ∀ j < block.candidateCount.toNat, ¬ SlotRejected block payload j :=
    fun hsparse j hj hrejected => hentries ⟨hsparse, j, hj, hrejected⟩
  obtain ⟨⟨values', mask'⟩, hdecoded⟩ := exists_ok (hrefused hagree hnone) hfault
  obtain ⟨behind, rest, hheader, hpayload⟩ := hfound
  have hcapacity : (decide (block.slotCount.toNat * block.width.toNat ≤ values.length) &&
      decide (maskBytes block.slotCount ≤ mask.length)) = true := by
    rw [hvalues, hmask, decide_eq_true hvaluesFit, decide_eq_true hmaskFit, Bool.and_self]
  unfold searchStoreReaderNext
  simp only [hheader, hpayload, haccepted, hcapacity, hdecoded, decide_eq_true hcount,
    require_true, ok_bind]
  exact ⟨_, rfl⟩

theorem fits_of_nextAccepts {offset : UInt64} {block : SearchStoreBlockHeader}
    {payload : List UInt8} (hwidth : reader.header.metadata.width ≠ 0)
    (h : NextAccepts reader offset) (hfound : FoundAt reader.file offset block payload) :
    blockFits block = true := by
  have hvalues : (List.replicate valuesCapacity (0 : UInt8)).length = valuesCapacity :=
    List.length_replicate
  have hmask : (List.replicate maskCapacity (0 : UInt8)).length = maskCapacity :=
    List.length_replicate
  obtain ⟨r, h⟩ := h _ _ hvalues hmask
  obtain ⟨_, -, h⟩ := bind_eq_ok.1 h
  obtain ⟨_, -, h⟩ := bind_eq_ok.1 h
  obtain ⟨⟨block', behind⟩, hheader, h⟩ := bind_eq_ok.1 h
  obtain ⟨_, haccepted, h⟩ := bind_eq_ok.1 h
  obtain ⟨⟨payload', rest⟩, hpayload, h⟩ := bind_eq_ok.1 h
  obtain ⟨_, hcapacity, h⟩ := bind_eq_ok.1 h
  obtain ⟨⟨values', mask'⟩, hdecoded, -⟩ := bind_eq_ok.1 h
  obtain ⟨rfl, rfl⟩ := hfound.unique ⟨behind, rest, hheader, hpayload⟩
  have hcapacity' := require_eq_ok.1 hcapacity
  simp only [Bool.and_eq_true, decide_eq_true_eq, hvalues, hmask] at hcapacity'
  have held := held_of_capacity hwidth (require_eq_ok.1 haccepted) hcapacity'.1 hcapacity'.2
    hvalues hmask
  have hagree : sizesAgree block' = true := by
    by_contra hmisfit
    have hrefused := (decodeBlock_within held hfound.length).2.2 (Bool.eq_false_of_not_eq_true hmisfit)
    cases hdecoded.symm.trans hrefused
  rw [blockFits, hagree, decide_eq_true hcapacity'.1, decide_eq_true hcapacity'.2]
  rfl

end Next

/-! ## The pages -/

section Blocks

variable {f g : Stdio.File} {header : SearchStoreHeader} {offset : UInt64} {count : Nat}

/-- What the loop over the blocks does with the block of an index entry. -/
def copyBlock (file : Stdio.File) (header : SearchStoreHeader) (offset : UInt64) (count : Nat)
    (entry : SearchStoreIndexEntry) (addresses : List UInt64) : StoreResult (List UInt64) := do
  let (block, file) ← readBlockHeader file entry.fileOffset
  require (entryAccepted header entry block)
  let (payload, _) ← readPayload file block
  copyCandidates header block payload offset count addresses

theorem blockAccepted_of_entry {entry : SearchStoreIndexEntry} {block : SearchStoreBlockHeader}
    (h : entryAccepted header entry block = true) :
    blockAccepted header entry.fileOffset block = true := by
  simp only [entryAccepted, Bool.and_eq_true] at h
  exact h.1.1.1.1.1

theorem copyBlock_found {entry : SearchStoreIndexEntry} {block : SearchStoreBlockHeader}
    {payload : List UInt8} (hfound : FoundAt f entry.fileOffset block payload)
    (haccepted : entryAccepted header entry block = true) (addresses : List UInt64) :
    copyBlock f header offset count entry addresses =
      copyCandidates header block payload offset count addresses := by
  obtain ⟨behind, rest, hheader, hpayload⟩ := hfound
  unfold copyBlock
  simp only [hheader, haccepted, hpayload, require_true, ok_bind]

/-- Where a block is refused before the walk through its payload, nothing is found. -/
theorem copyBlock_cases (f : Stdio.File) (header : SearchStoreHeader) (offset : UInt64)
    (count : Nat) (entry : SearchStoreIndexEntry) (addresses : List UInt64) :
    (∃ block payload, FoundAt f entry.fileOffset block payload ∧
      entryAccepted header entry block = true) ∨
    (copyBlock f header offset count entry addresses = refused ∧
      BlockRefused f header entry) := by
  by_cases hexists : ∃ block payload, FoundAt f entry.fileOffset block payload ∧
      entryAccepted header entry block = true
  · exact .inl hexists
  · refine .inr ⟨?_, fun block payload hfound haccepted =>
      absurd ⟨block, payload, hfound, haccepted⟩ hexists⟩
    unfold copyBlock
    cases hheader : readBlockHeader f entry.fileOffset with
    | refused => rfl
    | fault => exact absurd hheader (readBlockHeader_ne_fault _ _)
    | ok found =>
      obtain ⟨block, behind⟩ := found
      simp only [ok_bind]
      cases haccepted : entryAccepted header entry block with
      | false => rfl
      | true =>
        simp only [require_true, ok_bind]
        cases hpayload : readPayload behind block with
        | refused => rfl
        | fault => exact absurd hpayload (readPayload_ne_fault _ _)
        | ok stored =>
          exact absurd ⟨block, stored.1, ⟨behind, stored.2, hheader, hpayload⟩, haccepted⟩ hexists

theorem copyBlock_refused_iff (entry : SearchStoreIndexEntry) (addresses : List UInt64) :
    copyBlock f header offset count entry addresses = refused ↔ BlockRefused f header entry := by
  rcases copyBlock_cases f header offset count entry addresses with
    ⟨block, payload, hfound, haccepted⟩ | ⟨hrefused, hblock⟩
  · rw [copyBlock_found hfound haccepted, copyCandidates_refused_iff]
    constructor
    · intro hentries block' payload' hfound' _
      obtain ⟨rfl, rfl⟩ := hfound.unique hfound'
      exact hentries
    · exact fun h => h block payload hfound haccepted
  · exact ⟨fun _ => hblock, fun _ => hrefused⟩

theorem copyBlock_ne_fault {entry : SearchStoreIndexEntry} (hwidth : header.metadata.width ≠ 0)
    (hfits : EntryFits f entry) (addresses : List UInt64) :
    copyBlock f header offset count entry addresses ≠ fault := by
  rcases copyBlock_cases f header offset count entry addresses with
    ⟨block, payload, hfound, haccepted⟩ | ⟨hrefused, -⟩
  · have hblock := hfits block payload hfound
    simp only [blockFits, Bool.and_eq_true, decide_eq_true_eq] at hblock
    rw [copyBlock_found hfound haccepted]
    exact copyCandidates_ne_fault hblock.1.1
      (maskBytes_of_width hwidth (blockAccepted_of_entry haccepted) hblock.1.2) hfound.length _
  · rw [hrefused]
    simp

theorem length_copyBlock {entry : SearchStoreIndexEntry} {addresses result : List UInt64}
    (hroom : addresses.length ≤ count)
    (h : copyBlock f header offset count entry addresses = ok result) : result.length ≤ count := by
  obtain ⟨_, -, h⟩ := bind_eq_ok.1 h
  obtain ⟨_, -, h⟩ := bind_eq_ok.1 h
  obtain ⟨_, -, h⟩ := bind_eq_ok.1 h
  exact length_copyCandidates hroom h

/-- The index entries whose blocks the loop touches, up to one at which it ends. -/
def touchedEntries (file : Stdio.File) (header : SearchStoreHeader) (offset : UInt64) (count : Nat)
    (index : Nat) (addresses : List UInt64) : Nat → List SearchStoreIndexEntry
  | 0 => []
  | left + 1 =>
    if addresses.length < count then
      match readIndexEntry file header index with
      | ok (entry, _) =>
        if offset ≥ entry.cumulativeCandidates + entry.candidateCount.toUInt64 then
          touchedEntries file header offset count (index + 1) addresses left
        else
          entry ::
            match copyBlock file header offset count entry addresses with
            | ok addresses => touchedEntries file header offset count (index + 1) addresses left
            | _ => []
      | _ => []
    else []

/-- One pass of the loop: a full page ends it, an entry before the offset is skipped, and the block
    of any other is copied. -/
theorem copyBlocks_step (left : Nat) {index : Nat} {addresses : List UInt64}
    {entry : SearchStoreIndexEntry} {behind : Stdio.File} (hcontent : g.content = f.content)
    (hroom : addresses.length < count)
    (hentry : readIndexEntry f header index = ok (entry, behind))
    (hreached : ¬ offset ≥ entry.cumulativeCandidates + entry.candidateCount.toUInt64) :
    ∃ g', g'.content = f.content ∧
      copyBlocks g header offset count index addresses (left + 1) =
        (copyBlock f header offset count entry addresses >>= fun addresses =>
          copyBlocks g' header offset count (index + 1) addresses left) := by
  have hbehind := content_of_readIndexEntry hentry
  have hread : readIndexEntry g header index = ok (entry, behind) :=
    (readIndexEntry_congr hcontent header index).trans hentry
  rw [copyBlocks, if_pos hroom]
  unfold copyBlock
  simp only [hread, ok_bind, if_neg hreached, readBlockHeader_congr hbehind]
  cases hheader : readBlockHeader f entry.fileOffset with
  | refused => exact ⟨f, rfl, rfl⟩
  | fault => exact ⟨f, rfl, rfl⟩
  | ok found =>
    obtain ⟨block, rest⟩ := found
    simp only [ok_bind]
    cases haccepted : entryAccepted header entry block with
    | false => exact ⟨f, rfl, rfl⟩
    | true =>
      simp only [require_true, ok_bind]
      cases hpayload : readPayload rest block with
      | refused => exact ⟨f, rfl, rfl⟩
      | fault => exact ⟨f, rfl, rfl⟩
      | ok stored =>
        obtain ⟨payload, g'⟩ := stored
        refine ⟨g', ?_, ?_⟩
        · rw [(content_of_readPayload hpayload).1, content_of_readBlockHeader hheader]
        · unfold copyCandidates
          simp only [ok_bind]
          split_ifs <;> rfl

/-- The entry is skipped: the loop goes on with the same page. -/
theorem copyBlocks_skip {index left : Nat} {addresses : List UInt64}
    {entry : SearchStoreIndexEntry} {behind : Stdio.File} (hcontent : g.content = f.content)
    (hroom : addresses.length < count)
    (hentry : readIndexEntry f header index = ok (entry, behind))
    (hskipped : offset ≥ entry.cumulativeCandidates + entry.candidateCount.toUInt64) :
    copyBlocks g header offset count index addresses (left + 1) =
      copyBlocks behind header offset count (index + 1) addresses left := by
  have hread : readIndexEntry g header index = ok (entry, behind) :=
    (readIndexEntry_congr hcontent header index).trans hentry
  rw [copyBlocks, if_pos hroom]
  simp only [hread, ok_bind, if_pos hskipped]

/-- The loop is refused exactly by a block that it touches. -/
theorem copyBlocks_refused_iff {index left : Nat} {addresses : List UInt64}
    (hcontent : g.content = f.content)
    (hindex : ∀ i < index + left, ∃ entry behind, readIndexEntry f header i = ok (entry, behind)) :
    copyBlocks g header offset count index addresses left = refused ↔
      ∃ entry ∈ touchedEntries f header offset count index addresses left,
        BlockRefused f header entry := by
  induction left generalizing g index addresses with
  | zero => simp [copyBlocks, touchedEntries]
  | succ left ih =>
    by_cases hroom : addresses.length < count
    · obtain ⟨entry, behind, hentry⟩ := hindex index (by omega)
      have hrest : ∀ i < index + 1 + left, ∃ entry behind,
          readIndexEntry f header i = ok (entry, behind) := fun i hi => hindex i (by omega)
      rw [touchedEntries, if_pos hroom]
      simp only [hentry]
      by_cases hskipped : offset ≥ entry.cumulativeCandidates + entry.candidateCount.toUInt64
      · rw [copyBlocks_skip hcontent hroom hentry hskipped, if_pos hskipped]
        exact ih (content_of_readIndexEntry hentry) hrest
      · obtain ⟨g', hg', hstep⟩ := copyBlocks_step left hcontent hroom hentry hskipped
        have hblock : copyBlock f header offset count entry addresses = refused ↔
            BlockRefused f header entry := copyBlock_refused_iff entry addresses
        rw [hstep, if_neg hskipped, List.exists_mem_cons_iff, ← hblock]
        cases hcopied : copyBlock f header offset count entry addresses with
        | ok copied =>
          simp only [ok_bind, reduceCtorEq, false_or]
          exact ih hg' hrest
        | refused => simp
        | fault => simp
    · rw [copyBlocks, touchedEntries, if_neg hroom, if_neg hroom]
      simp

/-- The loop stays in the payloads of blocks that fit. -/
theorem copyBlocks_ne_fault {index left : Nat} {addresses : List UInt64}
    (hwidth : header.metadata.width ≠ 0) (hcontent : g.content = f.content)
    (hindex : ∀ i < index + left, ∃ entry behind, readIndexEntry f header i = ok (entry, behind))
    (hfits : ∀ entry ∈ touchedEntries f header offset count index addresses left,
      EntryFits f entry) :
    copyBlocks g header offset count index addresses left ≠ fault := by
  induction left generalizing g index addresses with
  | zero => simp [copyBlocks]
  | succ left ih =>
    by_cases hroom : addresses.length < count
    · obtain ⟨entry, behind, hentry⟩ := hindex index (by omega)
      have hrest : ∀ i < index + 1 + left, ∃ entry behind,
          readIndexEntry f header i = ok (entry, behind) := fun i hi => hindex i (by omega)
      rw [touchedEntries, if_pos hroom] at hfits
      simp only [hentry] at hfits
      by_cases hskipped : offset ≥ entry.cumulativeCandidates + entry.candidateCount.toUInt64
      · rw [copyBlocks_skip hcontent hroom hentry hskipped]
        rw [if_pos hskipped] at hfits
        exact ih (content_of_readIndexEntry hentry) hrest hfits
      · obtain ⟨g', hg', hstep⟩ := copyBlocks_step left hcontent hroom hentry hskipped
        rw [if_neg hskipped] at hfits
        rw [hstep]
        refine bind_ne_fault (copyBlock_ne_fault hwidth (hfits entry List.mem_cons_self) _)
          fun copied hcopied => ih hg' hrest fun next hnext => hfits next ?_
        rw [hcopied]
        exact List.mem_cons_of_mem _ hnext
    · rw [copyBlocks, if_neg hroom]
      simp

theorem length_copyBlocks {index left : Nat} {addresses result : List UInt64}
    (hcontent : g.content = f.content)
    (hindex : ∀ i < index + left, ∃ entry behind, readIndexEntry f header i = ok (entry, behind))
    (hlength : addresses.length ≤ count)
    (h : copyBlocks g header offset count index addresses left = ok result) :
    result.length ≤ count := by
  induction left generalizing g index addresses with
  | zero =>
    obtain rfl := StoreResult.ok.inj h
    exact hlength
  | succ left ih =>
    by_cases hroom : addresses.length < count
    · obtain ⟨entry, behind, hentry⟩ := hindex index (by omega)
      have hrest : ∀ i < index + 1 + left, ∃ entry behind,
          readIndexEntry f header i = ok (entry, behind) := fun i hi => hindex i (by omega)
      by_cases hskipped : offset ≥ entry.cumulativeCandidates + entry.candidateCount.toUInt64
      · rw [copyBlocks_skip hcontent hroom hentry hskipped] at h
        exact ih (content_of_readIndexEntry hentry) hrest hlength h
      · obtain ⟨g', hg', hstep⟩ := copyBlocks_step left hcontent hroom hentry hskipped
        rw [hstep] at h
        obtain ⟨copied, hcopied, h⟩ := bind_eq_ok.1 h
        exact ih hg' hrest (length_copyBlock hlength hcopied) h
    · rw [copyBlocks, if_neg hroom] at h
      obtain rfl := StoreResult.ok.inj h
      exact hlength

end Blocks

/-! ## Both readers -/

section Readers

variable {Path : Type} {dir : Directory Path} {path : Path} {reader : SearchStoreReader}

/-- Every index entry of an opened file can be read. -/
theorem readIndexEntry_opened {device : Bool} (hopen : searchStoreReaderOpen device dir path = ok reader)
    {index : Nat} (hindex : index < reader.header.blockCount.toNat) :
    ∃ entry behind, readIndexEntry reader.file reader.header index = ok (entry, behind) := by
  have hsize := (searchStoreReaderOpen_ok hopen).2
  simp only [sizeAccepted, Bool.and_eq_true, decide_eq_true_eq, beq_iff_eq] at hsize
  obtain ⟨⟨-, hlong⟩, hlength⟩ := hsize
  have hentry : sizeofIndexEntry = 32 := rfl
  have hmax : Stdio.LONG_MAX < 2 ^ 64 := by decide
  rw [hentry] at hlength
  have hoffset : (reader.header.indexOffset +
      UInt64.ofNat index * UInt64.ofNat sizeofIndexEntry).toNat =
        reader.header.indexOffset.toNat + index * 32 := by
    rw [UInt64.toNat_add, UInt64.toNat_mul, hentry, UInt64.toNat_ofNat', UInt64.toNat_ofNat',
      Nat.mod_eq_of_lt (show index < 2 ^ 64 by omega), Nat.mod_eq_of_lt (show 32 < 2 ^ 64 by decide),
      Nat.mod_eq_of_lt (show index * 32 < 2 ^ 64 by omega), Nat.mod_eq_of_lt (by omega)]
  have hseek := Stdio.File.seekSet_eq (f := reader.file)
    (show reader.header.indexOffset.toNat + index * 32 ≤ Stdio.LONG_MAX by omega)
  have hread : reader.header.indexOffset.toNat + index * 32 + sizeofIndexEntry ≤
      reader.file.content.length := by omega
  unfold readIndexEntry
  rw [hoffset, hseek, ofOption_some, ok_bind, Stdio.File.read, if_pos hread]
  exact ⟨_, _, rfl⟩

/-- The index entries whose blocks a call for a page touches. -/
def touched (reader : SearchStoreReader) (offset count : UInt64) : List SearchStoreIndexEntry :=
  if offset ≥ reader.header.candidateCount || count == 0 then []
  else
    let blockCount := reader.header.blockCount.toNat
    match findBlock reader.file reader.header offset 0 blockCount with
    | ok (low, _) =>
      touchedEntries reader.file reader.header offset count.toNat low [] (blockCount - low)
    | _ => []

/-- Neither reader leaves a payload or a buffer, and a page is answered only where the sequential
    reader accepts each of the blocks that were touched. -/
structure ReadersSafe {Path : Type} (device : Bool) (dir : Directory Path) (path : Path)
    (offset count : UInt64) : Prop where
  next : ∀ reader, ReaderReached dir path reader → ∀ device values mask,
    values.length = valuesCapacity → mask.length = maskCapacity →
      searchStoreReaderNext device reader values mask ≠ fault
  page : searchStoreReadAddresses device dir path offset count ≠ fault
  room : ∀ result, searchStoreReadAddresses device dir path offset count = ok result →
    result.1.length ≤ count.toNat
  agree : ∀ reader result, searchStoreReaderOpen device dir path = ok reader →
    searchStoreReadAddresses device dir path offset count = ok result →
      ∀ entry ∈ touched reader offset count, NextAccepts reader entry.fileOffset

/-- The pages once the file is open. -/
def readPage (reader : SearchStoreReader) (offset count : UInt64) :
    StoreResult (List UInt64 × UInt64) :=
  if offset ≥ reader.header.candidateCount || count == 0 then
    ok ([], reader.header.candidateCount)
  else do
    let (low, file) ←
      findBlock reader.file reader.header offset 0 reader.header.blockCount.toNat
    let addresses ← copyBlocks file reader.header offset count.toNat low []
      (reader.header.blockCount.toNat - low)
    ok (addresses, reader.header.candidateCount)

theorem searchStoreReadAddresses_eq (device : Bool) (dir : Directory Path) (path : Path)
    (offset count : UInt64) : searchStoreReadAddresses device dir path offset count =
      (searchStoreReaderOpen device dir path >>= fun reader => readPage reader offset count) :=
  rfl

/-- What there is to prove about an opened reader: either no block is touched, or the page is what
    the loop copies. -/
theorem readPage_cases (reader : SearchStoreReader) (offset count : UInt64) :
    (touched reader offset count = [] ∧ readPage reader offset count ≠ fault ∧
      ∀ result, readPage reader offset count = ok result → result.1 = []) ∨
    ∃ low g, g.content = reader.file.content ∧ low ≤ reader.header.blockCount.toNat ∧
      touched reader offset count = touchedEntries reader.file reader.header offset count.toNat low
        [] (reader.header.blockCount.toNat - low) ∧
      readPage reader offset count =
        (copyBlocks g reader.header offset count.toNat low []
          (reader.header.blockCount.toNat - low) >>= fun addresses =>
            ok (addresses, reader.header.candidateCount)) := by
  unfold touched readPage
  by_cases hnone : (decide (offset ≥ reader.header.candidateCount) || count == 0) = true
  · rw [if_pos hnone, if_pos hnone]
    refine .inl ⟨rfl, by simp, fun result hresult => ?_⟩
    obtain rfl := StoreResult.ok.inj hresult
    rfl
  · rw [if_neg hnone, if_neg hnone]
    cases hfind : findBlock reader.file reader.header offset 0 reader.header.blockCount.toNat with
    | ok found =>
      obtain ⟨low, g⟩ := found
      obtain ⟨hcontent, hlow⟩ := content_of_findBlock hfind (Nat.zero_le _)
      simp only [hfind]
      exact .inr ⟨low, g, hcontent, hlow, rfl, rfl⟩
    | refused =>
      simp only [hfind]
      exact .inl ⟨trivial, by simp, fun result hresult => by cases hresult⟩
    | fault => exact absurd hfind (findBlock_ne_fault _ _ _ _ _)

/-- The loop of an opened reader finds the entries that it reads. -/
theorem readIndexEntry_loop {device : Bool} {low : Nat}
    (hopen : searchStoreReaderOpen device dir path = ok reader)
    (hlow : low ≤ reader.header.blockCount.toNat) :
    ∀ i < low + (reader.header.blockCount.toNat - low), ∃ entry behind,
      readIndexEntry reader.file reader.header i = ok (entry, behind) :=
  fun _ hi => readIndexEntry_opened hopen (by omega)

section Opened

variable {device : Bool} {offset count : UInt64}

theorem readPage_refused (hopen : searchStoreReaderOpen device dir path = ok reader)
    (h : ∃ entry ∈ touched reader offset count, BlockRefused reader.file reader.header entry) :
    readPage reader offset count = refused := by
  rcases readPage_cases reader offset count with
    ⟨hnone, -, -⟩ | ⟨low, g, hcontent, hlow, htouched, hcopied⟩
  · obtain ⟨entry, hentry, -⟩ := h
    rw [hnone] at hentry
    cases hentry
  · rw [htouched] at h
    rw [hcopied, (copyBlocks_refused_iff hcontent (readIndexEntry_loop hopen hlow)).2 h,
      refused_bind]

theorem readPage_ne_refused (hopen : searchStoreReaderOpen device dir path = ok reader)
    {entry : SearchStoreIndexEntry} (hentry : entry ∈ touched reader offset count)
    (h : ∀ entry ∈ touched reader offset count, ¬ BlockRefused reader.file reader.header entry) :
    readPage reader offset count ≠ refused := by
  rcases readPage_cases reader offset count with
    ⟨hnone, -, -⟩ | ⟨low, g, hcontent, hlow, htouched, hcopied⟩
  · rw [hnone] at hentry
    cases hentry
  · rw [htouched] at h
    rw [hcopied]
    cases hblocks : copyBlocks g reader.header offset count.toNat low []
        (reader.header.blockCount.toNat - low) with
    | ok addresses => simp
    | fault => simp
    | refused =>
      obtain ⟨refusedEntry, hmem, hrefused⟩ :=
        (copyBlocks_refused_iff hcontent (readIndexEntry_loop hopen hlow)).1 hblocks
      exact absurd hrefused (h refusedEntry hmem)

theorem readPage_ne_fault (hopen : searchStoreReaderOpen device dir path = ok reader)
    (h : ∀ entry ∈ touched reader offset count, EntryFits reader.file entry) :
    readPage reader offset count ≠ fault := by
  have hwidth := headerAccepted_width (searchStoreReaderOpen_ok hopen).1
  rcases readPage_cases reader offset count with
    ⟨-, hfault, -⟩ | ⟨low, g, hcontent, hlow, htouched, hcopied⟩
  · exact hfault
  · rw [htouched] at h
    rw [hcopied]
    exact bind_ne_fault
      (copyBlocks_ne_fault hwidth hcontent (readIndexEntry_loop hopen hlow) h) fun _ _ => by simp

theorem length_readPage (hopen : searchStoreReaderOpen device dir path = ok reader)
    {result : List UInt64 × UInt64} (h : readPage reader offset count = ok result) :
    result.1.length ≤ count.toNat := by
  rcases readPage_cases reader offset count with
    ⟨-, -, hempty⟩ | ⟨low, g, hcontent, hlow, -, hcopied⟩
  · rw [hempty result h]
    exact Nat.zero_le _
  · rw [hcopied] at h
    obtain ⟨addresses, hblocks, h⟩ := bind_eq_ok.1 h
    obtain rfl := StoreResult.ok.inj h
    exact length_copyBlocks hcontent (readIndexEntry_loop hopen hlow) (Nat.zero_le _) hblocks

theorem blockCount_pos {entry : SearchStoreIndexEntry}
    (hentry : entry ∈ touched reader offset count) : 0 < reader.header.blockCount := by
  rcases readPage_cases reader offset count with ⟨hnone, -, -⟩ | ⟨low, -, -, -, htouched, -⟩
  · rw [hnone] at hentry
    cases hentry
  · rw [UInt64.lt_iff_toNat_lt, UInt64.toNat_zero]
    by_contra hzero
    rw [htouched, Nat.eq_zero_of_not_pos hzero, Nat.zero_sub] at hentry
    cases hentry

/-- A touched block that fits and is not refused is one that the sequential reader accepts. -/
theorem nextAccepts_of_touched (hopen : searchStoreReaderOpen device dir path = ok reader)
    {entry : SearchStoreIndexEntry} (hentry : entry ∈ touched reader offset count)
    (hfits : EntryFits reader.file entry)
    (hrefused : ¬ BlockRefused reader.file reader.header entry) :
    NextAccepts reader entry.fileOffset := by
  unfold BlockRefused at hrefused
  push Not at hrefused
  obtain ⟨block, payload, hfound, haccepted, hentries⟩ := hrefused
  exact nextAccepts_of_found (headerAccepted_width (searchStoreReaderOpen_ok hopen).1)
    (blockCount_pos hentry) hfound (blockAccepted_of_entry haccepted)
    (hfits block payload hfound) hentries

theorem readersSafe_of_fits
    (h : ∀ reader, searchStoreReaderOpen device dir path = ok reader →
      (∀ entry ∈ touched reader offset count, EntryFits reader.file entry) ∨
        ∃ entry ∈ touched reader offset count, BlockRefused reader.file reader.header entry) :
    ReadersSafe device dir path offset count where
  next := fun _ hreached device _ _ hvalues hmask =>
    searchStoreReaderNext_ne_fault hreached.width device hvalues hmask
  page := by
    rw [searchStoreReadAddresses_eq]
    refine bind_ne_fault (searchStoreReaderOpen_ne_fault _ _ _) fun reader hopen => ?_
    rcases h reader hopen with hfits | hrefused
    · exact readPage_ne_fault hopen hfits
    · rw [readPage_refused hopen hrefused]
      simp
  room := by
    intro result hresult
    rw [searchStoreReadAddresses_eq] at hresult
    obtain ⟨reader, hopen, hpage⟩ := bind_eq_ok.1 hresult
    exact length_readPage hopen hpage
  agree := by
    intro reader result hopen hresult entry hentry
    rw [searchStoreReadAddresses_eq, hopen, ok_bind] at hresult
    rcases h reader hopen with hfits | hrefused
    · refine nextAccepts_of_touched hopen hentry (hfits entry hentry) fun hrefused => ?_
      cases (readPage_refused hopen ⟨entry, hentry, hrefused⟩).symm.trans hresult
    · cases (readPage_refused hopen hrefused).symm.trans hresult

theorem fits_of_readersSafe (h : ReadersSafe device dir path offset count)
    (hopen : searchStoreReaderOpen device dir path = ok reader) :
    (∀ entry ∈ touched reader offset count, EntryFits reader.file entry) ∨
      ∃ entry ∈ touched reader offset count, BlockRefused reader.file reader.header entry := by
  by_cases hrefused : ∃ entry ∈ touched reader offset count,
      BlockRefused reader.file reader.header entry
  · exact .inr hrefused
  · push Not at hrefused
    refine .inl fun entry hentry block payload hfound => ?_
    have hpage : searchStoreReadAddresses device dir path offset count =
        readPage reader offset count := by rw [searchStoreReadAddresses_eq, hopen, ok_bind]
    obtain ⟨result, hresult⟩ :=
      exists_ok (readPage_ne_refused hopen hentry hrefused) (hpage ▸ h.page)
    exact fits_of_nextAccepts (headerAccepted_width (searchStoreReaderOpen_ok hopen).1)
      (h.agree reader result hopen (hpage.trans hresult) entry hentry) hfound

end Opened

end Readers

/-- One candidate of one byte, in a sparse block. -/
def shortHeader : SearchStoreHeader :=
  let header : SearchStoreHeader :=
    { magic := SEARCH_STORE_MAGIC, version := SEARCH_STORE_VERSION,
      headerSize := UInt16.ofNat sizeofHeader,
      metadata := byteMetadata, candidateCount := 1, blockCount := 1, indexOffset := 201,
      dataBytes := 41, headerCrc := 0, reserved := 0 }
  { header with headerCrc := headerCrc header }

/-- Its payload is a single byte, where an entry takes five. -/
def shortFile : List UInt8 :=
  headerCodec.encode shortHeader ++
    blockCodec.encode
      { magic := SEARCH_STORE_BLOCK_MAGIC, representation := StoreRepresentationSparse, width := 1,
        reserved := 0, base := 0x1000, cumulativeCandidates := 0, slotCount := 1,
        candidateCount := 1, payloadSize := 1, payloadCrc := searchStoreCrc32 [0] } ++ [0] ++
    indexCodec.encode
      { fileOffset := 160, cumulativeCandidates := 0, base := 0x1000, slotCount := 1,
        candidateCount := 1 }

def isFault {α : Type} : StoreResult α → Bool
  | fault => true
  | _ => false

end SysAgent
