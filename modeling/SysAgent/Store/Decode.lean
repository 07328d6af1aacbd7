import Mathlib
import SysAgent.Store.Image
import SysAgent.Store.Reader

set_option autoImplicit false

/-! # Decoding what a call has written

The encoder and `searchStoreReaderNext` lay out the three representations independently of each
other. A stored block decodes into the buffers of the reader: the values of the candidate slots are
those of the call, and the mask is compared bit by bit. -/

namespace SysAgent

open StoreResult

/-! ## Buffers -/

/-- A buffer with `src` copied to a position. -/
def overwrite (dst : List UInt8) (position : Nat) (src : List UInt8) : List UInt8 :=
  dst.take position ++ src ++ dst.drop (position + src.length)

theorem copyInto_ok {dst src : List UInt8} {position : Nat}
    (h : position + src.length ≤ dst.length) :
    copyInto dst position src = ok (overwrite dst position src) :=
  if_pos h

theorem length_overwrite {dst src : List UInt8} {position : Nat}
    (h : position + src.length ≤ dst.length) : (overwrite dst position src).length = dst.length := by
  simp only [overwrite, List.length_append, List.length_take, List.length_drop]
  omega

theorem getElem?_overwrite {dst src : List UInt8} {position : Nat}
    (h : position + src.length ≤ dst.length) (j : Nat) :
    (overwrite dst position src)[j]? =
      if position ≤ j ∧ j < position + src.length then src[j - position]? else dst[j]? := by
  have htake : (dst.take position).length = position := by
    rw [List.length_take]
    omega
  rw [overwrite, List.append_assoc]
  rcases Nat.lt_or_ge j position with hbefore | hfrom
  · rw [List.getElem?_append_left (by omega), List.getElem?_take_of_lt hbefore, if_neg (by omega)]
  · rw [List.getElem?_append_right (by omega), htake]
    rcases Nat.lt_or_ge j (position + src.length) with hinside | hbehind
    · rw [List.getElem?_append_left (by omega), if_pos ⟨hfrom, hinside⟩]
    · rw [List.getElem?_append_right (by omega), List.getElem?_drop, if_neg (by omega)]
      congr 1
      omega

theorem overwrite_zero (dst src : List UInt8) :
    overwrite dst 0 src = src ++ dst.drop src.length := by
  simp [overwrite]

theorem bytesAt_ok {src before item after : List UInt8} {position n : Nat}
    (hsrc : src = before ++ item ++ after) (hposition : position = before.length)
    (hn : n = item.length) : bytesAt src position n = ok item := by
  have hfits : position + n ≤ src.length := by
    rw [hsrc, List.length_append, List.length_append]
    omega
  rw [bytesAt, if_pos hfits, hsrc, hposition, hn, List.append_assoc, List.drop_left,
    List.take_left]

theorem bytesAt_all {src : List UInt8} {n : Nat} (hn : n = src.length) :
    bytesAt src 0 n = ok src :=
  bytesAt_ok (List.append_nil ([] ++ src)).symm List.length_nil.symm hn

/-! ### Slots of a value buffer -/

theorem getElem?_slotValue (values : List UInt8) (width slot j : Nat) :
    (slotValue values width slot)[j]? = if j < width then values[slot * width + j]? else none := by
  rw [slotValue, List.getElem?_take]
  split
  · rw [List.getElem?_drop]
  · rfl

/-- Two buffers that agree on the bytes of a slot. -/
theorem slotValue_congr {values values' : List UInt8} {width slot : Nat}
    (h : ∀ j < width, values[slot * width + j]? = values'[slot * width + j]?) :
    slotValue values width slot = slotValue values' width slot := by
  refine List.ext_getElem? fun j => ?_
  rw [getElem?_slotValue, getElem?_slotValue]
  split
  · rename_i hj
    exact h j hj
  · rfl

theorem slotValue_overwrite_self {dst v : List UInt8} {width slot : Nat} (hv : v.length = width)
    (h : slot * width + width ≤ dst.length) :
    slotValue (overwrite dst (slot * width) v) width slot = v := by
  refine List.ext_getElem? fun j => ?_
  rw [getElem?_slotValue, getElem?_overwrite (by omega)]
  rcases Nat.lt_or_ge j width with hj | hj
  · rw [if_pos hj, if_pos ⟨by omega, by omega⟩, Nat.add_sub_cancel_left]
  · rw [if_neg (by omega), List.getElem?_eq_none (by omega)]

theorem slotValue_overwrite_ne {dst v : List UInt8} {width slot other : Nat}
    (hv : v.length = width) (h : slot * width + width ≤ dst.length) (hne : other ≠ slot) :
    slotValue (overwrite dst (slot * width) v) width other = slotValue dst width other := by
  refine slotValue_congr fun j hj => ?_
  rw [getElem?_overwrite (by omega), if_neg]
  intro hinside
  rcases Nat.lt_or_gt_of_ne hne with hlt | hgt
  · have hle := Nat.mul_le_mul_right width hlt
    rw [Nat.succ_mul] at hle
    omega
  · have hle := Nat.mul_le_mul_right width hgt
    rw [Nat.succ_mul] at hle
    omega

/-- A buffer that starts with the values of all slots. -/
theorem slotValue_overwrite_zero {dst values : List UInt8} {width slot slots : Nat}
    (hlen : slots * width ≤ values.length) (hslot : slot < slots)
    (h : slots * width ≤ dst.length) :
    slotValue (overwrite dst 0 (values.take (slots * width))) width slot =
      slotValue values width slot := by
  have hle := Nat.mul_le_mul_right width hslot
  rw [Nat.succ_mul] at hle
  have htake : (values.take (slots * width)).length = slots * width := by
    rw [List.length_take]
    omega
  refine slotValue_congr fun j hj => ?_
  rw [getElem?_overwrite (by omega), if_pos ⟨by omega, by omega⟩, Nat.sub_zero,
    List.getElem?_take_of_lt (by omega)]

/-! ### Bits of a mask buffer -/

theorem test_overwrite {mask src : List UInt8} {position : Nat}
    (h : position + src.length ≤ mask.length) (i : Nat) :
    ByteMask.test (overwrite mask position src) i =
      if position ≤ i / 8 ∧ i / 8 < position + src.length then
        ByteMask.test src (i - 8 * position)
      else ByteMask.test mask i := by
  simp only [ByteMask.test, List.getD_eq_getElem?_getD, getElem?_overwrite h]
  split
  · have hbyte : i / 8 - position = (i - 8 * position) / 8 := by omega
    have hbit : i % 8 = (i - 8 * position) % 8 := by omega
    rw [hbyte, hbit]
  · rfl

theorem test_overwrite_zero {mask src : List UInt8} (h : src.length ≤ mask.length) (i : Nat) :
    ByteMask.test (overwrite mask 0 src) i =
      if i < 8 * src.length then ByteMask.test src i else ByteMask.test mask i := by
  rw [test_overwrite (by omega)]
  exact if_congr (by omega) rfl rfl

/-- The kept bits of the last byte. -/
theorem test_kept {k j : Nat} (hk : k < 8) (hj : j < 8) :
    ByteMask.test [0xFF &&& UInt8.ofNat (2 ^ k - 1)] j = decide (j < k) := by
  have hall : ∀ k < 8, ∀ j < 8,
      ByteMask.test [0xFF &&& UInt8.ofNat (2 ^ k - 1)] j = decide (j < k) := by decide
  exact hall k hk j hj

/-- The mask of a full block: bits are set byte by byte, and those behind the last slot cleared. -/
theorem test_fullMask {mask : List UInt8} {slots n : Nat} (hn : n = (slots + 7) / 8)
    (hlen : n ≤ mask.length) (hrest : slots % 8 ≠ 0) (i : Nat) :
    ByteMask.test (overwrite (overwrite mask 0 (List.replicate n 0xFF)) (n - 1)
        [0xFF &&& UInt8.ofNat (2 ^ (slots % 8) - 1)]) i =
      if i < 8 * n then decide (i < slots) else ByteMask.test mask i := by
  have hfull : (List.replicate n (0xFF : UInt8)).length ≤ mask.length := by
    rwa [List.length_replicate]
  have hlast : n - 1 + 1 ≤ (overwrite mask 0 (List.replicate n 0xFF)).length := by
    rw [length_overwrite (by omega)]
    omega
  rw [test_overwrite hlast, List.length_singleton, test_overwrite_zero hfull,
    List.length_replicate]
  by_cases hbyte : n - 1 ≤ i / 8 ∧ i / 8 < n - 1 + 1
  · rw [if_pos hbyte, test_kept (Nat.mod_lt _ (by decide)) (by omega), if_pos (by omega)]
    exact decide_eq_decide.2 (by omega)
  · rw [if_neg hbyte]
    split
    · rw [ByteMask.test_replicate_ones (by omega)]
      exact (decide_eq_true (by omega)).symm
    · rfl

namespace BlockCall

variable {width : Nat}

/-! ## What the reader makes of a call -/

/-- Bit `i` of the mask that a stored call decodes to, in a buffer that holds `mask`. -/
def decodedBit (call : BlockCall width) (mask : List UInt8) (i : Nat) : Bool :=
  if i < 8 * maskBytes call.slotCount then
    if call.representation = StoreRepresentationBitmap then ByteMask.test (call.mask.getD []) i
    else decide (i ∈ call.slots)
  else decide (i ∈ call.slots) || ByteMask.test mask i

/-- A payload that holds the values of all slots is too large for a slot count at which the size
    of the mask wraps around. -/
theorem maskBytes_of_values {call : BlockCall width} (hwidth : 0 < width)
    (hsize : call.slotCount.toNat * width ≤ StoreMaximumPayload) :
    maskBytes call.slotCount = (call.slotCount.toNat + 7) / 8 := by
  have hle := Nat.le_mul_of_pos_right call.slotCount.toNat hwidth
  have hmax : StoreMaximumPayload + 7 < 2 ^ 32 := by decide
  rw [maskBytes_eq, Nat.mod_eq_of_lt (by omega)]

section Representations

variable {call : BlockCall width} {block : SearchStoreBlockHeader} {values mask : List UInt8}

theorem decodeAll_payload (hwidth : 0 < width) (hblock : block.slotCount = call.slotCount)
    (hblockWidth : block.width.toNat = width)
    (hrep : call.representation = StoreRepresentationAll)
    (hslots : call.slots.length = call.slotCount.toNat)
    (hsize : call.slotCount.toNat * width ≤ StoreMaximumPayload)
    (hvalues : call.slotCount.toNat * width ≤ values.length)
    (hmask : maskBytes call.slotCount ≤ mask.length) :
    ∃ values' mask', decodeAll block call.payload values mask = ok (values', mask') ∧
      values'.length = values.length ∧ mask'.length = mask.length ∧
      (∀ slot ∈ call.slots, slotValue values' width slot = slotValue call.values width slot) ∧
      ∀ i, ByteMask.test mask' i = call.decodedBit mask i := by
  have hpayload : call.payload = call.values.take (call.slotCount.toNat * width) := by
    rw [payload, blockPayload, hrep]
    rfl
  have hlen : call.payload.length = call.slotCount.toNat * width := by
    rw [hpayload, List.length_take]
    exact Nat.min_eq_left call.values_len
  have hbytes := maskBytes_of_values hwidth hsize
  have hall : call.slots = List.range call.slotCount.toNat := slots_eq_range hslots
  have hvalues' : 0 + call.payload.length ≤ values.length := by omega
  have hfull : 0 + (List.replicate (maskBytes call.slotCount) (0xFF : UInt8)).length ≤
      mask.length := by
    rw [List.length_replicate]
    omega
  have hbit {i : Nat} : call.decodedBit mask i =
      if i < 8 * maskBytes call.slotCount then decide (i < call.slotCount.toNat)
      else ByteMask.test mask i := by
    have hne : StoreRepresentationAll ≠ StoreRepresentationBitmap := by decide
    simp only [decodedBit, hrep, if_neg hne, hall, List.mem_range]
    split
    · rfl
    · rw [decide_eq_false (by omega), Bool.false_or]
  have hslot : ∀ slot ∈ call.slots, slotValue (overwrite values 0 call.payload) width slot =
      slotValue call.values width slot := by
    intro slot hslot
    rw [hpayload]
    exact slotValue_overwrite_zero call.values_len (mem_slots.1 hslot).1 hvalues
  simp only [decodeAll, hblock, hblockWidth, bytesAt_all hlen.symm, copyInto_ok hvalues',
    copyInto_ok hfull, ok_bind]
  by_cases hrest : call.slotCount.toNat % 8 = 0
  · rw [if_neg (not_not.2 hrest)]
    refine ⟨_, _, rfl, length_overwrite hvalues', length_overwrite hfull, hslot, fun i => ?_⟩
    rw [hbit, test_overwrite_zero (by omega), List.length_replicate]
    split
    · rw [ByteMask.test_replicate_ones (by omega)]
      exact (decide_eq_true (by omega)).symm
    · rfl
  · have hpos : maskBytes call.slotCount ≠ 0 := by omega
    have hlast : bytesAt (overwrite mask 0 (List.replicate (maskBytes call.slotCount) 0xFF))
        (maskBytes call.slotCount - 1) 1 = ok [0xFF] := by
      have hsplit : overwrite mask 0 (List.replicate (maskBytes call.slotCount) 0xFF) =
          List.replicate (maskBytes call.slotCount - 1) 0xFF ++ [0xFF] ++
            mask.drop (maskBytes call.slotCount) := by
        rw [overwrite_zero, List.length_replicate, ← List.replicate_succ',
          Nat.sub_add_cancel (by omega)]
      exact bytesAt_ok hsplit List.length_replicate.symm rfl
    have hkept : maskBytes call.slotCount - 1 + 1 ≤
        (overwrite mask 0 (List.replicate (maskBytes call.slotCount) 0xFF)).length := by
      rw [length_overwrite hfull]
      omega
    rw [if_pos hrest, if_neg hpos, hlast, ok_bind, List.map_singleton,
      copyInto_ok hkept, ok_bind]
    refine ⟨_, _, rfl, length_overwrite hvalues', ?_, hslot, fun i => ?_⟩
    · rw [length_overwrite hkept, length_overwrite hfull]
    · rw [hbit, test_fullMask hbytes hmask hrest]

theorem decodeBitmap_payload (hwidth : 0 < width) (hblock : block.slotCount = call.slotCount)
    (hblockWidth : block.width.toNat = width)
    (hrep : call.representation = StoreRepresentationBitmap)
    (hslots : call.slots.length ≠ call.slotCount.toNat)
    (hsize : call.slotCount.toNat * width ≤ StoreMaximumPayload)
    (hvalues : call.slotCount.toNat * width ≤ values.length)
    (hmask : maskBytes call.slotCount ≤ mask.length) :
    ∃ values' mask', decodeBitmap block call.payload values mask = ok (values', mask') ∧
      values'.length = values.length ∧ mask'.length = mask.length ∧
      (∀ slot ∈ call.slots, slotValue values' width slot = slotValue call.values width slot) ∧
      ∀ i, ByteMask.test mask' i = call.decodedBit mask i := by
  obtain ⟨m, hm⟩ := mask_of_length_ne hslots
  have hbytes := maskBytes_of_values hwidth hsize
  have hmaskLen := call.mask_len m hm
  have hpayload : call.payload = m.take (maskBytes call.slotCount) ++
      call.values.take (call.slotCount.toNat * width) := by
    rw [payload, blockPayload, hrep, hm]
    rfl
  have htake : (m.take (maskBytes call.slotCount)).length = maskBytes call.slotCount := by
    rw [List.length_take]
    omega
  have htakeValues : (call.values.take (call.slotCount.toNat * width)).length =
      call.slotCount.toNat * width := by
    rw [List.length_take]
    exact Nat.min_eq_left call.values_len
  have hmaskBytes : bytesAt call.payload 0 (maskBytes call.slotCount) =
      ok (m.take (maskBytes call.slotCount)) :=
    bytesAt_ok (hpayload.trans (by rw [List.nil_append])) List.length_nil.symm htake.symm
  have hvalueBytes : bytesAt call.payload (maskBytes call.slotCount)
      (call.slotCount.toNat * width) = ok (call.values.take (call.slotCount.toNat * width)) :=
    bytesAt_ok (hpayload.trans (List.append_nil _).symm) htake.symm htakeValues.symm
  have hmask' : 0 + (m.take (maskBytes call.slotCount)).length ≤ mask.length := by omega
  have hvalues' : 0 + (call.values.take (call.slotCount.toNat * width)).length ≤
      values.length := by omega
  simp only [decodeBitmap, hblock, hblockWidth, hmaskBytes, hvalueBytes, copyInto_ok hmask',
    copyInto_ok hvalues', ok_bind]
  refine ⟨_, _, rfl, length_overwrite hvalues', length_overwrite hmask', ?_, fun i => ?_⟩
  · intro slot hslot
    exact slotValue_overwrite_zero call.values_len (mem_slots.1 hslot).1 hvalues
  · rw [test_overwrite_zero (by omega), htake, decodedBit, if_pos hrep, hm, Option.getD_some]
    split
    · have hin : i / 8 < (m.take (maskBytes call.slotCount)).length := by omega
      rw [← ByteMask.test_append_left hin, List.take_append_drop]
    · have hout : i ∉ call.slots := fun hmem => by
        have hlt := (mem_slots.1 hmem).1
        omega
      rw [decide_eq_false hout, Bool.false_or]

end Representations

/-! ### Sparse payloads -/

/-- One entry of a sparse payload. -/
def sparseEntry (values : List UInt8) (width slot : Nat) : List UInt8 :=
  Codec.u32.encode (UInt32.ofNat slot) ++ slotValue values width slot

/-- A slot number fits into its `uint32_t`. -/
theorem toNat_ofNat_slot {slot : Nat} {slotCount : UInt32} (h : slot < slotCount.toNat) :
    (UInt32.ofNat slot).toNat = slot := by
  have hlt := slotCount.toNat_lt
  rw [UInt32.toNat_ofNat', Nat.mod_eq_of_lt (by omega)]

/-- What both readers require of the next slot number. -/
theorem sparse_slot_accepted {block : SearchStoreBlockHeader} {index slot : Nat}
    (previous : UInt32) (hslot : slot < block.slotCount.toNat)
    (hprevious : 0 < index → previous.toNat < slot) :
    (decide (UInt32.ofNat slot < block.slotCount) &&
      !(decide (index > 0) && decide (UInt32.ofNat slot ≤ previous))) = true := by
  simp only [UInt32.lt_iff_toNat_lt, UInt32.le_iff_toNat_le, toNat_ofNat_slot hslot, hslot,
    decide_true, Bool.true_and, Bool.not_eq_true', Bool.and_eq_false_iff, decide_eq_false_iff_not,
    not_lt, not_le, Nat.le_zero]
  rcases Nat.eq_zero_or_pos index with hzero | hpos
  · exact Or.inl hzero
  · exact Or.inr (hprevious hpos)

/-- The loop of the sparse representation, over the entries that are left. -/
theorem decodeSparse_entries {block : SearchStoreBlockHeader}
    {payload before source values mask : List UInt8} {slots : List Nat} (index : Nat)
    (previous : UInt32) (hblockWidth : block.width.toNat = width)
    (hpayload : payload = before ++ slots.flatMap (sparseEntry source width))
    (hsorted : slots.Pairwise (· < ·)) (hprevious : 0 < index → ∀ slot ∈ slots, previous.toNat < slot)
    (hlt : ∀ slot ∈ slots, slot < block.slotCount.toNat)
    (hsource : block.slotCount.toNat * width ≤ source.length)
    (hvalues : block.slotCount.toNat * width ≤ values.length)
    (hmask : block.slotCount.toNat ≤ 8 * mask.length) :
    ∃ values', decodeSparse block payload index before.length previous values mask slots.length =
        ok (values', slots.foldl ByteMask.set mask) ∧
      values'.length = values.length ∧
      (∀ slot ∈ slots, slotValue values' width slot = slotValue source width slot) ∧
      ∀ slot ∉ slots, slotValue values' width slot = slotValue values width slot := by
  induction slots generalizing before index previous values mask with
  | nil => exact ⟨values, rfl, rfl, by simp, fun _ _ => rfl⟩
  | cons slot slots ih =>
    have hslot := hlt slot List.mem_cons_self
    have hvalue : (slotValue source width slot).length = width := length_slotValue hslot hsource
    have hword : (Codec.u32.encode (UInt32.ofNat slot)).length = 4 := Codec.u32.length_encode _
    have hslotBytes : bytesAt payload before.length 4 =
        ok (Codec.u32.encode (UInt32.ofNat slot)) := by
      have hsplit : payload = before ++ Codec.u32.encode (UInt32.ofNat slot) ++
          (slotValue source width slot ++ slots.flatMap (sparseEntry source width)) := by
        rw [hpayload, List.flatMap_cons, sparseEntry]
        simp only [List.append_assoc]
      exact bytesAt_ok hsplit rfl hword.symm
    have hvalueBytes : bytesAt payload (before.length + 4) width =
        ok (slotValue source width slot) := by
      have hsplit : payload = (before ++ Codec.u32.encode (UInt32.ofNat slot)) ++
          slotValue source width slot ++ slots.flatMap (sparseEntry source width) := by
        rw [hpayload, List.flatMap_cons, sparseEntry]
        simp only [List.append_assoc]
      exact bytesAt_ok hsplit (by rw [List.length_append, hword]) hvalue.symm
    have hroom : slot * width + width ≤ values.length := by
      have hle := Nat.mul_le_mul_right width hslot
      rw [Nat.succ_mul] at hle
      omega
    have hset : bitSet mask slot = ok (ByteMask.set mask slot) := if_pos (by omega)
    have hcopy : copyInto values (slot * width) (slotValue source width slot) =
        ok (overwrite values (slot * width) (slotValue source width slot)) :=
      copyInto_ok (by omega)
    have haccepted := sparse_slot_accepted previous hslot
      fun hpos => hprevious hpos slot List.mem_cons_self
    obtain ⟨hbehind, hsorted'⟩ := List.pairwise_cons.1 hsorted
    have hpayload' : payload = (before ++ sparseEntry source width slot) ++
        slots.flatMap (sparseEntry source width) := by
      rw [hpayload, List.flatMap_cons, List.append_assoc]
    have hcursor : (before ++ sparseEntry source width slot).length = before.length + 4 + width := by
      rw [List.length_append, sparseEntry, List.length_append, hword, hvalue, Nat.add_assoc]
    have hprevious' : 0 < index + 1 → ∀ s ∈ slots, (UInt32.ofNat slot).toNat < s := by
      intro _ s hs
      rw [toNat_ofNat_slot hslot]
      exact hbehind s hs
    have hlenOver : (overwrite values (slot * width) (slotValue source width slot)).length =
        values.length := length_overwrite (by omega)
    obtain ⟨values', hrest, hlen, hcopied, hkept⟩ := ih (index + 1)
      (UInt32.ofNat slot) hpayload' hsorted' hprevious'
      (fun s hs => hlt s (List.mem_cons_of_mem _ hs)) (hlenOver ▸ hvalues)
      ((ByteMask.length_set mask slot).symm ▸ hmask)
    refine ⟨values', ?_, hlen.trans hlenOver, ?_, ?_⟩
    · rw [List.length_cons, decodeSparse, hslotBytes, ok_bind, Codec.u32.decode_encode]
      rw [hcursor] at hrest
      simp only [haccepted, require_true, ok_bind, toNat_ofNat_slot hslot, hset, hblockWidth,
        hvalueBytes, hcopy, hrest, List.foldl_cons]
    · intro s hs
      rcases List.mem_cons.1 hs with rfl | hs
      · by_cases hmem : s ∈ slots
        · exact hcopied s hmem
        · rw [hkept s hmem]
          exact slotValue_overwrite_self hvalue hroom
      · exact hcopied s hs
    · intro s hs
      obtain ⟨hne, hs⟩ := not_or.1 (mt List.mem_cons.2 hs)
      rw [hkept s hs]
      exact slotValue_overwrite_ne hvalue hroom hne

theorem decodedBit_congr {call : BlockCall width} {mask mask' : List UInt8} {i : Nat}
    (h : 8 * maskBytes call.slotCount ≤ i → ByteMask.test mask i = ByteMask.test mask' i) :
    call.decodedBit mask i = call.decodedBit mask' i := by
  unfold decodedBit
  split
  · rfl
  · rw [h (by omega)]

/-- The sparse representation, in buffers that have been cleared. -/
theorem decodeSparse_payload {call : BlockCall width} {block : SearchStoreBlockHeader}
    {values mask : List UInt8} (hblock : block.slotCount = call.slotCount)
    (hblockWidth : block.width.toNat = width)
    (hrep : call.representation = StoreRepresentationSparse)
    (hvalues : call.slotCount.toNat * width ≤ values.length)
    (hmask : call.slotCount.toNat ≤ 8 * mask.length)
    (hclear : ∀ i < 8 * maskBytes call.slotCount, ByteMask.test mask i = false) :
    ∃ values' mask',
      decodeSparse block call.payload 0 0 0 values mask call.slots.length = ok (values', mask') ∧
      values'.length = values.length ∧ mask'.length = mask.length ∧
      (∀ slot ∈ call.slots, slotValue values' width slot = slotValue call.values width slot) ∧
      ∀ i, ByteMask.test mask' i = call.decodedBit mask i := by
  have hpayload : call.payload = [] ++ call.slots.flatMap (sparseEntry call.values width) := by
    rw [payload, blockPayload, hrep]
    rfl
  have hlt : ∀ slot ∈ call.slots, slot < block.slotCount.toNat := fun slot hslot => by
    rw [hblock]
    exact (mem_slots.1 hslot).1
  obtain ⟨values', hdecode, hlen, hcopied, -⟩ := decodeSparse_entries 0 0
    hblockWidth hpayload call.slots_sorted (fun h => absurd h (Nat.lt_irrefl 0)) hlt
    (by rw [hblock]; exact call.values_len) (by rwa [hblock]) (by rwa [hblock])
  refine ⟨values', _, hdecode, hlen, ByteMask.length_foldl_set mask call.slots, hcopied,
    fun i => ?_⟩
  have hbits : ∀ slot ∈ call.slots, slot / 8 < mask.length := fun slot hslot => by
    have hslot' := (mem_slots.1 hslot).1
    omega
  have hne : StoreRepresentationSparse ≠ StoreRepresentationBitmap := by decide
  rw [ByteMask.test_foldl_set hbits]
  simp only [decodedBit, hrep, if_neg hne]
  split
  · rename_i hi
    rw [hclear i hi, Bool.false_or]
  · rw [Bool.or_comm]

/-- A stored block decodes, whatever the buffers hold. -/
theorem decodeBlock_stored {call : BlockCall width} {values mask : List UInt8} {cumulative : Nat}
    (hwidth : 0 < width) (hwidth8 : width ≤ 8) (hsize : call.payloadSize ≤ StoreMaximumPayload)
    (hvalues : call.slotCount.toNat * width ≤ values.length)
    (hmask : (call.slotCount.toNat + 7) / 8 ≤ mask.length) :
    ∃ values' mask',
      decodeBlock (call.stored cumulative).header call.payload values mask = ok (values', mask') ∧
      values'.length = values.length ∧ mask'.length = mask.length ∧
      (∀ slot ∈ call.slots, slotValue values' width slot = slotValue call.values width slot) ∧
      ∀ i, ByteMask.test mask' i = call.decodedBit mask i := by
  have hmaskBytes := maskBytes_le call.slotCount
  have hmax : StoreMaximumPayload < 2 ^ 32 := by decide
  have hblock : (call.stored cumulative).header.slotCount = call.slotCount := by
    rw [stored_header]
  have hblockWidth : (call.stored cumulative).header.width.toNat = width := by
    rw [stored_header]
    exact UInt8.toNat_ofNat_of_lt (lt_of_le_of_lt hwidth8 (by decide))
  have hrepresentation : (call.stored cumulative).header.representation = call.representation := by
    rw [stored_header]
  have hpayloadSize : (call.stored cumulative).header.payloadSize.toNat = call.payloadSize :=
    stored_payloadSize (by omega) cumulative
  have hcount := stored_candidateCount call cumulative
  have hzeros : 0 + (List.replicate (call.slotCount.toNat * width) (0 : UInt8)).length ≤
      values.length := by
    rw [List.length_replicate]
    omega
  have hclear : 0 + (List.replicate (maskBytes call.slotCount) (0 : UInt8)).length ≤
      mask.length := by
    rw [List.length_replicate]
    omega
  -- the buffers after the two `memset` calls
  obtain ⟨values₀, hvalues₀⟩ : ∃ v, v = overwrite values 0
    (List.replicate (call.slotCount.toNat * width) 0) := ⟨_, rfl⟩
  obtain ⟨mask₀, hmask₀⟩ : ∃ m, m = overwrite mask 0
    (List.replicate (maskBytes call.slotCount) 0) := ⟨_, rfl⟩
  have hvaluesLen : values₀.length = values.length := hvalues₀ ▸ length_overwrite hzeros
  have hmaskLen : mask₀.length = mask.length := hmask₀ ▸ length_overwrite hclear
  have hbits (i : Nat) : ByteMask.test mask₀ i =
      if i < 8 * maskBytes call.slotCount then false else ByteMask.test mask i := by
    rw [hmask₀, test_overwrite_zero (by omega), List.length_replicate,
      ByteMask.test_replicate_zero]
  have hdecoded (i : Nat) : call.decodedBit mask₀ i = call.decodedBit mask i :=
    decodedBit_congr fun hi => by rw [hbits, if_neg (by omega)]
  simp only [decodeBlock, hblock, hblockWidth, hrepresentation, hpayloadSize, hcount,
    copyInto_ok hzeros, copyInto_ok hclear, ok_bind, ← hvalues₀, ← hmask₀]
  rw [← hvaluesLen, ← hmaskLen]
  simp only [← hdecoded]
  rcases call.representation_cases with ⟨hall, hrep, hsz⟩ | ⟨hne, hrep, hsz⟩ | ⟨hne, hrep, hsz⟩
  · rw [hrep, hsz, if_pos (by simp)]
    exact decodeAll_payload hwidth hblock hblockWidth hrep hall (by omega) (by omega) (by omega)
  · rw [hrep, hsz, if_neg (by simp [StoreRepresentationAll, StoreRepresentationBitmap]),
      if_pos (by simp)]
    exact decodeBitmap_payload hwidth hblock hblockWidth hrep hne (by omega) (by omega) (by omega)
  · rw [hrep, hsz, if_neg (by simp [StoreRepresentationAll, StoreRepresentationSparse]),
      if_neg (by simp [StoreRepresentationBitmap, StoreRepresentationSparse]), if_pos (by simp)]
    exact decodeSparse_payload hblock hblockWidth hrep (by omega) (by omega)
      fun i hi => by rw [hbits, if_pos hi]

end BlockCall

end SysAgent
