import SysAgent.Store.RoundTrip

set_option autoImplicit false

/-! # Pages of a session file (`searchStoreReadAddresses`)

A page is a slice of the addresses of all candidates. The binary search over the index skips only
blocks that end before the page; the walk over the blocks behind it adds each candidate from the
offset on until the page is full. -/

namespace SysAgent

open StoreResult

/-! ## Slices -/

/-- What a page of `count` items from `offset` on holds of a list. -/
def page {α : Type} (items : List α) (offset count : Nat) : List α :=
  (items.drop offset).take count

section Page

variable {α : Type} {items more : List α} {offset count : Nat}

/-- Nothing reaches into the page. -/
theorem page_of_le (h : items.length ≤ offset) : page items offset count = [] := by
  rw [page, List.drop_eq_nil_of_le h, List.take_nil]

/-- The page is full. -/
theorem page_append_full (h : count ≤ (page items offset count).length) :
    page (items ++ more) offset count = page items offset count := by
  rw [page, List.length_take, List.length_drop] at h
  rcases Nat.eq_zero_or_pos count with rfl | hpos
  · rfl
  · rw [page, page, List.drop_append_of_le_length (by omega),
      List.take_append_of_le_length (by rw [List.length_drop]; omega)]

/-- One more item. -/
theorem page_concat (item : α) :
    page (items ++ [item]) offset count =
      if offset ≤ items.length ∧ (page items offset count).length < count then
        page items offset count ++ [item]
      else page items offset count := by
  split_ifs with h
  · obtain ⟨hoffset, hroom⟩ := h
    rw [page, List.length_take, List.length_drop] at hroom
    rw [page, page, List.drop_append_of_le_length hoffset, List.take_of_length_le (by
        rw [List.length_append, List.length_drop, List.length_singleton]; omega),
      List.take_of_length_le (by rw [List.length_drop]; omega)]
  · by_cases hoffset : offset ≤ items.length
    · exact page_append_full (not_lt.1 fun hroom => h ⟨hoffset, hroom⟩)
    · rw [page_of_le (by rw [List.length_append, List.length_singleton]; omega),
        page_of_le (by omega)]

/-- A page and the next one. -/
theorem page_add (items : List α) (offset first second : Nat) :
    page items offset first ++ page items (offset + (page items offset first).length) second =
      page items offset (first + second) := by
  unfold page
  rw [List.length_take, List.length_drop, List.take_add, List.drop_drop]
  rcases Nat.le_total first (items.length - offset) with hle | hle
  · rw [Nat.min_eq_left hle]
  · have hbehind : items.drop (offset + (items.length - offset)) = [] :=
      List.drop_eq_nil_of_le (by omega)
    have hnext : items.drop (offset + first) = [] := List.drop_eq_nil_of_le (by omega)
    rw [Nat.min_eq_right hle, hbehind, hnext]

end Page

/-! ## Addresses -/

namespace BlockCall

variable {metadata : SearchStoreMetadata}

/-- The addresses of some slots of a call. -/
def addressesOf (call : BlockCall metadata.width.toNat) (slots : List Nat) : List UInt64 :=
  slots.map fun slot => call.base + UInt64.ofNat slot * metadata.alignment

theorem length_addressesOf (call : BlockCall metadata.width.toNat) (slots : List Nat) :
    (call.addressesOf slots).length = slots.length :=
  List.length_map _

end BlockCall

/-- The addresses of the candidates of a list of calls. -/
def candidateAddresses {metadata : SearchStoreMetadata}
    (calls : List (BlockCall metadata.width.toNat)) : List UInt64 :=
  calls.flatMap fun call => call.addressesOf call.slots

section Addresses

variable {metadata : SearchStoreMetadata}

theorem candidateAddresses_append (calls more : List (BlockCall metadata.width.toNat)) :
    candidateAddresses (calls ++ more) = candidateAddresses calls ++ candidateAddresses more :=
  List.flatMap_append

theorem candidateAddresses_snoc (calls : List (BlockCall metadata.width.toNat))
    (call : BlockCall metadata.width.toNat) :
    candidateAddresses (calls ++ [call]) =
      candidateAddresses calls ++ call.addressesOf call.slots := by
  rw [candidateAddresses_append, candidateAddresses, candidateAddresses, List.flatMap_singleton]

theorem length_candidateAddresses (calls : List (BlockCall metadata.width.toNat)) :
    (candidateAddresses calls).length = candidates calls := by
  induction calls with
  | nil => rfl
  | cons call calls ih =>
    rw [← List.singleton_append, candidateAddresses_append, List.length_append, ih,
      candidateAddresses, List.flatMap_singleton, call.length_addressesOf, List.singleton_append,
      candidates_cons]

end Addresses

/-! ## The walk through a block -/

section Walk

variable {metadata : SearchStoreMetadata} {call : BlockCall metadata.width.toNat}
  {header : SearchStoreHeader} {block : SearchStoreBlockHeader}

/-- The step of both walks: a candidate is copied if the page reaches it. -/
theorem page_candidate {offset : UInt64} {count : Nat} {items : List UInt64} {ordinal : UInt64}
    (item : UInt64)
    (hordinal : ordinal.toNat = items.length) :
    page (items ++ [item]) offset.toNat count =
      if ordinal ≥ offset ∧ (page items offset.toNat count).length < count then
        page items offset.toNat count ++ [item]
      else page items offset.toNat count := by
  simp only [page_concat, ge_iff_le, UInt64.le_iff_toNat_le, hordinal]

theorem toNat_ordinal_succ {ordinal : UInt64} {n : Nat} (hordinal : ordinal.toNat = n)
    (hbound : n + 1 < 2 ^ 64) : (ordinal + 1).toNat = n + 1 := by
  rw [UInt64.toNat_add, hordinal, UInt64.toNat_one, Nat.mod_eq_of_lt hbound]

/-- The walk over the entries of a sparse block that are left. -/
theorem copySparse_spec (offset : UInt64) (count : Nat) (hmetadata : header.metadata = metadata)
    (hbase : block.base = call.base) (hslotCount : block.slotCount = call.slotCount)
    (hwidth : block.width.toNat = metadata.width.toNat) {payload before : List UInt8}
    {slots : List Nat} (candidate : Nat) (previousSlot : UInt32) {ordinal : UInt64}
    {items : List UInt64}
    (hpayload : payload =
      before ++ slots.flatMap (BlockCall.sparseEntry call.values metadata.width.toNat))
    (hsorted : slots.Pairwise (· < ·))
    (hprevious : 0 < candidate → ∀ slot ∈ slots, previousSlot.toNat < slot)
    (hlt : ∀ slot ∈ slots, slot < call.slotCount.toNat)
    (hordinal : ordinal.toNat = items.length) (hbound : items.length + slots.length < 2 ^ 64) :
    copySparse header block payload offset count candidate before.length previousSlot ordinal
      (page items offset.toNat count) slots.length =
        ok (page (items ++ call.addressesOf slots) offset.toNat count) := by
  induction slots generalizing before candidate previousSlot ordinal items with
  | nil => rw [BlockCall.addressesOf, List.map_nil, List.append_nil]; rfl
  | cons slot slots ih =>
    have hslot := hlt slot List.mem_cons_self
    have hvalue : (slotValue call.values metadata.width.toNat slot).length =
        metadata.width.toNat := length_slotValue hslot call.values_len
    have hword : (Codec.u32.encode (UInt32.ofNat slot)).length = 4 := Codec.u32.length_encode _
    have hslotBytes : bytesAt payload before.length 4 =
        ok (Codec.u32.encode (UInt32.ofNat slot)) := by
      have hsplit : payload = before ++ Codec.u32.encode (UInt32.ofNat slot) ++
          (slotValue call.values metadata.width.toNat slot ++
            slots.flatMap (BlockCall.sparseEntry call.values metadata.width.toNat)) := by
        rw [hpayload, List.flatMap_cons, BlockCall.sparseEntry]
        simp only [List.append_assoc]
      exact bytesAt_ok hsplit rfl hword.symm
    have hslot' : slot < block.slotCount.toNat := by rwa [hslotCount]
    have haccepted := BlockCall.sparse_slot_accepted previousSlot hslot'
      fun hpos => hprevious hpos slot List.mem_cons_self
    obtain ⟨hbehind, hsorted'⟩ := List.pairwise_cons.1 hsorted
    have hpayload' : payload =
        (before ++ BlockCall.sparseEntry call.values metadata.width.toNat slot) ++
          slots.flatMap (BlockCall.sparseEntry call.values metadata.width.toNat) := by
      rw [hpayload, List.flatMap_cons, List.append_assoc]
    have hcursor : (before ++ BlockCall.sparseEntry call.values metadata.width.toNat slot).length =
        before.length + 4 + metadata.width.toNat := by
      rw [List.length_append, BlockCall.sparseEntry, List.length_append, hword, hvalue,
        Nat.add_assoc]
    have hprevious' : 0 < candidate + 1 → ∀ s ∈ slots, (UInt32.ofNat slot).toNat < s := by
      intro _ s hs
      rw [BlockCall.toNat_ofNat_slot hslot]
      exact hbehind s hs
    have haddress : slotAddress header block (UInt32.ofNat slot).toUInt64 =
        call.base + UInt64.ofNat slot * metadata.alignment := by
      have hnumber : (UInt32.ofNat slot).toUInt64 = UInt64.ofNat slot := by
        rw [← UInt64.ofNat_uInt32ToNat, BlockCall.toNat_ofNat_slot hslot]
      rw [slotAddress, hbase, hmetadata, hnumber]
    rw [List.length_cons] at hbound
    have hordinal' : (ordinal + 1).toNat =
        (items ++ [call.base + UInt64.ofNat slot * metadata.alignment]).length := by
      rw [List.length_append, List.length_singleton]
      exact toNat_ordinal_succ hordinal (by omega)
    have hrest := ih (candidate + 1) (UInt32.ofNat slot) hpayload' hsorted' hprevious'
      (fun s hs => hlt s (List.mem_cons_of_mem _ hs)) hordinal'
      (by rw [List.length_append, List.length_singleton]; omega)
    rw [hcursor, List.append_assoc, page_candidate _ hordinal] at hrest
    rw [List.length_cons, copySparse, hslotBytes, ok_bind, Codec.u32.decode_encode]
    simp only [haccepted, require_true, ok_bind, haddress, hwidth, Bool.and_eq_true,
      decide_eq_true_eq]
    exact hrest

/-- The walk over the slots finds out whether a slot is a candidate. -/
def Tells (mask : Option (List UInt8)) (test : Nat → Bool) (slot : Nat) : Prop :=
  (mask = none → test slot = true) ∧
    ∀ m, mask = some m → slot / 8 < m.length ∧ bitIsSet m slot = test slot

theorem copySlots_succ {offset : UInt64} {count : Nat} {mask : Option (List UInt8)}
    {test : Nat → Bool} {slot : Nat} (h : Tells mask test slot) (ordinal : UInt64)
    (addresses : List UInt64) (left : Nat)
    (hroom : addresses.length < count) :
    copySlots header block mask offset count slot ordinal addresses (left + 1) =
      if test slot = true then
        copySlots header block mask offset count (slot + 1) (ordinal + 1)
          (if ordinal ≥ offset then
            addresses ++ [slotAddress header block (UInt64.ofNat slot)]
          else addresses) left
      else copySlots header block mask offset count (slot + 1) ordinal addresses left := by
  rw [copySlots, if_pos hroom]
  cases mask with
  | none => simp [h.1 rfl]
  | some m =>
    obtain ⟨hlength, htest⟩ := h.2 m rfl
    cases hslot : test slot <;> simp [hlength, htest, hslot]

/-- The walk over the slots of the other representations. -/
theorem copySlots_spec (offset : UInt64) (count : Nat) (hmetadata : header.metadata = metadata)
    (hbase : block.base = call.base)
    {mask : Option (List UInt8)} {test : Nat → Bool} (slot left : Nat) {ordinal : UInt64}
    {items : List UInt64} (htest : ∀ s, slot ≤ s → s < slot + left → Tells mask test s)
    (hordinal : ordinal.toNat = items.length) (hbound : items.length + left < 2 ^ 64) :
    copySlots header block mask offset count slot ordinal (page items offset.toNat count) left =
      ok (page (items ++ call.addressesOf ((List.range' slot left).filter test))
        offset.toNat count) := by
  induction left generalizing slot ordinal items with
  | zero =>
    rw [List.range'_zero, List.filter_nil, BlockCall.addressesOf, List.map_nil, List.append_nil]
    rfl
  | succ left ih =>
    by_cases hroom : (page items offset.toNat count).length < count
    · have htest' : ∀ s, slot + 1 ≤ s → s < slot + 1 + left → Tells mask test s :=
        fun s hs hs' => htest s (by omega) (by omega)
      rw [copySlots_succ (htest slot (Nat.le_refl _) (by omega)) _ _ _ hroom, List.range'_succ]
      by_cases hslot : test slot = true
      · have hordinal' : (ordinal + 1).toNat =
            (items ++ [call.base + UInt64.ofNat slot * metadata.alignment]).length := by
          rw [List.length_append, List.length_singleton]
          exact toNat_ordinal_succ hordinal (by omega)
        have hrest := ih (slot + 1) htest' hordinal'
          (by rw [List.length_append, List.length_singleton]; omega)
        rw [List.append_assoc, page_candidate _ hordinal] at hrest
        simp only [hroom, and_true] at hrest
        rw [if_pos hslot, List.filter_cons_of_pos hslot, slotAddress, hbase, hmetadata]
        exact hrest
      · rw [if_neg hslot, List.filter_cons_of_neg hslot]
        exact ih (slot + 1) htest' hordinal (by omega)
    · rw [copySlots, if_neg hroom, page_append_full (not_lt.1 hroom)]

end Walk

/-- The walk through a stored block, in the representation that it has. -/
theorem copyBlock_spec {metadata : SearchStoreMetadata} {call : BlockCall metadata.width.toNat}
    {header : SearchStoreHeader} (offset : UInt64) (count : Nat) {cumulative : Nat}
    {items : List UInt64}
    (hmetadata : header.metadata = metadata) (hwidth : 0 < metadata.width.toNat)
    (hwidth8 : metadata.width.toNat ≤ 8) (hsize : call.payloadSize ≤ StoreMaximumPayload)
    (hcumulative : (UInt64.ofNat cumulative).toNat = items.length)
    (hbound : items.length ≤ Stdio.LONG_MAX) :
    (if (call.stored cumulative).header.representation == StoreRepresentationSparse then
      copySparse header (call.stored cumulative).header (call.stored cumulative).payload offset
        count 0 0 0 (call.stored cumulative).header.cumulativeCandidates (page items offset.toNat count)
        (call.stored cumulative).header.candidateCount.toNat
    else
      copySlots header (call.stored cumulative).header
        (if (call.stored cumulative).header.representation == StoreRepresentationBitmap then
          some (call.stored cumulative).payload else none)
        offset count 0 (call.stored cumulative).header.cumulativeCandidates
        (page items offset.toNat count) (call.stored cumulative).header.slotCount.toNat) =
      ok (page (items ++ call.addressesOf call.slots) offset.toNat count) := by
  have hrepresentation : (call.stored cumulative).header.representation = call.representation := by
    rw [BlockCall.stored_header]
  have hbase : (call.stored cumulative).header.base = call.base := by rw [BlockCall.stored_header]
  have hslotCount : (call.stored cumulative).header.slotCount = call.slotCount := by
    rw [BlockCall.stored_header]
  have hordinal : (call.stored cumulative).header.cumulativeCandidates.toNat = items.length := by
    rw [BlockCall.stored_header]
    exact hcumulative
  have hblockWidth : (call.stored cumulative).header.width.toNat = metadata.width.toNat := by
    rw [BlockCall.stored_header]
    exact UInt8.toNat_ofNat_of_lt (lt_of_le_of_lt hwidth8 (by decide))
  have hpayload : (call.stored cumulative).payload = call.payload := rfl
  have hlong : Stdio.LONG_MAX + 2 ^ 32 < 2 ^ 64 := by decide
  have hslotsLt := call.length_slots_lt
  have hslotCountLt := call.slotCount.toNat_lt
  rw [hrepresentation, hslotCount, BlockCall.stored_candidateCount, hpayload]
  rcases call.representation_cases with ⟨hall, hrep, -⟩ | ⟨hne, hrep, hsz⟩ | ⟨-, hrep, -⟩
  · have htest : ∀ s, 0 ≤ s → s < 0 + call.slotCount.toNat → Tells none (fun _ => true) s :=
      fun s _ _ => ⟨fun _ => rfl, fun _ hnone => absurd hnone.symm (Option.some_ne_none _)⟩
    have hwalk := copySlots_spec offset count hmetadata hbase 0 call.slotCount.toNat htest hordinal
      (by omega)
    rw [List.filter_true, ← List.range_eq_range', ← BlockCall.slots_eq_range hall] at hwalk
    rw [hrep]
    exact hwalk
  · obtain ⟨m, hm⟩ := BlockCall.mask_of_length_ne hne
    have hmaskLen := call.mask_len m hm
    have hbytes : maskBytes call.slotCount = (call.slotCount.toNat + 7) / 8 :=
      BlockCall.maskBytes_of_values hwidth (by omega)
    have hpayloadBytes : call.payload = m.take (maskBytes call.slotCount) ++
        call.values.take (call.slotCount.toNat * metadata.width.toNat) := by
      rw [BlockCall.payload, blockPayload, hrep, hm]
      rfl
    have htake : (m.take (maskBytes call.slotCount)).length = maskBytes call.slotCount := by
      rw [List.length_take]
      omega
    have htest : ∀ s, 0 ≤ s → s < 0 + call.slotCount.toNat →
        Tells (some call.payload) (bitIsSet m) s := by
      intro s _ hs
      refine ⟨fun hnone => absurd hnone (Option.some_ne_none _), fun m' hm' => ?_⟩
      obtain rfl := Option.some.inj hm'
      have hin : s / 8 < (m.take (maskBytes call.slotCount)).length := by omega
      refine ⟨?_, ?_⟩
      · rw [hpayloadBytes, List.length_append]
        omega
      · rw [bitIsSet_eq, bitIsSet_eq, hpayloadBytes, ByteMask.test_append_left hin]
        have hwhole := @ByteMask.test_append_left _ (m.drop (maskBytes call.slotCount)) _ hin
        rw [List.take_append_drop] at hwhole
        exact hwhole.symm
    have hslots : call.slots = (List.range' 0 call.slotCount.toNat).filter (bitIsSet m) := by
      unfold BlockCall.slots candidateSlots
      rw [hm, List.range_eq_range']
    have hwalk := copySlots_spec offset count hmetadata hbase
      0 call.slotCount.toNat htest hordinal (by omega)
    rw [← hslots] at hwalk
    rw [hrep]
    exact hwalk
  · have hentries : call.payload =
        [] ++ call.slots.flatMap (BlockCall.sparseEntry call.values metadata.width.toNat) := by
      rw [BlockCall.payload, blockPayload, hrep]
      rfl
    have hwalk := copySparse_spec offset count hmetadata hbase hslotCount
      hblockWidth 0 0 hentries call.slots_sorted (fun h => absurd h (Nat.lt_irrefl 0))
      (fun slot hslot => (BlockCall.mem_slots.1 hslot).1) hordinal (by omega)
    rw [hrep]
    exact hwalk

/-! ## The index -/

section Index

variable {metadata : SearchStoreMetadata} {kept : List (BlockCall metadata.width.toNat)}

theorem Storable.candidates_le_max (h : Storable metadata kept) :
    candidates kept ≤ Stdio.LONG_MAX := by
  have hle := candidates_le h.width_pos 0 kept
  have htotal := (imageSizes h.length).total
  omega

/-- The header of the file of some calls. -/
def storedHeader (metadata : SearchStoreMetadata)
    (kept : List (BlockCall metadata.width.toNat)) : SearchStoreHeader :=
  finalHeader (imageHeader metadata (storedBlocks 0 kept))

/-- The file itself, at a position. -/
def storedFile (metadata : SearchStoreMetadata)
    (kept : List (BlockCall metadata.width.toNat)) (position : Nat) : Stdio.File :=
  ⟨imageBytes metadata (storedBlocks 0 kept), position⟩

theorem storedHeader_candidateCount (h : Storable metadata kept) :
    (storedHeader metadata kept).candidateCount.toNat = candidates kept := by
  have hcount : (storedHeader metadata kept).candidateCount =
      UInt64.ofNat (totalCandidates (storedBlocks 0 kept)) := rfl
  rw [hcount, totalCandidates_storedBlocks]
  exact h.toNat_candidates (List.append_nil _).symm

theorem storedHeader_blockCount (h : Storable metadata kept) :
    (storedHeader metadata kept).blockCount.toNat = kept.length := by
  rw [← length_storedBlocks h.slots]
  exact (imageSizes h.length).blockCount

/-- The index entry of a call. -/
def entryOf {width : Nat} (before : List (BlockCall width)) (call : BlockCall width) :
    SearchStoreIndexEntry :=
  indexEntry (UInt64.ofNat (sizeofHeader + (blocksBytes (storedBlocks 0 before)).length))
    (call.stored (candidates before)).header

variable {before after : List (BlockCall metadata.width.toNat)}
  {call : BlockCall metadata.width.toNat}

theorem readIndexEntry_stored (h : Storable metadata kept) (hkept : kept = before ++ call :: after)
    (position : Nat) :
    ∃ position', readIndexEntry (storedFile metadata kept position) (storedHeader metadata kept)
      before.length = ok (entryOf before call, storedFile metadata kept position') := by
  have hmem : call ∈ kept := by
    rw [hkept]
    exact List.mem_append_right _ List.mem_cons_self
  have hslots : ∀ other ∈ before, other.slots ≠ [] := fun other hother =>
    h.slots other (by rw [hkept]; exact List.mem_append_left _ hother)
  obtain ⟨position', hread⟩ := readIndexEntry_image
    (storedBlocks_split hkept (h.slots call hmem)) h.length position
  rw [length_storedBlocks hslots] at hread
  exact ⟨position', hread⟩

/-- The candidates up to a block and with it. -/
theorem entryOf_counts (h : Storable metadata kept) (hkept : kept = before ++ call :: after) :
    (entryOf before call).cumulativeCandidates.toNat = candidates before ∧
      (entryOf before call).candidateCount.toUInt64.toNat = call.slots.length ∧
      candidates before + call.slots.length ≤ candidates kept := by
  refine ⟨?_, ?_, ?_⟩
  · simp only [entryOf, indexEntry, BlockCall.stored_header]
    exact h.toNat_candidates hkept
  · rw [UInt32.toNat_toUInt64]
    exact call.stored_candidateCount (candidates before)
  · rw [hkept, candidates_append, candidates_cons]
    omega

theorem entryOf_reach (h : Storable metadata kept) (hkept : kept = before ++ call :: after) :
    ((entryOf before call).cumulativeCandidates +
      (entryOf before call).candidateCount.toUInt64).toNat =
        candidates before + call.slots.length := by
  obtain ⟨hcumulative, hcount, hle⟩ := entryOf_counts h hkept
  have hmax := h.candidates_le_max
  have hlong : Stdio.LONG_MAX < 2 ^ 64 := by decide
  rw [UInt64.toNat_add, hcumulative, hcount, Nat.mod_eq_of_lt (by omega)]

theorem countsAccepted_entryOf (h : Storable metadata kept)
    (hkept : kept = before ++ call :: after) :
    countsAccepted (storedHeader metadata kept) (entryOf before call) = true := by
  obtain ⟨hcumulative, hcount, hle⟩ := entryOf_counts h hkept
  have htotal := storedHeader_candidateCount h
  have hcumulativeLe : (entryOf before call).cumulativeCandidates ≤
      (storedHeader metadata kept).candidateCount := by
    rw [UInt64.le_iff_toNat_le, hcumulative, htotal]
    omega
  rw [countsAccepted, Bool.and_eq_true, decide_eq_true_eq, decide_eq_true_eq]
  refine ⟨hcumulativeLe, ?_⟩
  rw [UInt64.le_iff_toNat_le, UInt64.toNat_sub_of_le _ _ hcumulativeLe, hcumulative, hcount, htotal]
  omega

/-- The binary search ends behind blocks that end before the offset. -/
theorem findBlock_spec (h : Storable metadata kept) (offset : UInt64) {low high : Nat}
    (position : Nat) (hlow : low ≤ high) (hhigh : high ≤ kept.length)
    (hskipped : candidates (kept.take low) ≤ offset.toNat) :
    ∃ low' position', findBlock (storedFile metadata kept position) (storedHeader metadata kept)
        offset low high = ok (low', storedFile metadata kept position') ∧
      low' ≤ kept.length ∧ candidates (kept.take low') ≤ offset.toNat := by
  induction hn : high - low using Nat.strong_induction_on generalizing low high position with
  | _ n ih =>
    rw [findBlock]
    by_cases hlt : low < high
    · have hmiddle : low + (high - low) / 2 < kept.length := by omega
      have hkept : kept = kept.take (low + (high - low) / 2) ++
          kept[low + (high - low) / 2] :: kept.drop (low + (high - low) / 2 + 1) := by
        rw [List.getElem_cons_drop, List.take_append_drop]
      obtain ⟨position', hread⟩ := readIndexEntry_stored h hkept position
      rw [List.length_take, Nat.min_eq_left hmiddle.le] at hread
      have hreach := entryOf_reach h hkept
      rw [if_pos hlt]
      simp only [hread, ok_bind, countsAccepted_entryOf h hkept, require_true]
      split_ifs with hoffset
      · refine ih _ (by omega) position' (by omega) hhigh ?_ rfl
        rw [ge_iff_le, UInt64.le_iff_toNat_le, hreach] at hoffset
        rw [List.take_succ_eq_append_getElem hmiddle, candidates_append, candidates_cons,
          candidates_nil, Nat.add_zero]
        exact hoffset
      · exact ih _ (by omega) position' (by omega) (by omega) hskipped rfl
    · rw [if_neg hlt]
      exact ⟨low, position, rfl, by omega, hskipped⟩

/-- The block of an index entry passes the checks. -/
theorem entryAccepted_stored (h : Storable metadata kept) (hkept : kept = before ++ call :: after) :
    entryAccepted (storedHeader metadata kept) (entryOf before call)
      (call.stored (candidates before)).header = true := by
  have hmem : call ∈ kept := by
    rw [hkept]
    exact List.mem_append_right _ List.mem_cons_self
  have hblock : blockAccepted (storedHeader metadata kept) (entryOf before call).fileOffset
      (call.stored (candidates before)).header = true :=
    blockAccepted_stored h.width h.width8 (imageSizes h.length)
      (storedBlocks_split hkept (h.slots call hmem)) (h.size call hmem) (h.slots call hmem)
  rw [entryAccepted, hblock, countsAccepted_entryOf h hkept]
  simp only [entryOf, indexEntry, beq_self_eq_true, Bool.and_self]

/-- The loop over the blocks behind `before`. -/
theorem copyBlocks_spec (h : Storable metadata kept) (offset : UInt64) (count : Nat)
    (before after : List (BlockCall metadata.width.toNat)) (hkept : kept = before ++ after)
    (position : Nat) :
    copyBlocks (storedFile metadata kept position) (storedHeader metadata kept) offset count
      before.length (page (candidateAddresses before) offset.toNat count) after.length =
        ok (page (candidateAddresses kept) offset.toNat count) := by
  induction after generalizing before position with
  | nil =>
    rw [List.append_nil] at hkept
    rw [hkept]
    rfl
  | cons call after ih =>
    have hmem : call ∈ kept := by
      rw [hkept]
      exact List.mem_append_right _ List.mem_cons_self
    have hnext : kept = (before ++ [call]) ++ after := by
      rw [hkept, List.append_assoc]
      rfl
    have hlength : (before ++ [call]).length = before.length + 1 := by
      rw [List.length_append, List.length_singleton]
    have hrest := ih (before ++ [call]) hnext
    rw [hlength, candidateAddresses_snoc] at hrest
    rw [List.length_cons, copyBlocks]
    by_cases hroom : (page (candidateAddresses before) offset.toNat count).length < count
    · obtain ⟨position', hread⟩ := readIndexEntry_stored h hkept position
      have hreach := entryOf_reach h hkept
      rw [if_pos hroom]
      simp only [hread, ok_bind]
      split_ifs with hoffset
      · rw [ge_iff_le, UInt64.le_iff_toNat_le, hreach] at hoffset
        have hbefore : page (candidateAddresses before) offset.toNat count = [] :=
          page_of_le (by rw [length_candidateAddresses]; omega)
        have hwith : page (candidateAddresses before ++ call.addressesOf call.slots)
            offset.toNat count = [] :=
          page_of_le (by
            rw [List.length_append, length_candidateAddresses, call.length_addressesOf]
            exact hoffset)
        rw [hwith] at hrest
        rw [hbefore]
        exact hrest position'
      · have hsplit := storedBlocks_split hkept (h.slots call hmem)
        have hheader : readBlockHeader (storedFile metadata kept position')
            (entryOf before call).fileOffset = _ := readBlockHeader_image hsplit h.length position'
        have hmax : StoreMaximumPayload < 2 ^ 32 := by decide
        have hpayload := @readPayload_image metadata _ _ _ _ hsplit
          (BlockCall.stored_sound (lt_of_le_of_lt (h.size call hmem) hmax) (candidates before))
        have hwidth8 : metadata.width.toNat ≤ 8 := UInt32.le_iff_toNat_le.1 h.width8
        have hbound : (candidateAddresses before).length ≤ Stdio.LONG_MAX := by
          have hmaximum := h.candidates_le_max
          rw [hkept, candidates_append] at hmaximum
          rw [length_candidateAddresses]
          omega
        have hcumulative : (UInt64.ofNat (candidates before)).toNat =
            (candidateAddresses before).length := by
          rw [length_candidateAddresses]
          exact h.toNat_candidates hkept
        have hmetadata : (storedHeader metadata kept).metadata = metadata := rfl
        have hwalk := copyBlock_spec offset count hmetadata h.width_pos
          hwidth8 (h.size call hmem) hcumulative hbound
        simp only [hheader, ok_bind, entryAccepted_stored h hkept, require_true, hpayload]
        by_cases hsparse : (call.stored (candidates before)).header.representation ==
            StoreRepresentationSparse
        · rw [if_pos hsparse] at hwalk ⊢
          rw [hwalk, ok_bind]
          exact hrest _
        · rw [if_neg hsparse] at hwalk ⊢
          rw [hwalk, ok_bind]
          exact hrest _
    · rw [if_neg hroom, hkept, candidateAddresses_append, page_append_full (not_lt.1 hroom)]

end Index

/-! ## Pages -/

section Pages

variable {Path : Type} {metadata : SearchStoreMetadata}
  {kept : List (BlockCall metadata.width.toNat)} {path : Path} {dir : Directory Path}
  {position : Nat}

/-- A page of a session file. -/
theorem searchStoreReadAddresses_stored (h : Storable metadata kept)
    (hopen : searchStoreReaderOpen true dir path =
      ok (readerAt metadata (storedBlocks 0 kept) [] position)) (offset count : UInt64) :
    searchStoreReadAddresses true dir path offset count =
      ok (page (candidateAddresses kept) offset.toNat count.toNat,
        (storedHeader metadata kept).candidateCount) := by
  have htotal := storedHeader_candidateCount h
  have hblockCount := storedHeader_blockCount h
  have hreader : (readerAt metadata (storedBlocks 0 kept) [] position).header =
      storedHeader metadata kept := rfl
  have hfile : (readerAt metadata (storedBlocks 0 kept) [] position).file =
      storedFile metadata kept position := rfl
  unfold searchStoreReadAddresses
  rw [hopen, ok_bind]
  simp only [hreader, hfile]
  split_ifs with hnone
  · have hempty : page (candidateAddresses kept) offset.toNat count.toNat = [] := by
      simp only [Bool.or_eq_true, decide_eq_true_eq, beq_iff_eq] at hnone
      rcases hnone with hbehind | hzero
      · rw [ge_iff_le, UInt64.le_iff_toNat_le, htotal] at hbehind
        exact page_of_le (by rw [length_candidateAddresses]; exact hbehind)
      · rw [hzero]
        rfl
    rw [hempty]
  · obtain ⟨low, position', hfind, hlow, hskipped⟩ := findBlock_spec h offset position
      (Nat.zero_le kept.length) (Nat.le_refl _) (Nat.zero_le _)
    have hwalk := copyBlocks_spec h offset count.toNat (kept.take low) (kept.drop low)
      (List.take_append_drop low kept).symm position'
    rw [page_of_le (by rw [length_candidateAddresses]; exact hskipped), List.length_take,
      Nat.min_eq_left hlow, List.length_drop] at hwalk
    rw [hblockCount, hfind, ok_bind]
    simp only [hwalk, ok_bind]

/-- Pages of some sizes, each from the end of the one before. -/
def readPages (dir : Directory Path) (path : Path) (offset : UInt64) :
    List UInt64 → StoreResult (List UInt64)
  | [] => ok []
  | count :: counts => do
    let (addresses, _) ← searchStoreReadAddresses true dir path offset count
    let rest ← readPages dir path (offset + UInt64.ofNat addresses.length) counts
    ok (addresses ++ rest)

theorem readPages_stored (h : Storable metadata kept)
    (hopen : searchStoreReaderOpen true dir path =
      ok (readerAt metadata (storedBlocks 0 kept) [] position)) (counts : List UInt64)
    {offset : UInt64} (hoffset : offset.toNat ≤ candidates kept) :
    readPages dir path offset counts =
      ok (page (candidateAddresses kept) offset.toNat (counts.map UInt64.toNat).sum) := by
  induction counts generalizing offset with
  | nil => rfl
  | cons count counts ih =>
    have hlength : (page (candidateAddresses kept) offset.toNat count.toNat).length ≤
        candidates kept - offset.toNat := by
      rw [page, List.length_take, List.length_drop, length_candidateAddresses]
      exact Nat.min_le_right _ _
    have hlong : Stdio.LONG_MAX < 2 ^ 64 := by decide
    have hmax := h.candidates_le_max
    have hnext : (offset + UInt64.ofNat
        (page (candidateAddresses kept) offset.toNat count.toNat).length).toNat =
        offset.toNat + (page (candidateAddresses kept) offset.toNat count.toNat).length := by
      rw [UInt64.toNat_add, UInt64.toNat_ofNat', Nat.mod_eq_of_lt (by omega),
        Nat.mod_eq_of_lt (by omega)]
    rw [readPages, searchStoreReadAddresses_stored h hopen, ok_bind]
    simp only
    rw [ih (by rw [hnext]; omega), ok_bind, hnext, page_add, List.map_cons, List.sum_cons]

end Pages

/-! ## The sequential reader -/

namespace BlockCall

variable {width : Nat} {call : BlockCall width}

/-- The slots that a stored call decodes to, in a mask buffer that holds `mask`. -/
def decodedSlots (call : BlockCall width) (mask : List UInt8) : List Nat :=
  (List.range call.slotCount.toNat).filter (call.decodedBit mask)

theorem slots_eq_filter (call : BlockCall width) :
    call.slots =
      (List.range call.slotCount.toNat).filter fun slot => decide (slot ∈ call.slots) := by
  cases hmask : call.mask with
  | none =>
    have hall : call.slots = List.range call.slotCount.toNat := by
      unfold slots candidateSlots
      rw [hmask]
    rw [List.filter_eq_self.2 fun slot hslot => decide_eq_true (hall ▸ hslot)]
    exact hall
  | some m =>
    have hslots : call.slots = (List.range call.slotCount.toNat).filter (bitIsSet m) := by
      unfold slots candidateSlots
      rw [hmask]
    nth_rewrite 1 [hslots]
    refine List.filter_congr fun slot hslot => ?_
    rw [Bool.eq_iff_iff, decide_eq_true_iff, hslots, List.mem_filter]
    exact ⟨fun hset => ⟨hslot, hset⟩, fun h => h.2⟩

theorem decodedSlots_eq (hnoWrap : call.slotCount.toNat + 7 < 2 ^ 32) (mask : List UInt8) :
    call.decodedSlots mask = call.slots := by
  rw [call.slots_eq_filter]
  exact List.filter_congr fun slot hslot =>
    decodedBit_of_slot hnoWrap mask (List.mem_range.1 hslot)

/-- No candidate is lost. -/
theorem length_slots_le_decoded (mask : List UInt8) :
    call.slots.length ≤ (call.decodedSlots mask).length := by
  rw [call.slots_eq_filter, decodedSlots, ← List.countP_eq_length_filter,
    ← List.countP_eq_length_filter]
  refine List.countP_mono_left fun slot hslot hmem => ?_
  have hmem := of_decide_eq_true hmem
  unfold decodedBit
  split_ifs with hcleared hbitmap
  · rcases call.representation_cases with ⟨-, hrep, -⟩ | ⟨hne, -, -⟩ | ⟨-, hrep, -⟩
    · rw [hrep] at hbitmap
      exact absurd hbitmap (by decide)
    · obtain ⟨m, hm⟩ := mask_of_length_ne hne
      rw [hm]
      exact (mem_slots.1 hmem).2 m hm
    · rw [hrep] at hbitmap
      exact absurd hbitmap (by decide)
  · exact decide_eq_true hmem
  · rw [decide_eq_true hmem, Bool.true_or]

/-- With the wrap-around every slot stays set in a buffer of ones. -/
theorem length_slots_lt_decoded (hwidth : 0 < width)
    (hsize : call.payloadSize ≤ StoreMaximumPayload) (hwrap : ¬ call.slotCount.toNat + 7 < 2 ^ 32) :
    call.slots.length < (call.decodedSlots (List.replicate call.neededMask 0xFF)).length := by
  have hslots := call.length_slots_le_payloadSize hwidth
  have hmax : StoreMaximumPayload + 7 < 2 ^ 32 := by decide
  have hlt := call.slotCount.toNat_lt
  have hbytes : maskBytes call.slotCount = 0 := by
    rw [maskBytes_eq]
    omega
  have hall : call.decodedSlots (List.replicate call.neededMask 0xFF) =
      List.range call.slotCount.toNat := by
    refine List.filter_eq_self.2 fun slot hslot => ?_
    have hneeded : slot < 8 * call.neededMask := by
      have hslot' := List.mem_range.1 hslot
      unfold neededMask
      omega
    rw [decodedBit, hbytes, if_neg (by omega), ByteMask.test_replicate_ones hneeded, Bool.or_true]
  rw [hall, List.length_range]
  omega

end BlockCall

/-- The addresses of the candidates of a decoded block. -/
def blockAddresses (header : SearchStoreHeader) (block : DecodedBlock) : List UInt64 :=
  ((List.range block.header.slotCount.toNat).filter (bitIsSet block.mask)).map fun slot =>
    slotAddress header block.header (UInt64.ofNat slot)

/-- The addresses of the blocks that repeated `searchStoreReaderNext` yields, with a buffer for the
    values and one for the mask of each. -/
def listBlocks (reader : SearchStoreReader) :
    List (List UInt8 × List UInt8) → StoreResult (List UInt64)
  | [] => ok []
  | (values, mask) :: buffers => do
    let (block, next) ← searchStoreReaderNext true reader values mask
    let rest ← listBlocks next buffers
    ok (blockAddresses reader.header block ++ rest)

/-- The buffers are large enough for the block of a call. -/
def BuffersFit {width : Nat} (call : BlockCall width) (buffers : List UInt8 × List UInt8) : Prop :=
  call.slotCount.toNat * width ≤ buffers.1.length ∧ call.neededMask ≤ buffers.2.length

section Listing

variable {metadata : SearchStoreMetadata} {kept : List (BlockCall metadata.width.toNat)}
  {buffers : List (List UInt8 × List UInt8)}

/-- What the sequential reader lists. -/
def listedAddresses (calls : List (BlockCall metadata.width.toNat))
    (buffers : List (List UInt8 × List UInt8)) : List UInt64 :=
  (calls.zip buffers).flatMap fun pair => pair.1.addressesOf (pair.1.decodedSlots pair.2.2)

theorem listBlocks_stored (h : Storable metadata kept)
    (before after : List (BlockCall metadata.width.toNat)) (hkept : kept = before ++ after)
    (position : Nat) (hfit : List.Forall₂ BuffersFit after buffers) :
    listBlocks (readerAt metadata (storedBlocks 0 kept) (storedBlocks 0 before) position) buffers =
      ok (listedAddresses after buffers) := by
  induction hfit generalizing before position with
  | nil => rfl
  | @cons call buffer after buffers hbuffer _ ih =>
    have hmem : call ∈ kept := by
      rw [hkept]
      exact List.mem_append_right _ List.mem_cons_self
    obtain ⟨values', mask', position', hnext, -, hbits⟩ :=
      searchStoreReaderNext_image h.width h.width8 h.length
        (storedBlocks_split hkept (h.slots call hmem)) (h.size call hmem) (h.slots call hmem)
        position hbuffer.1 hbuffer.2
    have hrest := ih (before ++ [call]) (by rw [hkept, List.append_assoc]; rfl) position'
    rw [storedBlocks_snoc (h.slots call hmem)] at hrest
    have hblock : blockAddresses
        (readerAt metadata (storedBlocks 0 kept) (storedBlocks 0 before) position).header
        ⟨(call.stored (candidates before)).header, values', mask'⟩ =
          call.addressesOf (call.decodedSlots buffer.2) := by
      have hheader := call.stored_header (candidates before)
      have hslots : (List.range call.slotCount.toNat).filter (bitIsSet mask') =
          call.decodedSlots buffer.2 :=
        List.filter_congr fun slot _ => by rw [bitIsSet_eq, hbits]
      rw [blockAddresses, hheader]
      simp only [hslots]
      rfl
    obtain ⟨values, mask⟩ := buffer
    rw [listBlocks, hnext, ok_bind]
    simp only
    rw [hrest, ok_bind, hblock]
    rfl

theorem listedAddresses_eq {calls : List (BlockCall metadata.width.toNat)}
    (hnoWrap : ∀ call ∈ calls, call.slotCount.toNat + 7 < 2 ^ 32)
    (hfit : List.Forall₂ BuffersFit calls buffers) :
    listedAddresses calls buffers = candidateAddresses calls := by
  induction hfit with
  | nil => rfl
  | @cons call buffer calls buffers _ _ ih =>
    have hrest := ih fun other hother => hnoWrap other (List.mem_cons_of_mem _ hother)
    have hcons : listedAddresses (call :: calls) (buffer :: buffers) =
        call.addressesOf (call.decodedSlots buffer.2) ++ listedAddresses calls buffers := rfl
    rw [hcons, hrest, BlockCall.decodedSlots_eq (hnoWrap call List.mem_cons_self)]
    rfl

/-- Buffers of ones. -/
def onesBuffers {width : Nat} (call : BlockCall width) : List UInt8 × List UInt8 :=
  (List.replicate (call.slotCount.toNat * width) 0, List.replicate call.neededMask 0xFF)

theorem onesBuffers_fit (calls : List (BlockCall metadata.width.toNat)) :
    List.Forall₂ BuffersFit calls (calls.map onesBuffers) := by
  rw [List.forall₂_map_right_iff, List.forall₂_same]
  intro call _
  exact ⟨List.length_replicate.ge, List.length_replicate.ge⟩

theorem length_listedAddresses_ones (calls : List (BlockCall metadata.width.toNat)) :
    (listedAddresses calls (calls.map onesBuffers)).length =
      (calls.map fun call => (call.decodedSlots (onesBuffers call).2).length).sum := by
  induction calls with
  | nil => rfl
  | cons call calls ih =>
    have hcons : listedAddresses (call :: calls) ((call :: calls).map onesBuffers) =
        call.addressesOf (call.decodedSlots (onesBuffers call).2) ++
          listedAddresses calls (calls.map onesBuffers) := rfl
    rw [hcons, List.length_append, ih, call.length_addressesOf, List.map_cons, List.sum_cons]

end Listing

/-! ## Paging -/

/-- Pages are the slices of what the sequential reader lists, and pages of any sizes that reach the
    end enumerate it. -/
def PagesSlice {Path : Type} (metadata : SearchStoreMetadata)
    (calls : List (BlockCall metadata.width.toNat)) (path : Path) (dir : Directory Path) : Prop :=
  ∃ reader, searchStoreReaderOpen true dir path = ok reader ∧
    ∀ buffers, List.Forall₂ BuffersFit (keptCalls calls) buffers →
      ∃ addresses, listBlocks reader buffers = ok addresses ∧
        (∀ offset count, searchStoreReadAddresses true dir path offset count =
          ok ((addresses.drop offset.toNat).take count.toNat, reader.header.candidateCount)) ∧
        ∀ counts : List UInt64, addresses.length ≤ (counts.map UInt64.toNat).sum →
          readPages dir path 0 counts = ok addresses

section Store

variable {Path : Type} [DecidableEq Path] {metadata : SearchStoreMetadata}
  {calls : List (BlockCall metadata.width.toNat)} {path : Path} {dir : Directory Path}

theorem pagesSlice_of_noWrap (hwidth : metadata.width ≠ 0) (hwidth8 : metadata.width ≤ 8)
    (hsize : ∀ call ∈ calls, call.payloadSize ≤ StoreMaximumPayload)
    (hwritten : StoreWritten metadata calls path dir)
    (hnoWrap : ∀ call ∈ calls, call.slots ≠ [] → call.slotCount.toNat + 7 < 2 ^ 32) :
    PagesSlice metadata calls path dir := by
  have h := storable_of_written hwidth hwidth8 hsize hwritten
  have hopen := searchStoreReaderOpen_written hwidth hwidth8 hwritten
  have hkept : ∀ call ∈ keptCalls calls, call.slotCount.toNat + 7 < 2 ^ 32 := fun call hcall =>
    hnoWrap call (List.mem_filter.1 hcall).1 (slots_ne_nil_of_kept hcall)
  refine ⟨_, hopen, fun buffers hfit => ⟨candidateAddresses (keptCalls calls), ?_, ?_, ?_⟩⟩
  · rw [← listedAddresses_eq hkept hfit]
    exact listBlocks_stored h [] (keptCalls calls) rfl _ hfit
  · exact searchStoreReadAddresses_stored h hopen
  · intro counts hcounts
    rw [readPages_stored h hopen counts (Nat.zero_le _)]
    exact congrArg ok (List.take_of_length_le hcounts)

theorem noWrap_of_pagesSlice (hwidth : metadata.width ≠ 0) (hwidth8 : metadata.width ≤ 8)
    (hsize : ∀ call ∈ calls, call.payloadSize ≤ StoreMaximumPayload)
    (hwritten : StoreWritten metadata calls path dir)
    (hpages : PagesSlice metadata calls path dir) :
    ∀ call ∈ calls, call.slots ≠ [] → call.slotCount.toNat + 7 < 2 ^ 32 := by
  have h := storable_of_written hwidth hwidth8 hsize hwritten
  have hopen := searchStoreReaderOpen_written hwidth hwidth8 hwritten
  intro call hcall hslots
  by_contra hwrap
  obtain ⟨reader, hreader, hslices⟩ := hpages
  rw [hopen] at hreader
  obtain rfl := StoreResult.ok.inj hreader
  obtain ⟨addresses, hlisted, hslice, -⟩ := hslices _ (onesBuffers_fit (keptCalls calls))
  have hlisted' := listBlocks_stored h [] (keptCalls calls) rfl
    (imageBytes metadata (storedBlocks 0 (keptCalls calls))).length
    (onesBuffers_fit (keptCalls calls))
  obtain rfl := StoreResult.ok.inj (hlisted'.symm.trans hlisted)
  -- one page of everything: there are as many addresses as candidates
  have hpage := hslice 0 (UInt64.ofNat (2 ^ 64 - 1))
  rw [searchStoreReadAddresses_stored h hopen] at hpage
  have hlengths := congrArg List.length (Prod.mk.inj (StoreResult.ok.inj hpage)).1
  have hmax := h.candidates_le_max
  have hlong : Stdio.LONG_MAX < 2 ^ 64 - 1 := by decide
  have hcount : (UInt64.ofNat (2 ^ 64 - 1)).toNat = 2 ^ 64 - 1 := by decide
  have hzero : (0 : UInt64).toNat = 0 := rfl
  rw [page, hcount, hzero, List.drop_zero, List.drop_zero, List.length_take, List.length_take,
    length_candidateAddresses, length_listedAddresses_ones] at hlengths
  -- but a block with the wrap-around lists more
  have hmem : call ∈ keptCalls calls := List.mem_filter.2 ⟨hcall, decide_eq_true hslots⟩
  have hmore : candidates (keptCalls calls) < ((keptCalls calls).map fun call =>
      (call.decodedSlots (onesBuffers call).2).length).sum :=
    List.sum_lt_sum _ _ (fun other _ => BlockCall.length_slots_le_decoded _)
      ⟨call, hmem, BlockCall.length_slots_lt_decoded h.width_pos (hsize call hcall) hwrap⟩
  omega

end Store

/-- Paging agrees with the sequential reader, whatever its buffers hold, exactly when the size of no
    mask wraps around. -/
theorem pages_slice_iff {Path : Type} [DecidableEq Path] (metadata : SearchStoreMetadata)
    (calls : List (BlockCall metadata.width.toNat)) (path : Path) (dir : Directory Path)
    (hwidth : metadata.width ≠ 0) (hwidth8 : metadata.width ≤ 8)
    (hsize : ∀ call ∈ calls, call.payloadSize ≤ StoreMaximumPayload)
    (hwritten : StoreWritten metadata calls path dir) :
    PagesSlice metadata calls path dir ↔
      ∀ call ∈ calls, call.slots ≠ [] → call.slotCount.toNat + 7 < 2 ^ 32 :=
  ⟨noWrap_of_pagesSlice hwidth hwidth8 hsize hwritten,
    pagesSlice_of_noWrap hwidth hwidth8 hsize hwritten⟩

/-- A store whose bits behind the last slot are set. -/
theorem pages_slice_iff_padded : ∃ dir, StoreWritten byteMetadata [paddedCall] () dir ∧
    PagesSlice byteMetadata [paddedCall] () dir := by
  obtain ⟨dir, hwritten⟩ := paddedCall_written
  refine ⟨dir, hwritten, (pages_slice_iff byteMetadata [paddedCall] () dir (by decide)
    (by decide) ?_ hwritten).2 ?_⟩
  · intro call hcall
    rw [List.mem_singleton.1 hcall]
    decide
  · intro call hcall _
    rw [List.mem_singleton.1 hcall]
    decide

/-! ### A mask whose size wraps around -/

/-- As many slots as there can be, of which the first is a candidate. -/
def wideCall : BlockCall byteMetadata.width.toNat where
  base := 0x1000
  slotCount := 0xFFFFFFFF
  values := List.replicate (2 ^ 32) 0
  mask := some (ByteMask.set (List.replicate (2 ^ 29) 0) 0)
  slots_pos := by decide
  values_len := by
    rw [List.length_replicate]
    decide
  mask_len := by
    intro m hm
    obtain rfl := Option.some.inj hm
    rw [ByteMask.length_set, List.length_replicate]
    decide

theorem wideCall_slots : wideCall.slots = [0] := by
  have hlength : 0 / 8 < (List.replicate (2 ^ 29) (0 : UInt8)).length := by
    rw [List.length_replicate]
    decide
  have hbit (slot : Nat) : bitIsSet (ByteMask.set (List.replicate (2 ^ 29) 0) 0) slot =
      decide (slot = 0) := by
    rw [bitIsSet_eq, ByteMask.test_set hlength, ByteMask.test_replicate_zero]
    simp [eq_comm]
  have hcount : wideCall.slotCount.toNat = 4294967294 + 1 := rfl
  have hslots : wideCall.slots = (List.range wideCall.slotCount.toNat).filter
      (bitIsSet (ByteMask.set (List.replicate (2 ^ 29) 0) 0)) := rfl
  rw [hslots, hcount, List.range_succ_eq_map, List.filter_cons_of_pos (by rw [hbit]; rfl)]
  refine congrArg (List.cons 0) (List.filter_eq_nil_iff.2 ?_)
  intro slot hslot
  obtain ⟨n, _, rfl⟩ := List.mem_map.1 hslot
  rw [hbit]
  simp

/-- A block goes to the file. -/
def writeStored {Path : Type} (writer : SearchStoreWriter Path) (file : Stdio.File)
    (accepted : Nat) (b : StoredBlock) : Bool × SearchStoreWriter Path :=
  match file.write (blockCodec.encode b.header) accepted with
  | (false, file) => (false, { writer with file := some file, failed := true })
  | (true, file) =>
    match file.write b.payload accepted with
    | (false, file) => (false, { writer with file := some file, failed := true })
    | (true, file) =>
      (true, { writer with
        file := some file
        header := { writer.header with
          candidateCount := writer.header.candidateCount +
            UInt64.ofNat b.header.candidateCount.toNat
          blockCount := writer.header.blockCount + 1
          dataBytes := writer.header.dataBytes +
            UInt64.ofNat (sizeofBlockHeader + b.payload.length) } })

/-- A call that writes a block, on a device that fails no call. -/
theorem searchStoreWriterAddBlock_eq {Path : Type} {metadata : SearchStoreMetadata}
    {call : BlockCall metadata.width.toNat} {writer : SearchStoreWriter Path} {file : Stdio.File}
    {cumulative accepted : Nat} (hfile : writer.file = some file) (hfailed : writer.failed = false)
    (hmetadata : writer.header.metadata = metadata)
    (hcumulative : writer.header.candidateCount = UInt64.ofNat cumulative)
    (hslots : call.slots ≠ []) (hsize : call.payloadSize ≤ 2 ^ 32 - 1) :
    searchStoreWriterAddBlock ⟨true, accepted, accepted⟩ writer call.base call.slotCount call.values
      call.mask = writeStored writer file accepted (call.stored cumulative) := by
  have hcandidates : candidateSlots call.slotCount.toNat call.mask = call.slots := rfl
  have hslotCount : (call.slotCount == 0) = false := beq_eq_false_iff_ne.2 call.slots_pos
  have hchoice : chooseRepresentation metadata.width.toNat call.slotCount call.slots.length =
    (call.representation, call.payloadSize) := rfl
  have hblock : blockHeader metadata.width.toNat call.base (UInt64.ofNat cumulative)
    call.slotCount call.values call.mask = (call.stored cumulative).header := rfl
  have hpayload : blockPayload call.representation metadata.width.toNat call.slotCount
    call.values call.mask = (call.stored cumulative).payload := rfl
  have hlength : (call.stored cumulative).payload.length = call.payloadSize := call.length_payload
  have hroom : (decide (call.payloadSize > 2 ^ 32 - 1) || !true) = false := by
    rw [decide_eq_false (not_lt.2 hsize)]
    rfl
  simp only [searchStoreWriterAddBlock, hfile, hmetadata, hcandidates]
  rw [hfailed, hslotCount, Bool.or_self, if_neg Bool.false_ne_true,
    if_neg (mt List.length_eq_zero_iff.1 hslots)]
  simp only [hchoice, hcumulative, hblock, hpayload]
  rw [hroom, if_neg Bool.false_ne_true]
  cases hhead : file.write (blockCodec.encode (call.stored cumulative).header) accepted with
  | mk written headed =>
    cases written with
    | false => simp only [writeStored, hhead]
    | true =>
      cases hrest : headed.write (call.stored cumulative).payload accepted with
      | mk written stored =>
        cases written with
        | false => simp only [writeStored, hhead, hrest]
        | true =>
          simp only [writeStored, hhead, hrest, hmetadata, hcumulative, hfailed,
            BlockCall.stored_candidateCount, hlength]

/-- A store with one block, on such a device. -/
theorem writeStore_single {metadata : SearchStoreMetadata} {call : BlockCall metadata.width.toNat}
    {file : Stdio.File} (hslots : call.slots ≠ []) (hsize : call.payloadSize ≤ 2 ^ 32 - 1)
    (hopened : Stdio.File.create.write (headerCodec.encode (initialHeader metadata))
      StoreMaximumPayload = (true, file)) :
    writeStore metadata [call] =
      match writeStored ⟨some file, initialHeader metadata, (), false⟩ file StoreMaximumPayload
          (call.stored 0) with
      | (false, _) => none
      | (true, added) =>
        match searchStoreWriterFinish ⟨fun _ => ⟨true, true, true, StoreMaximumPayload⟩, true,
            StoreMaximumPayload, true, true, true⟩
            (Function.update (fun _ => none) () (some [])) added with
        | (false, _, _) => none
        | (true, dir, _) => some dir := by
  have hadded := @searchStoreWriterAddBlock_eq Unit metadata call
    ⟨some file, initialHeader metadata, (), false⟩ file 0 StoreMaximumPayload rfl rfl rfl rfl
    hslots hsize
  simp only [writeStore, searchStoreWriterOpen, hopened, List.map_cons, List.map_nil, addBlocks,
    hadded, Bool.not_true, Bool.false_eq_true, if_false]
  cases writeStored ⟨some file, initialHeader metadata, (), false⟩ file StoreMaximumPayload
    (call.stored 0) with
  | mk succeeded added => cases succeeded <;> rfl

theorem slotValue_replicate {n width : Nat} (h : 0 < n) (hwidth : width = 1) :
    slotValue (List.replicate n 0) width 0 = [0] := by
  obtain ⟨n, rfl⟩ := Nat.exists_eq_succ_of_ne_zero h.ne'
  rw [hwidth]
  rfl

namespace BlockCall

variable {width : Nat} {call : BlockCall width}

theorem candidateSlots_eq (call : BlockCall width) :
    candidateSlots call.slotCount.toNat call.mask = call.slots := rfl

theorem representation_eq {representation : UInt8} {size : Nat}
    (h : chooseRepresentation width call.slotCount call.slots.length = (representation, size)) :
    call.representation = representation ∧ call.payloadSize = size := by
  unfold BlockCall.representation payloadSize
  rw [h]
  exact ⟨rfl, rfl⟩

theorem stored_eq {cumulative : Nat} {b : StoredBlock}
    (hheader : (call.stored cumulative).header = b.header) (hpayload : call.payload = b.payload) :
    call.stored cumulative = b := by
  obtain ⟨header, payload⟩ := b
  obtain rfl : (call.stored cumulative).header = header := hheader
  obtain rfl : call.payload = payload := hpayload
  rfl

end BlockCall

/-- One slot number and its value. -/
def wideBlock : StoredBlock where
  header :=
    { magic := SEARCH_STORE_BLOCK_MAGIC, representation := StoreRepresentationSparse, width := 1,
      reserved := 0, base := 0x1000, cumulativeCandidates := 0, slotCount := 0xFFFFFFFF,
      candidateCount := 1, payloadSize := 5, payloadCrc := searchStoreCrc32 [0, 0, 0, 0, 0] }
  payload := [0, 0, 0, 0, 0]

theorem wideCall_representation :
    wideCall.representation = StoreRepresentationSparse ∧ wideCall.payloadSize = 5 := by
  refine BlockCall.representation_eq ?_
  rw [wideCall_slots]
  decide

theorem wideCall_stored : wideCall.stored 0 = wideBlock := by
  obtain ⟨hrepresentation, hsize⟩ := wideCall_representation
  have hvalue : slotValue wideCall.values byteMetadata.width.toNat 0 = [0] :=
    slotValue_replicate (Nat.two_pow_pos 32) (by decide)
  have hpayload : wideCall.payload = [0, 0, 0, 0, 0] := by
    rw [BlockCall.payload, hrepresentation, blockPayload, if_neg (by decide), if_neg (by decide),
      BlockCall.candidateSlots_eq, wideCall_slots, List.flatMap_singleton, hvalue]
    decide
  refine BlockCall.stored_eq ?_ hpayload
  rw [BlockCall.stored_header, hrepresentation, hsize, hpayload, wideCall_slots]
  rfl

theorem wideCall_written : ∃ dir, StoreWritten byteMetadata [wideCall] () dir := by
  have hopened : Stdio.File.create.write (headerCodec.encode (initialHeader byteMetadata))
      StoreMaximumPayload =
        (true, ⟨headerCodec.encode (initialHeader byteMetadata), sizeofHeader⟩) := by
    decide +kernel
  have hsome : (writeStore byteMetadata [wideCall]).isSome = true := by
    rw [writeStore_single (by rw [wideCall_slots]; decide)
      (by rw [wideCall_representation.2]; decide) hopened, wideCall_stored]
    decide +kernel
  obtain ⟨dir, hdir⟩ := Option.isSome_iff_exists.1 hsome
  exact ⟨dir, storeWritten_of_writeStore hdir⟩

/-- A mask buffer that is not cleared lists slots that no page holds. -/
theorem wide_pages_differ : ∃ dir, StoreWritten byteMetadata [wideCall] () dir ∧
    ¬ PagesSlice byteMetadata [wideCall] () dir := by
  obtain ⟨dir, hwritten⟩ := wideCall_written
  refine ⟨dir, hwritten, fun h => ?_⟩
  have hnoWrap := noWrap_of_pagesSlice (by decide) (by decide)
    (fun call hcall => by
      rw [List.mem_singleton.1 hcall, wideCall_representation.2]
      decide) hwritten h wideCall (List.mem_singleton_self _) (by rw [wideCall_slots]; decide)
  exact absurd hnoWrap (by decide)

end SysAgent
