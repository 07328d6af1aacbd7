import Mathlib
import SysAgent.Jpeg.Headers
import SysAgent.Jpeg.Safety

set_option autoImplicit false

/-! # Decoding inverts baseline encoding (`jpeg_dc.c`)

Each block of the scan takes its own bits. What an encoder may write and the decoder cannot compute
with is a number that is no `int`. -/

namespace SysAgent

open JpegWalker

/-! ## The numbers of a file -/

namespace ScanContent

variable (content : ScanContent) (decoder : JpegDecoder)

/-- The numbers of a block that the decoder computes with are an `int`: the difference, the DC
    coefficient and, for a level that is stored, its product with the step. -/
structure BlockInRange (prediction : Nat → Int) (block : ScanBlock) : Prop where
  difference : -2 ^ 30 < (content.blockOf block).dc - prediction block.index ∧
    (content.blockOf block).dc - prediction block.index < 2 ^ 31
  dc : Int32 (content.blockOf block).dc
  level : Stored decoder block →
    Int32 ((content.blockOf block).dc * decoder.quant block.component.quantId)

def BlocksInRange : (Nat → Int) → List ScanBlock → Prop
  | _, [] => True
  | prediction, block :: blocks =>
    content.BlockInRange decoder prediction block ∧
      BlocksInRange (content.predict prediction block) blocks

/-- The predictions start again where a restart marker is. -/
def McusInRange : Nat → (Nat → Int) → List (List ScanBlock) → Prop
  | _, _, [] => True
  | since, prediction, mcu :: mcus =>
    if 0 < decoder.restartInterval ∧ since = decoder.restartInterval then
      content.BlocksInRange decoder (fun _ => 0) mcu ∧
        McusInRange 1 (mcu.foldl content.predict fun _ => 0) mcus
    else
      content.BlocksInRange decoder prediction mcu ∧
        McusInRange (since + 1) (mcu.foldl content.predict prediction) mcus

end ScanContent

/-- The decoder computes with no number of the file that is not an `int`. -/
def JpegFile.InRange (file : JpegFile) : Prop :=
  file.content.McusInRange file.decoder 0 (fun _ => 0) file.decoder.mcus

namespace JpegWalker

open Checked MsbBits

/-! ## What the numbers hold -/

section Numbers

variable {data : List Nat}

/-- A category of 31 is that of a positive number only. -/
theorem categoryFits_iff {difference : Int} {reader : BitReader} {bits : List Bool}
    {tail : List Nat}
    (h : reader.Holds (bitsOf (category difference) (magnitude difference) ++ bits) tail) :
    CategoryFits (category difference) reader ↔ -2 ^ 30 < difference ∧ difference < 2 ^ 31 := by
  obtain ⟨reader', hread, -⟩ := jpegReadBits_spec (magnitude_lt difference) h
  have hsmall := @category_le_iff difference 30
  have hlarge := @category_le_iff difference 31
  constructor
  · intro fits
    obtain ⟨hcategory, hlow⟩ := fits.shift _ _ hread
    have habs := hlarge.1 hcategory
    refine ⟨?_, by omega⟩
    by_contra hdifference
    have hsize : category difference = 31 := by omega
    rw [hsize] at hlow
    have hmagnitude : magnitude difference < 2 ^ 30 := by
      unfold magnitude
      rw [if_neg (by omega), hsize]
      omega
    have := hlow hmagnitude
    omega
  · rintro ⟨hlow, hhigh⟩
    have hcategory : category difference ≤ 31 := hlarge.2 (by omega)
    constructor
    · intro count hcount value rest hbits
      calc value < (0 + 1) * 2 ^ count := readBitsFrom_lt hbits
        _ = 2 ^ count := by ring
        _ ≤ 2 ^ 31 := Nat.pow_le_pow_right (by decide) (by omega)
    · intro value rest hvalue
      rw [hread, Option.some.injEq, Prod.mk.injEq] at hvalue
      obtain ⟨rfl, -⟩ := hvalue
      refine ⟨hcategory, fun hhalf => ?_⟩
      by_contra hsize
      have hsize : category difference = 31 := by omega
      have habs : ¬ difference.natAbs < 2 ^ 30 := fun hlt => by
        have := hsmall.2 hlt
        omega
      rw [hsize] at hhalf
      unfold magnitude at hhalf
      split_ifs at hhalf <;> omega

theorem length_levels {spec : HuffmanSpec} (valid : spec.Valid) (table : JpegHuffman)
    (htable : some spec.table = some table) : table.levels.length ≤ 16 := by
  obtain rfl := Option.some.inj htable
  rw [HuffmanSpec.table, length_canonicalLevels, valid.lengths]

theorem decodeDifference_spec {spec : HuffmanSpec} (valid : spec.Valid) {difference : Int}
    {code bits : List Bool} {tail : List Nat} (hcode : dcBits spec difference = some code)
    {reader : ScanReader} (h : (reader.rest data).Holds (code ++ bits) tail) :
    OkIff (-2 ^ 30 < difference ∧ difference < 2 ^ 31)
      (decodeDifference data (some spec.table) reader)
      fun r => r.1 = difference ∧ (r.2.rest data).Holds bits tail := by
  obtain ⟨reader', hdecode, hholds⟩ := SysAgent.decodeDifference_spec valid hcode h
  obtain ⟨symbol, hsymbol, rfl⟩ := Option.map_eq_some_iff.1 hcode
  rw [List.append_assoc] at h
  obtain ⟨readerSymbol, hhuffman, hsymbolHolds⟩ := jpegDecodeHuffman_spec valid hsymbol h
  have hnone : (decodeDifference data (some spec.table) reader).run ≠ none ↔
      -2 ^ 30 < difference ∧ difference < 2 ^ 31 := by
    rw [decodeDifference_ne_none_iff data (length_levels valid) reader,
      ← categoryFits_iff hsymbolHolds]
    constructor
    · intro hfits
      exact hfits _ _ hhuffman
    · intro hfits other rest hother
      rw [hhuffman, Option.some.injEq, Prod.mk.injEq] at hother
      obtain ⟨rfl, rfl⟩ := hother
      exact hfits
  refine (OkIff.of_follows (decodeDifference_follows data _ reader) hnone hdecode).mono ?_
  rintro ⟨_, _⟩ ⟨rfl, rfl⟩
  exact ⟨rfl, hholds⟩

theorem skipAc_follows (table : Option JpegHuffman) (rounds coefficient : Nat)
    (reader : ScanReader) :
    Follows (skipAc data table rounds coefficient reader)
      (SysAgent.skipAc table rounds coefficient (reader.rest data))
      fun reader' rest => reader'.rest data = rest := by
  induction rounds generalizing coefficient reader with
  | zero =>
    rw [skipAc, SysAgent.skipAc]
    split_ifs
    · exact follows_fault
    · exact follows_pure rfl
  | succ rounds ih =>
    rw [skipAc, SysAgent.skipAc]
    split_ifs with hmore
    · refine (jpegDecodeHuffman_follows data table reader).bind ?_
      rintro ⟨ac, reader'⟩ ⟨_, _⟩ ⟨rfl, rfl⟩
      dsimp only
      split_ifs with hzero hend
      · exact follows_pure rfl
      · exact ih (coefficient + 16) reader'
      · refine (readBitsFrom_follows data 0 (ac % 16) reader').bind ?_
        rintro ⟨_, reader''⟩ ⟨_, _⟩ ⟨rfl, rfl⟩
        exact ih (coefficient + (ac / 16 + 1)) reader''
    · exact follows_pure rfl

theorem skipAc_spec {spec : HuffmanSpec} (valid : spec.Valid) {values : List Int}
    {code bits : List Bool} {tail : List Nat} (hcode : encodeAc spec 0 values = some code)
    (hlength : values.length = 63) {reader : ScanReader}
    (h : (reader.rest data).Holds (code ++ bits) tail) :
    OkIff True (skipAc data (some spec.table) 63 1 reader)
      fun reader' => (reader'.rest data).Holds bits tail := by
  obtain ⟨reader', hskip, hholds⟩ := SysAgent.skipAc_spec valid hcode
    (by omega : 1 + 0 + values.length = 64) (by omega : 64 ≤ 63 + 1) h
  have hnone := skipAc_ne_none data (length_levels valid) (by omega : 64 ≤ 1 + 63) reader
  refine (OkIff.of_follows (skipAc_follows _ 63 1 reader) (iff_true_intro hnone) hskip).mono ?_
  rintro _ rfl
  exact hholds

end Numbers

/-! ## The walk -/

/-- The means that decoding some blocks gives: those of the blocks are as expected, and no other
    that was as expected is lost. -/
structure Brightened (decoder : JpegDecoder) (expected : Nat → Nat → Nat)
    (blocks : List ScanBlock) (before after : Nat → Nat → Nat) : Prop where
  kept : ∀ row column, before row column = expected row column →
    after row column = expected row column
  decoded : ∀ block ∈ blocks, Stored decoder block →
    after block.row block.column = expected block.row block.column

/-- What a luma block is decoded to. -/
def ExpectedMean (decoder : JpegDecoder) (content : ScanContent) (expected : Nat → Nat → Nat)
    (block : ScanBlock) : Prop :=
  block.index = 0 → meanOf (content.blockOf block).dc (decoder.quant block.component.quantId) =
    expected block.row block.column

/-- The tables of a block are among those of the decoder. -/
structure Selects (block : ScanBlock) : Prop where
  index : block.index < 4
  quantId : block.component.quantId < 4
  dcTable : block.component.dcTable < 4
  acTable : block.component.acTable < 4

/-- What decoding some blocks does to the variables of the walk. -/
structure Walked (data : List Nat) (decoder : JpegDecoder) (content : ScanContent)
    (expected : Nat → Nat → Nat) (bits : List Bool) (tail : List Nat) (blocks : List ScanBlock)
    (s s' : WalkState) : Prop where
  reader : (s'.reader.rest data).Holds bits tail
  prediction : s'.prediction = blocks.foldl content.predict s.prediction
  since : s'.mcusSinceRestart = s.mcusSinceRestart
  mean : Brightened decoder expected blocks s.mean s'.mean

section Walk

variable {data : List Nat} {decoder : JpegDecoder} {content : ScanContent}
  {expected : Nat → Nat → Nat}

theorem Brightened.nil (before : Nat → Nat → Nat) :
    Brightened decoder expected [] before before where
  kept := fun _ _ h => h
  decoded := fun _ h => absurd h List.not_mem_nil

theorem Brightened.append {first second : List ScanBlock} {before middle after : Nat → Nat → Nat}
    (h : Brightened decoder expected first before middle)
    (h' : Brightened decoder expected second middle after) :
    Brightened decoder expected (first ++ second) before after where
  kept := fun row column hbefore => h'.kept row column (h.kept row column hbefore)
  decoded := by
    intro block hmem hstored
    rcases List.mem_append.1 hmem with hmem | hmem
    · exact h'.kept _ _ (h.decoded block hmem hstored)
    · exact h'.decoded block hmem hstored

theorem storeMean_spec (hsize : ¬ (JPEG_DC_MAX_BLOCKS_X < decoder.lumaBlocksW ∨
      JPEG_DC_MAX_BLOCKS_Y < decoder.lumaBlocksH)) {block : ScanBlock} (selects : Selects block)
    (hexpected : ExpectedMean decoder content expected block) (mean : Nat → Nat → Nat) :
    OkIff (Stored decoder block →
        Int32 ((content.blockOf block).dc * decoder.quant block.component.quantId))
      (storeMean decoder block (content.blockOf block).dc mean)
      (Brightened decoder expected [block] mean) := by
  unfold storeMean
  by_cases hstored : Stored decoder block
  · obtain ⟨hindex, hcolumn, hrow⟩ := id hstored
    rw [if_pos hstored, int32_bind]
    have hbright : Brightened decoder expected [block] mean fun row column =>
        if row = block.row ∧ column = block.column then
          meanOf (content.blockOf block).dc (decoder.quant block.component.quantId)
        else mean row column := by
      constructor
      · intro row column hbefore
        split_ifs with hhere
        · obtain ⟨rfl, rfl⟩ := hhere
          exact hexpected hindex
        · exact hbefore
      · intro other hmem _
        obtain rfl := List.mem_singleton.1 hmem
        rw [if_pos ⟨rfl, rfl⟩]
        exact hexpected hindex
    have hplace : block.row < JPEG_DC_MAX_BLOCKS_Y ∧ block.column < JPEG_DC_MAX_BLOCKS_X :=
      ⟨by omega, by omega⟩
    simp only [require_bind selects.quantId, require_bind hplace]
    refine OkIff.congr (OkIff.require_bind ?_) ⟨fun h _ => h.1, fun h => ⟨h hstored, trivial⟩⟩
    exact okIff_pure hbright
  · rw [if_neg hstored]
    have hbright : Brightened decoder expected [block] mean mean := by
      refine ⟨fun _ _ h => h, fun other hmem hother => ?_⟩
      obtain rfl := List.mem_singleton.1 hmem
      exact absurd hother hstored
    exact (okIff_pure hbright).congr (iff_of_true trivial fun h => absurd h hstored)

section Tables

variable (tables : TablesOf decoder content) (hsize : ¬ (JPEG_DC_MAX_BLOCKS_X <
  decoder.lumaBlocksW ∨ JPEG_DC_MAX_BLOCKS_Y < decoder.lumaBlocksH))
include tables hsize

theorem decodeBlock_spec {s : WalkState} {block : ScanBlock} {code bits : List Bool}
    {tail : List Nat} (selects : Selects block)
    (hexpected : ExpectedMean decoder content expected block)
    (hcode : content.encodeBlock s.prediction block = some code)
    (h : (s.reader.rest data).Holds (code ++ bits) tail) :
    OkIff (content.BlockInRange decoder s.prediction block) (decodeBlock data decoder s block)
      (Walked data decoder content expected bits tail [block] s) := by
  obtain ⟨dcTable, hdcTable, hcode⟩ := Option.bind_eq_some_iff.1 hcode
  obtain ⟨acTable, hacTable, hcode⟩ := Option.bind_eq_some_iff.1 hcode
  obtain ⟨difference, hdifference, hcode⟩ := Option.bind_eq_some_iff.1 hcode
  obtain ⟨rest, hrest, rfl⟩ := Option.map_eq_some_iff.1 hcode
  rw [List.append_assoc] at h
  have hdc := decodeDifference_spec (tables.valid _ _ hdcTable) hdifference h
  unfold decodeBlock
  rw [tables.table _ _ hdcTable, tables.table _ _ hacTable]
  have hbehind : ∀ r : Int × ScanReader, r.1 = (content.blockOf block).dc -
      s.prediction block.index ∧ (r.2.rest data).Holds (rest ++ bits) tail →
        OkIff (Int32 (content.blockOf block).dc ∧ (Stored decoder block →
            Int32 ((content.blockOf block).dc * decoder.quant block.component.quantId)) ∧
              True ∧ True)
          (do
            let dc ← int32 (s.prediction block.index + r.1)
            let mean ← storeMean decoder block dc s.mean
            let reader ← skipAc data (some acTable.table) 63 1 r.2
            pure { s with
              reader, mean, prediction := Function.update s.prediction block.index dc })
          (Walked data decoder content expected bits tail [block] s) := by
    rintro ⟨_, reader⟩ ⟨rfl, hholds⟩
    dsimp only
    rw [add_sub_cancel, int32_bind]
    refine OkIff.require_bind ?_
    refine (storeMean_spec hsize selects hexpected s.mean).bind fun mean hmean => ?_
    refine (skipAc_spec (tables.valid _ _ hacTable) hrest (content.blockOf block).coefficients
      hholds).bind fun reader' hholds' => ?_
    exact okIff_pure ⟨hholds', rfl, rfl, hmean⟩
  have hdcSelects := selects.dcTable
  have hacSelects := selects.acTable
  rw [require_bind selects.index, require_bind (by omega), require_bind (by omega)]
  refine (hdc.bind hbehind).congr ⟨?_, fun inRange => ?_⟩
  · rintro ⟨hdifference, hdc, hlevel, -⟩
    exact ⟨hdifference, hdc, hlevel⟩
  · exact ⟨inRange.difference, inRange.dc, inRange.level, trivial, trivial⟩

theorem decodeBlocks_spec {s : WalkState} {blocks : List ScanBlock} {code bits : List Bool}
    {tail : List Nat} (selects : ∀ block ∈ blocks, Selects block)
    (hexpected : ∀ block ∈ blocks, ExpectedMean decoder content expected block)
    (hcode : content.encodeBlocks s.prediction blocks = some code)
    (h : (s.reader.rest data).Holds (code ++ bits) tail) :
    OkIff (content.BlocksInRange decoder s.prediction blocks)
      (blocks.foldlM (decodeBlock data decoder) s)
      (Walked data decoder content expected bits tail blocks s) := by
  induction blocks generalizing s code with
  | nil =>
    cases hcode
    exact okIff_pure ⟨h, rfl, rfl, Brightened.nil s.mean⟩
  | cons block blocks ih =>
    obtain ⟨first, hfirst, hcode⟩ := Option.bind_eq_some_iff.1 hcode
    obtain ⟨rest, hrest, rfl⟩ := Option.map_eq_some_iff.1 hcode
    rw [List.append_assoc] at h
    rw [List.foldlM_cons, ScanContent.BlocksInRange]
    refine (decodeBlock_spec tables hsize (selects block List.mem_cons_self)
      (hexpected block List.mem_cons_self) hfirst h).bind fun s' walked => ?_
    have hprediction : s'.prediction = content.predict s.prediction block := walked.prediction
    rw [← hprediction] at hrest ⊢
    refine (ih (fun other hmem => selects other (List.mem_cons_of_mem _ hmem))
      (fun other hmem => hexpected other (List.mem_cons_of_mem _ hmem)) hrest
      walked.reader).mono fun s'' walked' => ?_
    refine ⟨walked'.reader, ?_, walked'.since.trans walked.since,
      walked.mean.append walked'.mean⟩
    rw [List.foldl_cons, walked'.prediction, hprediction]

/-- Decoding an MCU from the state in which its blocks begin. -/
theorem decodeMcu_spec {s entered : WalkState} (henter : enterMcu data decoder s = pure entered)
    {mcu : List ScanBlock} {code bits : List Bool} {tail : List Nat}
    (selects : ∀ block ∈ mcu, Selects block)
    (hexpected : ∀ block ∈ mcu, ExpectedMean decoder content expected block)
    (hcode : content.encodeBlocks entered.prediction mcu = some code)
    (h : (entered.reader.rest data).Holds (code ++ bits) tail) :
    OkIff (content.BlocksInRange decoder entered.prediction mcu) (decodeMcu data decoder s mcu)
      (Walked data decoder content expected bits tail mcu
        { entered with mcusSinceRestart := entered.mcusSinceRestart + 1 }) := by
  rw [decodeMcu, henter, pure_bind]
  refine OkIff.congr ((decodeBlocks_spec tables hsize selects hexpected hcode h).bind
    fun s' walked => okIff_pure ?_) (and_iff_left trivial)
  exact ⟨walked.reader, walked.prediction, congrArg (· + 1) walked.since, walked.mean⟩

omit tables hsize in
theorem restart_marker {marker : Nat} (h : marker < 8) : (0xD0 + marker) &&& 0xF8 = 0xD0 := by
  interval_cases marker <;> rfl

omit tables hsize in
/-- The state behind a restart marker. -/
theorem restart_spec {s : WalkState} {marker : Nat} (hmarker : marker < 8) {rest : List Nat}
    (h : (s.reader.rest data).scan = 0xFF :: (0xD0 + marker) :: rest) :
    ∃ reader : ScanReader, reader.bitCount = 0 ∧ (reader.rest data).scan = rest ∧
      restart data s =
        pure { s with reader, prediction := fun _ => 0, mcusSinceRestart := 0 } := by
  have hmarker' := drop_succ h
  refine ⟨⟨s.reader.scanPos + 2, s.reader.bitBuffer, 0, by omega⟩, rfl, drop_succ hmarker', ?_⟩
  rw [restart, if_neg (not_le.2 (lt_of_drop hmarker')), access_drop h, access_drop hmarker',
    if_pos ⟨rfl, restart_marker hmarker⟩]

/-- The bits of an interval are a prefix of those that are packed up to its end; behind them the
    walk meets the marker and goes on. -/
theorem encodeMcus_spec {marker since : Nat} {prediction : Nat → Int} {pending : List Bool}
    {mcus : List (List ScanBlock)} {bytes : List Nat} (hmarker : marker < 8)
    (selects : ∀ block ∈ mcus.flatten, Selects block)
    (hexpected : ∀ block ∈ mcus.flatten, ExpectedMean decoder content expected block)
    (hcode : content.encodeMcus decoder.restartInterval marker since prediction pending mcus =
      some bytes) :
    ∃ more tail, bytes = stuff (pack (pending ++ more)) ++ tail ∧
      ∀ (s : WalkState) (padding : List Bool), padding.length < 8 →
        (s.reader.rest data).Holds (more ++ padding) tail → s.prediction = prediction →
        s.mcusSinceRestart = since →
          OkIff (content.McusInRange decoder since prediction mcus)
            (mcus.foldlM (decodeMcu data decoder) s)
            fun s' => Brightened decoder expected mcus.flatten s.mean s'.mean := by
  induction mcus generalizing marker since prediction pending bytes with
  | nil =>
    cases hcode
    refine ⟨[], [0xFF, 0xD9], by rw [List.append_nil], ?_⟩
    intro s _ _ _ _ _
    exact okIff_pure (Brightened.nil s.mean)
  | cons mcu mcus ih =>
    rw [List.flatten_cons] at selects hexpected ⊢
    have hselects := fun block hmem => selects block (List.mem_append_left _ hmem)
    have hmeans := fun block hmem => hexpected block (List.mem_append_left _ hmem)
    have hselects' := fun block hmem => selects block (List.mem_append_right _ hmem)
    have hmeans' := fun block hmem => hexpected block (List.mem_append_right _ hmem)
    rw [ScanContent.encodeMcus] at hcode
    split_ifs at hcode with hinterval
    · -- the interval is full
      obtain ⟨code, hblocks, hcode⟩ := Option.bind_eq_some_iff.1 hcode
      obtain ⟨rest, hrest, rfl⟩ := Option.map_eq_some_iff.1 hcode
      obtain ⟨more, tail, rfl, hwalk⟩ := ih (Nat.mod_lt _ (by decide)) hselects' hmeans' hrest
      refine ⟨[], 0xFF :: (0xD0 + marker) :: (stuff (pack (code ++ more)) ++ tail),
        by rw [List.append_nil], ?_⟩
      intro s padding hpadding hholds hprediction hsince
      obtain ⟨count, hcount, hpacked⟩ := flatMap_pack (code ++ more)
      obtain ⟨reader, hempty, hscan, hrestart⟩ :=
        restart_spec hmarker (hholds.scan_of_padding hpadding)
      have hfresh : (reader.rest data).Holds
          (code ++ (more ++ List.replicate count true)) tail := by
        refine ⟨pack (code ++ more), hscan, ?_⟩
        rw [hpacked, List.append_assoc, ScanReader.rest, hempty]
        rfl
      have henter : enterMcu data decoder s = pure { s with
          reader, prediction := fun _ => 0, mcusSinceRestart := 0 } := by
        rw [enterMcu, if_pos ⟨hinterval.1, hsince.trans hinterval.2⟩, hrestart]
      rw [ScanContent.McusInRange, if_pos hinterval, List.foldlM_cons]
      refine (decodeMcu_spec tables hsize henter hselects hmeans hblocks hfresh).bind
        fun s' walked => ?_
      refine (hwalk s' (List.replicate count true) (by rwa [List.length_replicate]) walked.reader
        walked.prediction walked.since).mono fun s'' hmean => ?_
      exact walked.mean.append hmean
    · obtain ⟨code, hblocks, hcode⟩ := Option.bind_eq_some_iff.1 hcode
      obtain ⟨more, tail, rfl, hwalk⟩ := ih hmarker hselects' hmeans' hcode
      refine ⟨code ++ more, tail, by rw [List.append_assoc], ?_⟩
      intro s padding hpadding hholds hprediction hsince
      rw [List.append_assoc] at hholds
      have henter : enterMcu data decoder s = pure s := by
        rw [enterMcu, hsince, if_neg hinterval]
      rw [ScanContent.McusInRange, if_neg hinterval, List.foldlM_cons]
      rw [← hprediction] at hblocks hwalk ⊢
      refine (decodeMcu_spec tables hsize henter hselects hmeans hblocks hholds).bind
        fun s' walked => ?_
      refine (hwalk s' padding hpadding walked.reader walked.prediction
        (walked.since.trans (congrArg (· + 1) hsince))).mono fun s'' hmean => ?_
      exact walked.mean.append hmean

end Tables

end Walk

/-- Decoding the scan of a baseline file gives the mean of every luma block. -/
theorem decodeScan_spec {data : List Nat} {decoder : JpegDecoder} {content : ScanContent}
    {luma : JpegComponent} {scanPos : Nat} (sizes : FrameSizes decoder)
    (tables : TablesOf decoder content) (hluma : decoder.components.head? = some luma)
    (hW : luma.blocksW ≤ JPEG_DC_MAX_BLOCKS_X) (hH : luma.blocksH ≤ JPEG_DC_MAX_BLOCKS_Y)
    (hmaximum : decoder.components.length = 1 →
      decoder.maxHFactor = 1 ∧ decoder.maxVFactor = 1)
    (selects : ∀ block ∈ decoder.mcus.flatten, Selects block)
    (hscan : encodeScan decoder content = some (data.drop scanPos)) :
    OkIff (content.McusInRange decoder 0 (fun _ => 0) decoder.mcus)
      (jpegDecodeScan data decoder scanPos)
      fun image => image.complete = true ∧ image.blocksW = luma.blocksW ∧
        image.blocksH = luma.blocksH ∧
        ∀ row < luma.blocksH, ∀ column < luma.blocksW, image.mean row column =
          meanOf (content.blocks 0 row column).dc (decoder.quant luma.quantId) := by
  unfold encodeScan at hscan
  rw [standardMcus_eq sizes hmaximum] at hscan
  have hlumaW : decoder.lumaBlocksW = luma.blocksW := by
    rw [JpegDecoder.lumaBlocksW, hluma]
    rfl
  have hlumaH : decoder.lumaBlocksH = luma.blocksH := by
    rw [JpegDecoder.lumaBlocksH, hluma]
    rfl
  have hexpected : ∀ block ∈ decoder.mcus.flatten, ExpectedMean decoder content
      (fun row column =>
        meanOf (content.blocks 0 row column).dc (decoder.quant luma.quantId)) block := by
    intro block hmem hindex
    have hcomponent := component_of_mem hmem
    rw [hindex, ← List.head?_eq_getElem?, hluma, Option.some.injEq] at hcomponent
    obtain rfl := hcomponent
    rw [ScanContent.blockOf, hindex]
  have hsize : ¬ (JPEG_DC_MAX_BLOCKS_X < decoder.lumaBlocksW ∨
      JPEG_DC_MAX_BLOCKS_Y < decoder.lumaBlocksH) := by omega
  obtain ⟨more, tail, hbytes, hwalk⟩ :=
    @encodeMcus_spec data _ _ _ tables hsize _ _ _ _ _ _ (by decide) selects hexpected hscan
  obtain ⟨count, hcount, hpacked⟩ := flatMap_pack ([] ++ more)
  rw [jpegDecodeScan, if_neg hsize]
  refine OkIff.congr ((hwalk (WalkState.start scanPos) (List.replicate count true)
    (by rwa [List.length_replicate]) ⟨_, hbytes, hpacked⟩ rfl rfl).bind
      fun s bright => okIff_pure ⟨rfl, hlumaW, hlumaH, ?_⟩) (and_iff_left trivial)
  intro row hrow column hcolumn
  obtain ⟨block, hblock, hindex, rfl, rfl⟩ :=
    exists_lumaBlock sizes (hlumaH ▸ hrow) (hlumaW ▸ hcolumn)
  exact bright.decoded block hblock ⟨hindex, hlumaW ▸ hcolumn, hlumaH ▸ hrow⟩

end JpegWalker

/-! ## The file -/

open Checked

section File

variable {file : JpegFile}

theorem selects_of_mem_mcus (valid : file.Valid) {block : ScanBlock}
    (hmem : block ∈ file.decoder.mcus.flatten) : Selects block := by
  have hcomponent := component_of_mem hmem
  obtain ⟨hindex, -⟩ := List.getElem?_eq_some_iff.1 hcomponent
  obtain ⟨origin, horigin, heq⟩ := List.mem_map.1 (List.mem_of_getElem? hcomponent)
  obtain ⟨-, hquantId, hdcTable, hacTable⟩ := valid.tables origin horigin
  have hcount : file.decoder.components.length ≤ 4 := by
    exact (List.length_map _).trans_le valid.count.2
  refine ⟨by omega, ?_, ?_, ?_⟩
  · rw [← heq]
    exact Nat.lt_succ_of_le hquantId
  · rw [← heq]
    exact Nat.lt_succ_of_le hdcTable
  · rw [← heq]
    exact Nat.lt_succ_of_le hacTable

/-- The decoder returns the means of a file whose numbers it can compute with, and does something
    undefined for any other. -/
theorem jpegDcDecode_okIff {luma : FileComponent} {data : List Nat} (valid : file.Valid)
    (hluma : file.components.head? = some luma) (hfits : file.Fits luma)
    (hencode : file.encode = some data)
    (hsampled : file.components.length = 1 → luma.hFactor = 1 ∧ luma.vFactor = 1) :
    OkIff file.InRange (JpegWalker.jpegDcDecode data) (file.DecodedTo luma) := by
  obtain ⟨scanPos, hscan, hheaders⟩ := readHeaders_encode valid hencode
  have hhead : file.decoder.components.head? = some (file.component luma) := by
    refine (List.head?_map).trans ?_
    rw [hluma]
    rfl
  have hmaximum : file.decoder.components.length = 1 →
      file.decoder.maxHFactor = 1 ∧ file.decoder.maxVFactor = 1 := by
    intro hlength
    have hone : file.components.length = 1 := by
      rw [← hlength]
      exact (List.length_map _).symm
    obtain ⟨hH, hV⟩ := hsampled hone
    obtain ⟨component, hcomponents⟩ := List.length_eq_one_iff.1 hone
    rw [hcomponents] at hluma
    obtain rfl := Option.some.inj hluma
    have hmaxH : file.maxHFactor = 1 := by
      rw [JpegFile.maxHFactor, hcomponents]
      exact max_eq_left hH.le
    have hmaxV : file.maxVFactor = 1 := by
      rw [JpegFile.maxVFactor, hcomponents]
      exact max_eq_left hV.le
    exact ⟨hmaxH, hmaxV⟩
  obtain ⟨hfitsW, hfitsH⟩ := hfits
  rw [JpegWalker.jpegDcDecode, hheaders, pure_bind]
  exact decodeScan_spec (frameSizes_file valid) (tablesOf_file valid) hhead hfitsW hfitsH hmaximum
    (fun block hmem => selects_of_mem_mcus valid hmem) hscan

/-! ## Small coefficients -/

theorem quant_foldl_huffman (tables : List HuffmanTable) (decoder : JpegDecoder) :
    (tables.foldl HuffmanTable.apply decoder).quant = decoder.quant := by
  induction tables generalizing decoder with
  | nil => rfl
  | cons table tables ih => rw [List.foldl_cons, ih]; rfl

theorem QuantTable.Valid.step_lt {table : QuantTable} (valid : table.Valid) :
    table.values.headD 0 < 2 ^ 16 := by
  obtain ⟨value, values, hvalues⟩ := List.exists_cons_of_length_pos
    (by rw [valid.values]; decide : 0 < table.values.length)
  have hvalue := valid.fit value (by rw [hvalues]; exact List.mem_cons_self)
  rw [hvalues]
  calc value < 256 ^ (table.precision + 1) := hvalue
    _ ≤ 256 ^ 2 := Nat.pow_le_pow_right (by decide) (Nat.succ_le_succ valid.precision)

theorem quant_foldl_lt {tables : List QuantTable} (valid : ∀ table ∈ tables, table.Valid)
    {decoder : JpegDecoder} (h : ∀ id, decoder.quant id < 2 ^ 16) (id : Nat) :
    (tables.foldl QuantTable.apply decoder).quant id < 2 ^ 16 := by
  induction tables generalizing decoder with
  | nil => exact h id
  | cons table tables ih =>
    refine ih (fun other hmem => valid other (List.mem_cons_of_mem _ hmem)) fun other => ?_
    rw [QuantTable.apply]
    dsimp only
    rw [Function.update_apply]
    split_ifs
    · exact (valid table List.mem_cons_self).step_lt
    · exact h other

/-- The steps have 16 bits. -/
theorem quant_segments_lt {segments : List JpegSegment}
    (valid : ∀ segment ∈ segments, segment.Valid) {decoder : JpegDecoder}
    (h : ∀ id, decoder.quant id < 2 ^ 16) (id : Nat) :
    (segments.foldl JpegSegment.apply decoder).quant id < 2 ^ 16 := by
  induction segments generalizing decoder with
  | nil => exact h id
  | cons segment segments ih =>
    refine ih (fun other hmem => valid other (List.mem_cons_of_mem _ hmem)) ?_
    have hcontent := (valid segment List.mem_cons_self).content
    cases segment with
    | quant tables => exact quant_foldl_lt hcontent h
    | huffman tables =>
      intro other
      rw [JpegSegment.apply, quant_foldl_huffman]
      exact h other
    | restart interval => exact h
    | other marker payload => exact h

section Small

variable {content : ScanContent} {decoder : JpegDecoder}
  (hsmall : ∀ component row column, (content.blocks component row column).dc.natAbs < 2 ^ 15)
  (hquant : ∀ id, decoder.quant id < 2 ^ 16)
include hsmall

theorem predict_small {prediction : Nat → Int} (h : ∀ index, (prediction index).natAbs < 2 ^ 15)
    (block : ScanBlock) (index : Nat) :
    (content.predict prediction block index).natAbs < 2 ^ 15 := by
  rw [ScanContent.predict, Function.update_apply]
  split_ifs
  · exact hsmall _ _ _
  · exact h index

theorem foldl_predict_small {blocks : List ScanBlock} {prediction : Nat → Int}
    (h : ∀ index, (prediction index).natAbs < 2 ^ 15) (index : Nat) :
    (blocks.foldl content.predict prediction index).natAbs < 2 ^ 15 := by
  induction blocks generalizing prediction with
  | nil => exact h index
  | cons block blocks ih => exact ih (predict_small hsmall h block)

include hquant

theorem blockInRange_of_small {prediction : Nat → Int}
    (h : ∀ index, (prediction index).natAbs < 2 ^ 15) (block : ScanBlock) :
    content.BlockInRange decoder prediction block := by
  have hdc : (content.blockOf block).dc.natAbs < 2 ^ 15 := hsmall _ _ _
  have hprediction := h block.index
  have hstep := hquant block.component.quantId
  have hlevel : ((content.blockOf block).dc * decoder.quant block.component.quantId).natAbs <
      2 ^ 31 := by
    rw [Int.natAbs_mul, Int.natAbs_natCast]
    calc (content.blockOf block).dc.natAbs * decoder.quant block.component.quantId
        ≤ (content.blockOf block).dc.natAbs * 2 ^ 16 := Nat.mul_le_mul_left _ hstep.le
      _ < 2 ^ 15 * 2 ^ 16 := Nat.mul_lt_mul_of_pos_right hdc (by decide)
      _ = 2 ^ 31 := by norm_num
  refine ⟨⟨by omega, by omega⟩, ⟨by omega, by omega⟩, fun _ => ⟨by omega, by omega⟩⟩

theorem blocksInRange_of_small {blocks : List ScanBlock} {prediction : Nat → Int}
    (h : ∀ index, (prediction index).natAbs < 2 ^ 15) :
    content.BlocksInRange decoder prediction blocks := by
  induction blocks generalizing prediction with
  | nil => trivial
  | cons block blocks ih =>
    exact ⟨blockInRange_of_small hsmall hquant h block, ih (predict_small hsmall h block)⟩

theorem mcusInRange_of_small {mcus : List (List ScanBlock)} {since : Nat}
    {prediction : Nat → Int} (h : ∀ index, (prediction index).natAbs < 2 ^ 15) :
    content.McusInRange decoder since prediction mcus := by
  induction mcus generalizing since prediction with
  | nil => trivial
  | cons mcu mcus ih =>
    have hzero : ∀ _ : Nat, (0 : Int).natAbs < 2 ^ 15 := fun _ => by decide
    rw [ScanContent.McusInRange]
    split_ifs
    · exact ⟨blocksInRange_of_small hsmall hquant hzero, ih (foldl_predict_small hsmall hzero)⟩
    · exact ⟨blocksInRange_of_small hsmall hquant h, ih (foldl_predict_small hsmall h)⟩

end Small

/-- Coefficients of 15 bits and a sign are in range under every step of 16 bits. -/
theorem inRange_of_small (valid : file.Valid) (hsmall : ∀ component row column,
    (file.blocks component row column).dc.natAbs < 2 ^ 15) : file.InRange := by
  have hquant : ∀ id, file.decoder.quant id < 2 ^ 16 := by
    intro id
    exact quant_segments_lt valid.segments (fun _ => Nat.two_pow_pos 16) id
  exact @mcusInRange_of_small file.content _ hsmall hquant _ _ _ fun _ => Nat.two_pow_pos 15

end File

/-- Decoding inverts baseline encoding, for several components and for one that is sampled once, if
    the numbers of the file are in range, and only then. -/
theorem dc_decode_inverts {file : JpegFile} {luma : FileComponent} {data : List Nat}
    (valid : file.Valid) (hluma : file.components.head? = some luma) (hfits : file.Fits luma)
    (hencode : file.encode = some data)
    (hsampled : file.components.length = 1 → luma.hFactor = 1 ∧ luma.vFactor = 1) :
    (∃ image, (JpegWalker.jpegDcDecode data).run = some (.ok image) ∧
      file.DecodedTo luma image) ↔ file.InRange :=
  (jpegDcDecode_okIff valid hluma hfits hencode hsampled).iff

/-- Six categories of a difference. -/
def categoryCodes : HuffmanSpec where
  counts := [0, 2, 3, 1] ++ List.replicate 12 0
  symbols := [0, 1, 2, 3, 4, 5]

/-- The end of a block, two coefficients of two bits behind 0 and 1 zeros, and 16 zeros. -/
def runCodes : HuffmanSpec where
  counts := [0, 1, 2, 1] ++ List.replicate 12 0
  symbols := [0x00, 0x02, 0x12, 0xF0]

/-- Two MCUs of two luma blocks and one chroma block, with a restart marker between them; the last
    luma block is beyond the image. -/
def colourFile : JpegFile where
  before := [.other 0xFE [1, 2, 3],
    .quant [⟨0, 0, List.replicate 64 20⟩, ⟨1, 1, List.replicate 64 300⟩],
    .huffman [⟨0, 0, categoryCodes⟩, ⟨1, 0, runCodes⟩]]
  after := [.huffman [⟨0, 1, categoryCodes⟩, ⟨1, 1, runCodes⟩], .restart 1]
  width := 24
  height := 8
  components := [⟨⟨1, 2, 1, 0⟩, 0, 0⟩, ⟨⟨2, 1, 1, 1⟩, 1, 1⟩]
  blocks component _ column :=
    if component = 0 then
      { dc := 10 * (column % 4) - 15
        ac := [3] ++ List.replicate 17 0 ++ [-2] ++ List.replicate 44 0
        coefficients := rfl }
    else ⟨7 - 9 * (column % 2), List.replicate 63 0, List.length_replicate⟩

theorem dc_decode_inverts_colour : ∃ data image, colourFile.encode = some data ∧
    (JpegWalker.jpegDcDecode data).run = some (.ok image) ∧
      colourFile.DecodedTo ⟨⟨1, 2, 1, 0⟩, 0, 0⟩ image ∧
        [image.mean 0 0, image.mean 0 1, image.mean 0 2] = [91, 116, 140] := by
  have hencoded : colourFile.encode.isSome = true := by decide
  obtain ⟨data, hdata⟩ := Option.isSome_iff_exists.1 hencoded
  have valid : colourFile.Valid := by decide +kernel
  have inRange : colourFile.InRange := by
    refine inRange_of_small valid fun component row column => ?_
    unfold colourFile
    dsimp only
    split_ifs
    · show (10 * (column % 4 : Int) - 15).natAbs < 2 ^ 15
      omega
    · show (7 - 9 * (column % 2 : Int)).natAbs < 2 ^ 15
      omega
  obtain ⟨image, himage, hdecoded⟩ :=
    (dc_decode_inverts valid rfl (by decide) hdata fun h => by cases h).2 inRange
  obtain ⟨-, -, -, hmean⟩ := id hdecoded
  refine ⟨data, image, hdata, himage, hdecoded, ?_⟩
  rw [hmean 0 (by decide) 0 (by decide), hmean 0 (by decide) 1 (by decide),
    hmean 0 (by decide) 2 (by decide)]
  decide

/-- One symbol of one bit. -/
def zeroCodes : HuffmanSpec where
  counts := 1 :: List.replicate 15 0
  symbols := [0]

/-- An image of 8 by 8 pixels and one component. -/
def greyFile (hFactor vFactor : Nat) : JpegFile where
  before := [.quant [⟨0, 0, List.replicate 64 8⟩], .huffman [⟨0, 0, zeroCodes⟩, ⟨1, 0, zeroCodes⟩]]
  after := []
  width := 8
  height := 8
  components := [⟨⟨1, hFactor, vFactor, 0⟩, 0, 0⟩]
  blocks _ _ _ := ⟨0, List.replicate 63 0, List.length_replicate⟩

/-- With sampling factors of 2 the file still codes one block, and the decoder asks for four. -/
theorem grey_sampled_twice_not_decoded :
    (greyFile 2 2).Valid ∧ (greyFile 2 2).Fits ⟨⟨1, 2, 2, 0⟩, 0, 0⟩ ∧
      ∃ data, (greyFile 2 2).encode = some data ∧
        (JpegWalker.jpegDcDecode data).run = some (.error ()) := by
  have hencoded : (greyFile 2 2).encode.isSome = true := by decide
  have hdecoded : ((greyFile 2 2).encode.bind fun data =>
      (JpegWalker.jpegDcDecode data).run).map Except.isOk = some false := by decide +kernel
  obtain ⟨data, hdata⟩ := Option.isSome_iff_exists.1 hencoded
  rw [hdata, Option.bind_some] at hdecoded
  refine ⟨by decide, by decide, data, hdata, ?_⟩
  obtain ⟨result, hresult, hfailed⟩ := Option.map_eq_some_iff.1 hdecoded
  cases result with
  | ok image => cases hfailed
  | error failure => exact hresult

end SysAgent
