import Mathlib
import SysAgent.Jpeg.Entropy

set_option autoImplicit false

/-! # The blocks of a scan and their encoding (`jpegDecodeScan` in `jpeg_dc.c`)

The decoder walks the MCUs in raster order, and in each the blocks of each component. A baseline
scan of one component is not coded so: there each block is an MCU of its own, whatever the sampling
factors say. -/

namespace SysAgent

open MsbBits

def JPEG_DC_MAX_BLOCKS_X : Nat := 192
def JPEG_DC_MAX_BLOCKS_Y : Nat := 136

structure JpegComponent where
  id : Nat
  hFactor : Nat
  vFactor : Nat
  quantId : Nat
  dcTable : Nat
  acTable : Nat
  blocksW : Nat
  blocksH : Nat

/-- `quant` is the DC step of each table; `huffman` has a table at `id * 2`, and the one for AC
    coefficients behind it. -/
structure JpegDecoder where
  quant : Nat → Nat
  huffman : Nat → Option JpegHuffman
  components : List JpegComponent
  maxHFactor : Nat
  maxVFactor : Nat
  width : Nat
  height : Nat
  restartInterval : Nat

structure JpegDcImage where
  blocksW : Nat
  blocksH : Nat
  complete : Bool
  mean : Nat → Nat → Nat

/-- A block of a component, in the rows and columns of the blocks of the component. -/
structure ScanBlock where
  index : Nat
  component : JpegComponent
  row : Nat
  column : Nat

/-- `value / 8` rounds towards 0. -/
def meanOf (dc : Int) (step : Nat) : Nat :=
  (min 255 (max 0 ((dc * step).tdiv 8 + 128))).toNat

namespace JpegDecoder

variable (decoder : JpegDecoder)

def mcusW : Nat := (decoder.width + 8 * decoder.maxHFactor - 1) / (8 * decoder.maxHFactor)
def mcusH : Nat := (decoder.height + 8 * decoder.maxVFactor - 1) / (8 * decoder.maxVFactor)

def lumaBlocksW : Nat := (decoder.components.head?.map JpegComponent.blocksW).getD 0
def lumaBlocksH : Nat := (decoder.components.head?.map JpegComponent.blocksH).getD 0

/-- The blocks that the walk decodes in one MCU. -/
def mcuBlocks (mcuY mcuX : Nat) : List ScanBlock :=
  decoder.components.zipIdx.flatMap fun (component, index) =>
    (List.range component.vFactor).flatMap fun blockY =>
      (List.range component.hFactor).map fun blockX =>
        { index, component
          row := mcuY * component.vFactor + blockY
          column := mcuX * component.hFactor + blockX }

/-- The MCUs in the order of the two outer loops. -/
def mcus : List (List ScanBlock) :=
  (List.range decoder.mcusH).flatMap fun mcuY =>
    (List.range decoder.mcusW).map fun mcuX => decoder.mcuBlocks mcuY mcuX

end JpegDecoder

/-! ## Baseline encoding -/

/-- What is encoded: the tables of the file and the blocks of each component, with those that only
    fill up an MCU. -/
structure ScanContent where
  tables : Nat → Option HuffmanSpec
  blocks : Nat → Nat → Nat → QuantisedBlock

namespace ScanContent

variable (content : ScanContent)

def blockOf (block : ScanBlock) : QuantisedBlock :=
  content.blocks block.index block.row block.column

def encodeBlock (prediction : Nat → Int) (block : ScanBlock) : Option (List Bool) :=
  (content.tables (block.component.dcTable * 2)).bind fun dcTable =>
    (content.tables (block.component.acTable * 2 + 1)).bind fun acTable =>
      (dcBits dcTable ((content.blockOf block).dc - prediction block.index)).bind fun difference =>
        (encodeAc acTable 0 (content.blockOf block).ac).map fun code => difference ++ code

/-- The predictions after a block. -/
def predict (prediction : Nat → Int) (block : ScanBlock) : Nat → Int :=
  Function.update prediction block.index (content.blockOf block).dc

def encodeBlocks : (Nat → Int) → List ScanBlock → Option (List Bool)
  | _, [] => some []
  | prediction, block :: blocks =>
    (content.encodeBlock prediction block).bind fun code =>
      (encodeBlocks (content.predict prediction block) blocks).map fun rest => code ++ rest

/-- The MCUs from one on, with the number of the next restart marker, the MCUs since the last one
    and the bits of their interval: a full interval is packed and followed by a marker, the last one
    by the end of the image. -/
def encodeMcus (interval : Nat) :
    Nat → Nat → (Nat → Int) → List Bool → List (List ScanBlock) → Option (List Nat)
  | _, _, _, bits, [] => some (stuff (pack bits) ++ [0xFF, 0xD9])
  | marker, since, prediction, bits, mcu :: mcus =>
    if 0 < interval ∧ since = interval then
      (content.encodeBlocks (fun _ => 0) mcu).bind fun code =>
        (encodeMcus interval ((marker + 1) % 8) 1 (mcu.foldl content.predict fun _ => 0) code
          mcus).map fun rest => stuff (pack bits) ++ 0xFF :: (0xD0 + marker) :: rest
    else
      (content.encodeBlocks prediction mcu).bind fun code =>
        encodeMcus interval marker (since + 1) (mcu.foldl content.predict prediction)
          (bits ++ code) mcus

end ScanContent

/-- The MCUs of a baseline scan: interleaved components take turns, and the blocks of one component
    are MCUs in raster order. -/
def JpegDecoder.standardMcus (decoder : JpegDecoder) : List (List ScanBlock) :=
  match decoder.components with
  | [component] =>
    (List.range component.blocksH).flatMap fun row =>
      (List.range component.blocksW).map fun column => [{ index := 0, component, row, column }]
  | _ => decoder.mcus

def encodeScan (decoder : JpegDecoder) (content : ScanContent) : Option (List Nat) :=
  content.encodeMcus decoder.restartInterval 0 0 (fun _ => 0) [] decoder.standardMcus

/-- The decoder has the tables of the file. -/
structure TablesOf (decoder : JpegDecoder) (content : ScanContent) : Prop where
  valid : ∀ index spec, content.tables index = some spec → spec.Valid
  table : ∀ index spec, content.tables index = some spec →
    decoder.huffman index = some spec.table

/-! ## The geometry -/

/-- The sizes that `jpegParseFrame` computes. -/
structure FrameSizes (decoder : JpegDecoder) : Prop where
  factors : ∀ component ∈ decoder.components,
    0 < component.hFactor ∧ component.hFactor ≤ decoder.maxHFactor ∧
      0 < component.vFactor ∧ component.vFactor ≤ decoder.maxVFactor
  blocksW : ∀ component ∈ decoder.components, component.blocksW =
    ((decoder.width * component.hFactor + decoder.maxHFactor - 1) / decoder.maxHFactor + 7) / 8
  blocksH : ∀ component ∈ decoder.components, component.blocksH =
    ((decoder.height * component.vFactor + decoder.maxVFactor - 1) / decoder.maxVFactor + 7) / 8

/-- The blocks of a component fit into the MCUs. -/
theorem blocks_le {length factor maximum : Nat} (hpos : 0 < maximum) :
    ((length * factor + maximum - 1) / maximum + 7) / 8 ≤
      (length + 8 * maximum - 1) / (8 * maximum) * factor := by
  have hcover : length ≤ 8 * maximum * ((length + 8 * maximum - 1) / (8 * maximum)) := by
    have hdiv := Nat.lt_mul_div_succ (length + 8 * maximum - 1) (by omega : 0 < 8 * maximum)
    have hsucc : 8 * maximum * ((length + 8 * maximum - 1) / (8 * maximum) + 1) =
        8 * maximum * ((length + 8 * maximum - 1) / (8 * maximum)) + 8 * maximum := by ring
    omega
  generalize (length + 8 * maximum - 1) / (8 * maximum) = mcus at hcover ⊢
  have hscaled : length * factor ≤ maximum * (8 * (mcus * factor)) := by
    calc length * factor ≤ 8 * maximum * mcus * factor := Nat.mul_le_mul_right _ hcover
      _ = maximum * (8 * (mcus * factor)) := by ring
  have hsampled : (length * factor + maximum - 1) / maximum ≤ 8 * (mcus * factor) := by
    rw [Nat.div_le_iff_le_mul_add_pred hpos]
    omega
  omega

section Geometry

variable {decoder : JpegDecoder}

/-- Every luma block is in some MCU. -/
theorem exists_lumaBlock (sizes : FrameSizes decoder) {row column : Nat}
    (hrow : row < decoder.lumaBlocksH) (hcolumn : column < decoder.lumaBlocksW) :
    ∃ block ∈ decoder.mcus.flatten,
      block.index = 0 ∧ block.row = row ∧ block.column = column := by
  unfold JpegDecoder.lumaBlocksH at hrow
  unfold JpegDecoder.lumaBlocksW at hcolumn
  cases hcomponents : decoder.components with
  | nil =>
    rw [hcomponents] at hrow
    exact absurd hrow (Nat.not_lt_zero row)
  | cons luma rest =>
    rw [hcomponents] at hrow hcolumn
    have hmem : luma ∈ decoder.components := by
      rw [hcomponents]
      exact List.mem_cons_self
    obtain ⟨hpos, hmax, vpos, vmax⟩ := sizes.factors luma hmem
    have hW : luma.blocksW ≤ decoder.mcusW * luma.hFactor := by
      rw [sizes.blocksW luma hmem]
      exact blocks_le (by omega)
    have hH : luma.blocksH ≤ decoder.mcusH * luma.vFactor := by
      rw [sizes.blocksH luma hmem]
      exact blocks_le (by omega)
    have hmcuY : row / luma.vFactor < decoder.mcusH :=
      Nat.div_lt_of_lt_mul (by rw [Nat.mul_comm]; exact lt_of_lt_of_le hrow hH)
    have hmcuX : column / luma.hFactor < decoder.mcusW :=
      Nat.div_lt_of_lt_mul (by rw [Nat.mul_comm]; exact lt_of_lt_of_le hcolumn hW)
    refine ⟨⟨0, luma, row, column⟩, ?_, rfl, rfl, rfl⟩
    rw [List.mem_flatten]
    refine ⟨decoder.mcuBlocks (row / luma.vFactor) (column / luma.hFactor), ?_, ?_⟩
    · exact List.mem_flatMap.2 ⟨_, List.mem_range.2 hmcuY,
        List.mem_map.2 ⟨_, List.mem_range.2 hmcuX, rfl⟩⟩
    · refine List.mem_flatMap.2 ⟨(luma, 0), ?_, ?_⟩
      · rw [hcomponents, List.zipIdx_cons]
        exact List.mem_cons_self
      · refine List.mem_flatMap.2 ⟨row % luma.vFactor,
          List.mem_range.2 (Nat.mod_lt _ vpos), ?_⟩
        refine List.mem_map.2 ⟨column % luma.hFactor, List.mem_range.2 (Nat.mod_lt _ hpos), ?_⟩
        simp only [ScanBlock.mk.injEq, true_and]
        exact ⟨by rw [Nat.mul_comm, Nat.div_add_mod], by rw [Nat.mul_comm, Nat.div_add_mod]⟩

theorem component_of_mem {block : ScanBlock} (hmem : block ∈ decoder.mcus.flatten) :
    decoder.components[block.index]? = some block.component := by
  obtain ⟨mcu, hmcu, hmem⟩ := List.mem_flatten.1 hmem
  obtain ⟨mcuY, -, hmcu⟩ := List.mem_flatMap.1 hmcu
  obtain ⟨mcuX, -, rfl⟩ := List.mem_map.1 hmcu
  obtain ⟨⟨component, index⟩, hcomponent, hmem⟩ := List.mem_flatMap.1 hmem
  obtain ⟨blockY, -, hmem⟩ := List.mem_flatMap.1 hmem
  obtain ⟨blockX, -, rfl⟩ := List.mem_map.1 hmem
  exact List.mem_zipIdx_iff_getElem?.1 hcomponent

/-- The walk takes the MCUs of the standard, unless one component is sampled more than once. -/
theorem standardMcus_eq (sizes : FrameSizes decoder)
    (hmaximum : decoder.components.length = 1 →
      decoder.maxHFactor = 1 ∧ decoder.maxVFactor = 1) :
    decoder.standardMcus = decoder.mcus := by
  unfold JpegDecoder.standardMcus
  split
  case h_2 => rfl
  case h_1 component hcomponents =>
    obtain ⟨hH, hV⟩ := hmaximum (by rw [hcomponents]; rfl)
    have hmem : component ∈ decoder.components := by
      rw [hcomponents]
      exact List.mem_singleton_self _
    obtain ⟨hpos, hmax, vpos, vmax⟩ := sizes.factors component hmem
    have hfactor : component.hFactor = 1 := by omega
    have vfactor : component.vFactor = 1 := by omega
    have hW : decoder.mcusW = component.blocksW := by
      rw [sizes.blocksW component hmem, JpegDecoder.mcusW, hH, hfactor]
      omega
    have hH' : decoder.mcusH = component.blocksH := by
      rw [sizes.blocksH component hmem, JpegDecoder.mcusH, hV, vfactor]
      omega
    unfold JpegDecoder.mcus JpegDecoder.mcuBlocks
    rw [hW, hH', hcomponents]
    simp [hfactor, vfactor]

end Geometry

end SysAgent
