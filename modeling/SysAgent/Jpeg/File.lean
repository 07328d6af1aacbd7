import Mathlib
import SysAgent.Jpeg.Scan

set_option autoImplicit false

/-! # The file and its encoding (`jpegDcDecode` in `jpeg_dc.c`)

A baseline file has its tables in segments before the scan, in any order; application data and
comments may stand between them. -/

namespace SysAgent

/-! ## The decoder behind the headers -/

structure FrameComponent where
  id : Nat
  hFactor : Nat
  vFactor : Nat
  quantId : Nat

def maxFactor (factor : FrameComponent → Nat) (components : List FrameComponent) : Nat :=
  components.foldl (fun maximum component => max maximum (factor component)) 1

def sampledBlocks (length factor maximum : Nat) : Nat :=
  ((length * factor + maximum - 1) / maximum + 7) / 8

/-- The components of a frame; the scan header gives them their Huffman tables. -/
def frameComponents (width height : Nat) (components : List FrameComponent) :
    List JpegComponent :=
  components.map fun component => {
    id := component.id
    hFactor := component.hFactor
    vFactor := component.vFactor
    quantId := component.quantId
    dcTable := 0
    acTable := 0
    blocksW := sampledBlocks width component.hFactor
      (maxFactor FrameComponent.hFactor components)
    blocksH := sampledBlocks height component.vFactor
      (maxFactor FrameComponent.vFactor components) }

/-- The first component with the id gets the tables. -/
def setTables (id tables : Nat) : List JpegComponent → Option (List JpegComponent)
  | [] => none
  | component :: components =>
    if component.id = id then
      some ({ component with dcTable := tables / 16, acTable := tables % 16 } :: components)
    else (setTables id tables components).map fun components => component :: components

def frameMarkers : List Nat :=
  [0xC0, 0xC1, 0xC2, 0xC3, 0xC5, 0xC6, 0xC7, 0xC9, 0xCA, 0xCB, 0xCD, 0xCE, 0xCF]

/-- `memset(&decoder, 0, sizeof(decoder))`. -/
def emptyDecoder : JpegDecoder where
  quant _ := 0
  huffman _ := none
  components := []
  maxHFactor := 0
  maxVFactor := 0
  width := 0
  height := 0
  restartInterval := 0

/-! ## Baseline files -/

structure QuantTable where
  precision : Nat
  id : Nat
  values : List Nat

structure HuffmanTable where
  isAc : Nat
  id : Nat
  spec : HuffmanSpec

/-- The segments that may stand before and behind the frame header; `other` are application data
    and comments. -/
inductive JpegSegment
  | quant (tables : List QuantTable)
  | huffman (tables : List HuffmanTable)
  | restart (interval : Nat)
  | other (marker : Nat) (payload : List Nat)

def u16Bytes (value : Nat) : List Nat := [value / 256, value % 256]

namespace QuantTable

def bytes (table : QuantTable) : List Nat :=
  (16 * table.precision + table.id) ::
    table.values.flatMap fun value => if table.precision = 0 then [value] else u16Bytes value

/-- The first value is the DC step. -/
structure Valid (table : QuantTable) : Prop where
  precision : table.precision ≤ 1
  id : table.id ≤ 3
  values : table.values.length = 64
  fit : ∀ value ∈ table.values, value < 256 ^ (table.precision + 1)

instance (table : QuantTable) : Decidable table.Valid :=
  decidable_of_iff (table.precision ≤ 1 ∧ table.id ≤ 3 ∧ table.values.length = 64 ∧
    ∀ value ∈ table.values, value < 256 ^ (table.precision + 1))
    ⟨fun ⟨precision, id, values, fit⟩ => ⟨precision, id, values, fit⟩,
      fun valid => ⟨valid.precision, valid.id, valid.values, valid.fit⟩⟩

def apply (decoder : JpegDecoder) (table : QuantTable) : JpegDecoder :=
  { decoder with quant := Function.update decoder.quant table.id (table.values.headD 0) }

end QuantTable

namespace HuffmanTable

def bytes (table : HuffmanTable) : List Nat :=
  (16 * table.isAc + table.id) :: (table.spec.counts ++ table.spec.symbols)

structure Valid (table : HuffmanTable) : Prop where
  isAc : table.isAc ≤ 1
  id : table.id ≤ 3
  spec : table.spec.Valid
  fit : ∀ byte ∈ table.spec.counts ++ table.spec.symbols, byte < 256

instance (table : HuffmanTable) : Decidable table.Valid :=
  decidable_of_iff (table.isAc ≤ 1 ∧ table.id ≤ 3 ∧ table.spec.Valid ∧
    ∀ byte ∈ table.spec.counts ++ table.spec.symbols, byte < 256)
    ⟨fun ⟨isAc, id, spec, fit⟩ => ⟨isAc, id, spec, fit⟩,
      fun valid => ⟨valid.isAc, valid.id, valid.spec, valid.fit⟩⟩

def apply (decoder : JpegDecoder) (table : HuffmanTable) : JpegDecoder :=
  { decoder with
    huffman := Function.update decoder.huffman (table.id * 2 + table.isAc)
      (some table.spec.table) }

end HuffmanTable

namespace JpegSegment

def marker : JpegSegment → Nat
  | quant _ => 0xDB
  | huffman _ => 0xC4
  | restart _ => 0xDD
  | other marker _ => marker

def payload : JpegSegment → List Nat
  | quant tables => tables.flatMap QuantTable.bytes
  | huffman tables => tables.flatMap HuffmanTable.bytes
  | restart interval => u16Bytes interval
  | other _ payload => payload

/-- The contents of a segment are valid. -/
def ContentValid : JpegSegment → Prop
  | quant tables => ∀ table ∈ tables, table.Valid
  | huffman tables => ∀ table ∈ tables, table.Valid
  | restart interval => interval < 65536
  | other marker payload => 0xE0 ≤ marker ∧ marker ≤ 0xFE ∧ ∀ byte ∈ payload, byte < 256

structure Valid (segment : JpegSegment) : Prop where
  content : segment.ContentValid
  length : segment.payload.length + 2 < 65536

instance : ∀ segment : JpegSegment, Decidable segment.ContentValid
  | quant tables => inferInstanceAs (Decidable (∀ table ∈ tables, table.Valid))
  | huffman tables => inferInstanceAs (Decidable (∀ table ∈ tables, table.Valid))
  | restart interval => inferInstanceAs (Decidable (interval < 65536))
  | other marker payload => inferInstanceAs (Decidable
      (0xE0 ≤ marker ∧ marker ≤ 0xFE ∧ ∀ byte ∈ payload, byte < 256))

instance (segment : JpegSegment) : Decidable segment.Valid :=
  decidable_of_iff (segment.ContentValid ∧ segment.payload.length + 2 < 65536)
    ⟨fun ⟨content, length⟩ => ⟨content, length⟩, fun valid => ⟨valid.content, valid.length⟩⟩

/-- What reading the segment does. -/
def apply (decoder : JpegDecoder) : JpegSegment → JpegDecoder
  | quant tables => tables.foldl QuantTable.apply decoder
  | huffman tables => tables.foldl HuffmanTable.apply decoder
  | restart interval => { decoder with restartInterval := interval }
  | other _ _ => decoder

end JpegSegment

def segmentBytes (marker : Nat) (payload : List Nat) : List Nat :=
  0xFF :: marker :: (u16Bytes (payload.length + 2) ++ payload)

def JpegSegment.bytes (segment : JpegSegment) : List Nat :=
  segmentBytes segment.marker segment.payload

theorem u16Bytes_value (value : Nat) : value / 256 * 256 + value % 256 = value := by omega

theorem length_le_flatMap {α : Type} {write : α → List Nat} {l : List α}
    (h : ∀ a ∈ l, 0 < (write a).length) : l.length ≤ (l.flatMap write).length := by
  induction l with
  | nil => exact Nat.zero_le _
  | cons a l ih =>
    have hhead := h a List.mem_cons_self
    have htail := ih fun other hmem => h other (List.mem_cons_of_mem _ hmem)
    rw [List.flatMap_cons, List.length_append, List.length_cons]
    omega

/-! ## The frame and the scan header -/

/-- A component of a file, with the tables that the scan header gives it. -/
structure FileComponent extends FrameComponent where
  dcTable : Nat
  acTable : Nat

/-- A baseline file: the segments before and behind the frame header, the frame and the blocks of
    its components. -/
structure JpegFile where
  before : List JpegSegment
  after : List JpegSegment
  width : Nat
  height : Nat
  components : List FileComponent
  blocks : Nat → Nat → Nat → QuantisedBlock

namespace JpegFile

variable (file : JpegFile)

def segments : List JpegSegment := file.before ++ file.after

def maxHFactor : Nat :=
  maxFactor FrameComponent.hFactor (file.components.map FileComponent.toFrameComponent)

def maxVFactor : Nat :=
  maxFactor FrameComponent.vFactor (file.components.map FileComponent.toFrameComponent)

def component (component : FileComponent) : JpegComponent where
  id := component.id
  hFactor := component.hFactor
  vFactor := component.vFactor
  quantId := component.quantId
  dcTable := component.dcTable
  acTable := component.acTable
  blocksW := sampledBlocks file.width component.hFactor file.maxHFactor
  blocksH := sampledBlocks file.height component.vFactor file.maxVFactor

/-- What the headers of the file say. -/
def decoder : JpegDecoder :=
  { file.segments.foldl JpegSegment.apply emptyDecoder with
    components := file.components.map file.component
    maxHFactor := file.maxHFactor
    maxVFactor := file.maxVFactor
    width := file.width
    height := file.height }

/-- The Huffman tables of the segments; a later one takes the place of an earlier one. -/
def tables (index : Nat) : Option HuffmanSpec :=
  let defined := file.segments.flatMap fun segment =>
    match segment with
    | .huffman tables => tables
    | _ => []
  (defined.reverse.find? fun table => table.id * 2 + table.isAc = index).map HuffmanTable.spec

def content : ScanContent where
  tables := file.tables
  blocks := file.blocks

def frameBytes : List Nat :=
  8 :: (u16Bytes file.height ++ (u16Bytes file.width ++ (file.components.length ::
    file.components.flatMap fun component =>
      [component.id, 16 * component.hFactor + component.vFactor, component.quantId])))

def scanHeaderBytes : List Nat :=
  file.components.length :: ((file.components.flatMap fun component =>
    [component.id, 16 * component.dcTable + component.acTable]) ++ [0, 63, 0])

/-- The bytes of the file, if its tables cover the symbols that its blocks need. -/
def encode : Option (List Nat) :=
  (encodeScan file.decoder file.content).map fun scan =>
    0xFF :: 0xD8 :: (file.before.flatMap JpegSegment.bytes ++ (segmentBytes 0xC0 file.frameBytes ++
      (file.after.flatMap JpegSegment.bytes ++ (segmentBytes 0xDA file.scanHeaderBytes ++ scan))))

structure Valid : Prop where
  segments : ∀ segment ∈ file.segments, segment.Valid
  width : 0 < file.width ∧ file.width < 65536
  height : 0 < file.height ∧ file.height < 65536
  count : 0 < file.components.length ∧ file.components.length ≤ 4
  factors : ∀ component ∈ file.components, 0 < component.hFactor ∧ component.hFactor ≤ 4 ∧
    0 < component.vFactor ∧ component.vFactor ≤ 4
  ids : (file.components.map fun component => component.id).Nodup
  tables : ∀ component ∈ file.components, component.id < 256 ∧ component.quantId ≤ 3 ∧
    component.dcTable ≤ 3 ∧ component.acTable ≤ 3

instance : Decidable file.Valid :=
  decidable_of_iff ((∀ segment ∈ file.segments, segment.Valid) ∧
    (0 < file.width ∧ file.width < 65536) ∧ (0 < file.height ∧ file.height < 65536) ∧
    (0 < file.components.length ∧ file.components.length ≤ 4) ∧
    (∀ component ∈ file.components, 0 < component.hFactor ∧ component.hFactor ≤ 4 ∧
      0 < component.vFactor ∧ component.vFactor ≤ 4) ∧
    (file.components.map fun component => component.id).Nodup ∧
    ∀ component ∈ file.components, component.id < 256 ∧ component.quantId ≤ 3 ∧
      component.dcTable ≤ 3 ∧ component.acTable ≤ 3)
    ⟨fun ⟨segments, width, height, count, factors, ids, tables⟩ =>
      ⟨segments, width, height, count, factors, ids, tables⟩,
      fun valid => ⟨valid.segments, valid.width, valid.height, valid.count, valid.factors,
        valid.ids, valid.tables⟩⟩

end JpegFile

section Headers

variable {file : JpegFile}

theorem length_triples (components : List FileComponent) :
    (components.flatMap fun component =>
      [component.id, 16 * component.hFactor + component.vFactor, component.quantId]).length =
        3 * components.length := by
  induction components with
  | nil => rfl
  | cons component components ih =>
    rw [List.flatMap_cons, List.length_append, ih, List.length_cons]
    simp only [List.length_cons, List.length_nil]
    omega

theorem length_frameBytes : file.frameBytes.length + 2 = 8 + 3 * file.components.length := by
  unfold JpegFile.frameBytes u16Bytes
  simp only [List.length_cons, List.length_append, length_triples, List.length_nil]
  omega

/-- What reading the frame header does. -/
def JpegFile.withFrame (file : JpegFile) (decoder : JpegDecoder) : JpegDecoder :=
  { decoder with
    components := frameComponents file.width file.height
      (file.components.map FileComponent.toFrameComponent)
    maxHFactor := file.maxHFactor
    maxVFactor := file.maxVFactor
    width := file.width
    height := file.height }

theorem setTables_spec {done rest : List JpegComponent} {component : JpegComponent}
    (hfresh : ∀ other ∈ done, other.id ≠ component.id) (tables : Nat) :
    setTables component.id tables (done ++ component :: rest) =
      some (done ++
        { component with dcTable := tables / 16, acTable := tables % 16 } :: rest) := by
  induction done with
  | nil => rw [List.nil_append, setTables, if_pos rfl]; rfl
  | cons other done ih =>
    rw [List.cons_append, setTables, if_neg (hfresh other List.mem_cons_self),
      ih fun next hmem => hfresh next (List.mem_cons_of_mem _ hmem)]
    rfl

/-- A component before its tables are set. -/
def JpegFile.bareComponent (file : JpegFile) (component : FileComponent) : JpegComponent :=
  { file.component component with dcTable := 0, acTable := 0 }

theorem length_pairs (components : List FileComponent) :
    (components.flatMap fun component =>
      [component.id, 16 * component.dcTable + component.acTable]).length =
        2 * components.length := by
  induction components with
  | nil => rfl
  | cons component components ih =>
    rw [List.flatMap_cons, List.length_append, ih, List.length_cons]
    simp only [List.length_cons, List.length_nil]
    omega

end Headers

/-! ## The tables -/

section Tables

theorem apply_withFrame (file : JpegFile) (decoder : JpegDecoder) (segment : JpegSegment) :
    segment.apply (file.withFrame decoder) = file.withFrame (segment.apply decoder) := by
  cases segment with
  | quant tables =>
    unfold JpegSegment.apply
    induction tables generalizing decoder with
    | nil => rfl
    | cons table tables ih => exact ih (QuantTable.apply decoder table)
  | huffman tables =>
    unfold JpegSegment.apply
    induction tables generalizing decoder with
    | nil => rfl
    | cons table tables ih => exact ih (HuffmanTable.apply decoder table)
  | restart interval => rfl
  | other marker payload => rfl

/-- The frame does not get in the way of the segments behind it. -/
theorem foldl_withFrame (file : JpegFile) (segments : List JpegSegment) (decoder : JpegDecoder) :
    segments.foldl JpegSegment.apply (file.withFrame decoder) =
      file.withFrame (segments.foldl JpegSegment.apply decoder) := by
  induction segments generalizing decoder with
  | nil => rfl
  | cons segment segments ih => rw [List.foldl_cons, apply_withFrame, ih, List.foldl_cons]

theorem huffman_foldl_tables (tables : List HuffmanTable) (decoder : JpegDecoder) (index : Nat) :
    (tables.foldl HuffmanTable.apply decoder).huffman index =
      ((tables.reverse.find? fun table => table.id * 2 + table.isAc = index).map
        fun table => table.spec.table).or (decoder.huffman index) := by
  induction tables using List.reverseRecOn with
  | nil => rfl
  | append_singleton tables table ih =>
    rw [List.foldl_append, List.reverse_append, List.reverse_singleton, List.singleton_append,
      List.find?_cons, List.foldl_cons, List.foldl_nil, HuffmanTable.apply]
    by_cases hindex : table.id * 2 + table.isAc = index
    · simp [hindex]
    · simp only [Function.update_of_ne (Ne.symm hindex), ih, decide_eq_false hindex]

theorem huffman_foldl_quant (tables : List QuantTable) (decoder : JpegDecoder) :
    (tables.foldl QuantTable.apply decoder).huffman = decoder.huffman := by
  induction tables generalizing decoder with
  | nil => rfl
  | cons table tables ih => rw [List.foldl_cons, ih]; rfl

theorem huffman_segments (segments : List JpegSegment) (index : Nat) :
    (segments.foldl JpegSegment.apply emptyDecoder).huffman index =
      (((segments.flatMap fun segment =>
        match segment with
        | .huffman tables => tables
        | _ => []).reverse.find? fun table => table.id * 2 + table.isAc = index).map
          fun table => table.spec.table) := by
  induction segments using List.reverseRecOn with
  | nil => rfl
  | append_singleton segments segment ih =>
    rw [List.foldl_append, List.foldl_cons, List.foldl_nil, List.flatMap_append,
      List.flatMap_singleton, List.reverse_append, List.find?_append, Option.map_or, ← ih]
    cases segment with
    | quant tables => exact congrFun (huffman_foldl_quant tables _) index
    | huffman tables => exact huffman_foldl_tables tables _ index
    | restart interval => rfl
    | other marker payload => rfl

theorem tablesOf_file {file : JpegFile} (valid : file.Valid) :
    TablesOf file.decoder file.content where
  valid := by
    intro index spec h
    obtain ⟨table, htable, rfl⟩ := Option.map_eq_some_iff.1 h
    have hmem := List.mem_reverse.1 (List.mem_of_find?_eq_some htable)
    obtain ⟨segment, hsegment, hmem⟩ := List.mem_flatMap.1 hmem
    have hcontent := (valid.segments segment hsegment).content
    cases segment with
    | huffman tables => exact (hcontent table hmem).spec
    | quant tables => cases hmem
    | restart interval => cases hmem
    | other marker payload => cases hmem
  table := by
    intro index spec h
    obtain ⟨table, htable, rfl⟩ := Option.map_eq_some_iff.1 h
    refine (huffman_segments file.segments index).trans ?_
    rw [htable]
    rfl

theorem le_maxFactor {factor : FrameComponent → Nat} {components : List FrameComponent}
    {component : FrameComponent} (hmem : component ∈ components) :
    factor component ≤ maxFactor factor components := by
  unfold maxFactor
  have hle : ∀ (l : List FrameComponent) (start : Nat),
      start ≤ l.foldl (fun maximum component => max maximum (factor component)) start ∧
        ∀ other ∈ l, factor other ≤
          l.foldl (fun maximum component => max maximum (factor component)) start := by
    intro l
    induction l with
    | nil => exact fun start => ⟨le_rfl, fun _ h => absurd h List.not_mem_nil⟩
    | cons first rest ih =>
      intro start
      obtain ⟨hstart, hrest⟩ := ih (max start (factor first))
      refine ⟨(le_max_left _ _).trans hstart, ?_⟩
      intro other hother
      rcases List.mem_cons.1 hother with rfl | hother
      · exact (le_max_right _ _).trans hstart
      · exact hrest other hother
  exact (hle components 1).2 component hmem

theorem frameSizes_file {file : JpegFile} (valid : file.Valid) : FrameSizes file.decoder where
  factors := by
    intro component hmem
    obtain ⟨origin, horigin, rfl⟩ := List.mem_map.1 hmem
    obtain ⟨hpos, -, vpos, -⟩ := valid.factors origin horigin
    have hmem := List.mem_map_of_mem (f := FileComponent.toFrameComponent) horigin
    exact ⟨hpos, @le_maxFactor FrameComponent.hFactor _ _ hmem, vpos,
      @le_maxFactor FrameComponent.vFactor _ _ hmem⟩
  blocksW := by
    intro component hmem
    obtain ⟨origin, _, rfl⟩ := List.mem_map.1 hmem
    rfl
  blocksH := by
    intro component hmem
    obtain ⟨origin, _, rfl⟩ := List.mem_map.1 hmem
    rfl

end Tables

/-! ## What is decoded -/

/-- The luma blocks are within `JPEG_DC_MAX_BLOCKS_X` and `JPEG_DC_MAX_BLOCKS_Y`. -/
def JpegFile.Fits (file : JpegFile) (luma : FileComponent) : Prop :=
  (file.component luma).blocksW ≤ JPEG_DC_MAX_BLOCKS_X ∧
    (file.component luma).blocksH ≤ JPEG_DC_MAX_BLOCKS_Y

instance (file : JpegFile) (luma : FileComponent) : Decidable (file.Fits luma) :=
  inferInstanceAs (Decidable (_ ∧ _))

/-- The decoder gives the mean of every luma block, with the DC step of the table that the file
    defines. -/
def JpegFile.DecodedTo (file : JpegFile) (luma : FileComponent) (image : JpegDcImage) : Prop :=
  image.complete = true ∧ image.blocksW = (file.component luma).blocksW ∧
    image.blocksH = (file.component luma).blocksH ∧
    ∀ row < (file.component luma).blocksH, ∀ column < (file.component luma).blocksW,
      image.mean row column =
        meanOf (file.blocks 0 row column).dc (file.decoder.quant luma.quantId)

end SysAgent
