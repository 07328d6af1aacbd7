import Mathlib
import SysAgent.Jpeg.File
import SysAgent.Lib.Checked

set_option autoImplicit false

/-! # The decoder (`jpeg_dc.c`)

It reads the file at a position. What its C code can get wrong is part of it: the tables and the
components have their numbers of elements, the signed numbers 32 bits and a loop as many rounds as
there are bytes. `throw` is `return false`. -/

namespace SysAgent.JpegWalker

open Checked MsbBits

abbrev Walk (α : Type) := Checked Unit α

def Int32 (x : Int) : Prop := -2 ^ 31 ≤ x ∧ x < 2 ^ 31

instance (x : Int) : Decidable (Int32 x) := inferInstanceAs (Decidable (_ ∧ _))

def int32 (x : Int) : Walk Int := do
  require (Int32 x)
  pure x

/-- `1 << count` of an `int`. -/
def shiftOne (count : Nat) : Walk Int := do
  require (count < 32)
  int32 (2 ^ count)

section Headers

variable (data : List Nat)

/-! ## Marker walking -/

def jpegReadU8 (pos : Nat) : Walk (Nat × Nat) :=
  if data.length ≤ pos then throw ()
  else do
    let byte ← access data pos
    pure (byte, pos + 1)

def jpegReadU16 (pos : Nat) : Walk (Nat × Nat) :=
  if data.length ≤ pos + 1 then throw ()
  else do
    let high ← access data pos
    let low ← access data (pos + 1)
    pure (high * 256 + low, pos + 2)

/-- The loop of `jpegNextMarker`. -/
def jpegNextMarkerFrom : Nat → Nat → Walk (Nat × Nat)
  | 0, _ => fault
  | rounds + 1, pos =>
    if pos + 1 < data.length then do
      let byte ← access data pos
      if byte ≠ 0xFF then jpegNextMarkerFrom rounds (pos + 1)
      else
        let marker ← access data (pos + 1)
        if marker = 0xFF then jpegNextMarkerFrom rounds (pos + 1)
        else if marker = 0x00 then jpegNextMarkerFrom rounds (pos + 2)
        else pure (marker, pos + 2)
    else throw ()

def jpegNextMarker (pos : Nat) : Walk (Nat × Nat) := jpegNextMarkerFrom data (data.length + 1) pos

/-- A loop that reads elements of an array of `max`, from an index on. -/
def readMany {α : Type} (read : Nat → Walk (α × Nat)) (max : Nat) :
    Nat → Nat → Nat → Walk (List α × Nat)
  | 0, _, pos => pure ([], pos)
  | count + 1, index, pos => do
    require (index < max)
    let (value, pos) ← read pos
    let (values, pos) ← readMany read max count (index + 1) pos
    pure (value :: values, pos)

/-- `while (decoder->pos < end)`, with the check behind it. -/
def parseTables (parseTable : JpegDecoder → Nat → Walk (JpegDecoder × Nat)) (finish : Nat) :
    Nat → JpegDecoder → Nat → Walk (JpegDecoder × Nat)
  | 0, _, _ => fault
  | rounds + 1, decoder, pos =>
    if pos < finish then do
      let (decoder, pos) ← parseTable decoder pos
      parseTables parseTable finish rounds decoder pos
    else if pos = finish then pure (decoder, pos)
    else throw ()

/-- One table of `jpegParseQuant`. -/
def parseQuantTable (decoder : JpegDecoder) (pos : Nat) : Walk (JpegDecoder × Nat) := do
  let (spec, pos) ← jpegReadU8 data pos
  if 3 < spec % 16 ∨ 1 < spec / 16 then throw ()
  else
    require (spec % 16 < 4)
    let (values, pos) ←
      readMany (if spec / 16 = 0 then jpegReadU8 data else jpegReadU16 data) 64 64 0 pos
    pure ({ decoder with quant := Function.update decoder.quant (spec % 16) (values.headD 0) },
      pos)

/-- One table of `jpegParseHuffman`; `counts` has an element 0 too. -/
def parseHuffmanTable (decoder : JpegDecoder) (pos : Nat) : Walk (JpegDecoder × Nat) := do
  let (spec, pos) ← jpegReadU8 data pos
  if 3 < spec % 16 ∨ 1 < spec / 16 then throw ()
  else
    require (spec % 16 * 2 + spec / 16 < 8)
    let (counts, pos) ← readMany (jpegReadU8 data) 17 16 1 pos
    if 256 < counts.sum then throw ()
    else
      let (symbols, pos) ← readMany (jpegReadU8 data) 256 counts.sum 0 pos
      pure ({ decoder with
        huffman := Function.update decoder.huffman (spec % 16 * 2 + spec / 16)
          (some (HuffmanSpec.table { counts, symbols })) }, pos)

def readComponent (pos : Nat) : Walk (FrameComponent × Nat) := do
  let (id, pos) ← jpegReadU8 data pos
  let (sampling, pos) ← jpegReadU8 data pos
  let (quantId, pos) ← jpegReadU8 data pos
  if sampling / 16 = 0 ∨ 4 < sampling / 16 ∨ sampling % 16 = 0 ∨ 4 < sampling % 16 then throw ()
  else pure ({ id, hFactor := sampling / 16, vFactor := sampling % 16, quantId }, pos)

def jpegParseFrame (decoder : JpegDecoder) (length marker pos : Nat) :
    Walk (JpegDecoder × Nat) :=
  if marker ≠ 0xC0 then throw ()
  else do
    let (precision, pos) ← jpegReadU8 data pos
    if precision ≠ 8 then throw ()
    else
      let (height, pos) ← jpegReadU16 data pos
      let (width, pos) ← jpegReadU16 data pos
      let (count, pos) ← jpegReadU8 data pos
      if count = 0 ∨ 4 < count ∨ length ≠ 8 + 3 * count then throw ()
      else
        let (components, pos) ← readMany (readComponent data) 4 count 0 pos
        if 0 < width ∧ 0 < height then
          pure ({ decoder with
            components := frameComponents width height components
            maxHFactor := maxFactor FrameComponent.hFactor components
            maxVFactor := maxFactor FrameComponent.vFactor components
            width, height }, pos)
        else throw ()

def parseScanComponents :
    Nat → List JpegComponent → Nat → Walk (List JpegComponent × Nat)
  | 0, components, pos => pure (components, pos)
  | count + 1, components, pos => do
    let (id, pos) ← jpegReadU8 data pos
    let (tables, pos) ← jpegReadU8 data pos
    -- the search looks at no component behind the last one
    require (components.length ≤ 4)
    match setTables id tables components with
    | none => throw ()
    | some components => parseScanComponents count components pos

def jpegParseScan (decoder : JpegDecoder) (length pos : Nat) : Walk JpegDecoder := do
  let (count, pos) ← jpegReadU8 data pos
  if count = 0 ∨ decoder.components.length < count ∨ length ≠ 6 + 2 * count then throw ()
  else
    let (components, pos) ← parseScanComponents data count decoder.components pos
    let (selection, _) ← readMany (jpegReadU8 data) 3 3 0 pos
    if selection = [0, 63, 0] then pure { decoder with components } else throw ()

/-- The `switch` over the markers. -/
def parseSegment (marker length : Nat) (decoder : JpegDecoder) (pos : Nat) :
    Walk (JpegDecoder × Nat) :=
  if marker ∈ frameMarkers then jpegParseFrame data decoder length marker pos
  else if marker = 0xC4 then
    parseTables (parseHuffmanTable data) (pos + (length - 2)) (length - 1) decoder pos
  else if marker = 0xDB then
    parseTables (parseQuantTable data) (pos + (length - 2)) (length - 1) decoder pos
  else if marker = 0xDD then
    if length - 2 ≠ 2 then throw ()
    else do
      let (restartInterval, pos) ← jpegReadU16 data pos
      pure ({ decoder with restartInterval }, pos)
  else pure (decoder, pos + (length - 2))

/-- The marker loop up to the scan: the decoder and where the scan starts. -/
def markerLoop : Nat → Bool → JpegDecoder → Nat → Walk (JpegDecoder × Nat)
  | 0, _, _, _ => fault
  | rounds + 1, sawFrame, decoder, pos => do
    let (marker, pos) ← jpegNextMarker data pos
    if marker = 0xD9 then throw ()
    else
      let (length, pos) ← jpegReadU16 data pos
      if length < 2 ∨ data.length < pos + (length - 2) then throw ()
      else if marker = 0xDA then
        if sawFrame then
          let decoder ← jpegParseScan data decoder length pos
          pure (decoder, pos + (length - 2))
        else throw ()
      else
        let (decoder, pos) ← parseSegment data marker length decoder pos
        markerLoop rounds (sawFrame || decide (marker ∈ frameMarkers)) decoder pos

/-- `jpegDcDecode` up to the scan. -/
def jpegReadHeaders : Walk (JpegDecoder × Nat) :=
  if data.length < 4 then throw ()
  else do
    let first ← access data 0
    let second ← access data 1
    if first = 0xFF ∧ second = 0xD8 then markerLoop data data.length false emptyDecoder 2
    else throw ()

end Headers

/-! ## Entropy decoding -/

/-- There are never more bits in the buffer than a byte has. -/
structure ScanReader where
  scanPos : Nat
  bitBuffer : Nat
  bitCount : Nat
  bounded : bitCount ≤ 8

section Scan

variable (data : List Nat)

/-- The reader with the rest of the file. -/
def ScanReader.rest (reader : ScanReader) : BitReader where
  scan := data.drop reader.scanPos
  bitBuffer := reader.bitBuffer
  bitCount := reader.bitCount

def jpegReadBit (reader : ScanReader) : Walk (Bool × ScanReader) :=
  match hcount : reader.bitCount with
  | count + 1 => do
    require (count < 32)
    pure (reader.bitBuffer.testBit count,
      { reader with bitCount := count, bounded := by have := reader.bounded; omega })
  | 0 =>
    if data.length ≤ reader.scanPos then throw ()
    else do
      let byte ← access data reader.scanPos
      if byte = 0xFF then
        if data.length ≤ reader.scanPos + 1 then throw ()
        else
          let next ← access data (reader.scanPos + 1)
          if next = 0x00 then
            pure (byte.testBit 7, ⟨reader.scanPos + 2, byte, 7, by omega⟩)
          else throw ()
      else pure (byte.testBit 7, ⟨reader.scanPos + 1, byte, 7, by omega⟩)

/-- The loop of `jpegReadBits`: `value << 1` stays an `int`. -/
def readBitsFrom (value : Nat) : Nat → ScanReader → Walk (Nat × ScanReader)
  | 0, reader => pure (value, reader)
  | count + 1, reader => do
    let (bit, reader) ← jpegReadBit data reader
    require (2 * value < 2 ^ 31)
    readBitsFrom (push value bit) count reader

def jpegReadBits (count : Nat) (reader : ScanReader) : Walk (Nat × ScanReader) :=
  readBitsFrom data 0 count reader

/-- The loop of `jpegDecodeHuffman`, with the code so far. -/
def decodeLevels (symbols : List Nat) :
    List HuffmanLevel → Int → ScanReader → Walk (Nat × ScanReader)
  | [], _, _ => throw ()
  | level :: levels, code, reader => do
    let (bit, reader) ← jpegReadBit data reader
    let code ← int32 (2 * code + bit.toNat)
    if 0 ≤ level.maxCode ∧ code ≤ level.maxCode then
      let index := level.valPtr + (code - level.minCode)
      if index < 0 ∨ 256 ≤ index then throw ()
      else
        require (index.toNat < 256)
        pure (symbols.getD index.toNat 0, reader)
    else decodeLevels symbols levels code reader

def jpegDecodeHuffman (table : Option JpegHuffman) (reader : ScanReader) :
    Walk (Nat × ScanReader) :=
  match table with
  | none => throw ()
  | some table => decodeLevels data table.symbols table.levels 0 reader

def jpegExtend (value : Int) (bits : Nat) : Walk Int :=
  if bits = 0 then pure 0
  else do
    let half ← shiftOne (bits - 1)
    if value < half then
      let whole ← shiftOne bits
      int32 (value - whole + 1)
    else pure value

/-- The difference of a block to the prediction. -/
def decodeDifference (table : Option JpegHuffman) (reader : ScanReader) :
    Walk (Int × ScanReader) := do
  let (symbol, reader) ← jpegDecodeHuffman data table reader
  if 0 < symbol then
    let (bits, reader) ← jpegReadBits data symbol reader
    let difference ← jpegExtend bits symbol
    pure (difference, reader)
  else pure (0, reader)

/-- `while (coefficient < 64)`. -/
def skipAc (table : Option JpegHuffman) : Nat → Nat → ScanReader → Walk ScanReader
  | 0, coefficient, reader => if coefficient < 64 then fault else pure reader
  | rounds + 1, coefficient, reader =>
    if coefficient < 64 then do
      let (ac, reader) ← jpegDecodeHuffman data table reader
      if ac % 16 = 0 then
        if ac / 16 ≠ 15 then pure reader
        else skipAc table rounds (coefficient + 16) reader
      else
        let (_, reader) ← jpegReadBits data (ac % 16) reader
        skipAc table rounds (coefficient + (ac / 16 + 1)) reader
    else pure reader

/-! ## The scan -/

/-- The variables of the walk; the predictions are those of the components. -/
structure WalkState where
  reader : ScanReader
  prediction : Nat → Int
  mean : Nat → Nat → Nat
  mcusSinceRestart : Nat

variable (decoder : JpegDecoder)

/-- The block is one of the luma blocks of the image. -/
def Stored (block : ScanBlock) : Prop :=
  block.index = 0 ∧ block.column < decoder.lumaBlocksW ∧ block.row < decoder.lumaBlocksH

instance (block : ScanBlock) : Decidable (Stored decoder block) :=
  inferInstanceAs (Decidable (_ ∧ _))

def storeMean (block : ScanBlock) (dc : Int) (mean : Nat → Nat → Nat) :
    Walk (Nat → Nat → Nat) :=
  if Stored decoder block then do
    require (block.component.quantId < 4)
    let _ ← int32 (dc * decoder.quant block.component.quantId)
    require (block.row < JPEG_DC_MAX_BLOCKS_Y ∧ block.column < JPEG_DC_MAX_BLOCKS_X)
    pure fun row column =>
      if row = block.row ∧ column = block.column then
        meanOf dc (decoder.quant block.component.quantId)
      else mean row column
  else pure mean

/-- The two tables are those of the component; it has at least one block. -/
def decodeBlock (s : WalkState) (block : ScanBlock) : Walk WalkState := do
  require (block.index < 4)
  require (block.component.dcTable * 2 < 8)
  require (block.component.acTable * 2 + 1 < 8)
  let (difference, reader) ←
    decodeDifference data (decoder.huffman (block.component.dcTable * 2)) s.reader
  let dc ← int32 (s.prediction block.index + difference)
  let mean ← storeMean decoder block dc s.mean
  let reader ← skipAc data (decoder.huffman (block.component.acTable * 2 + 1)) 63 1 reader
  pure { s with reader, mean, prediction := Function.update s.prediction block.index dc }

/-- The restart marker is byte-aligned and resets the predictors. -/
def restart (s : WalkState) : Walk WalkState :=
  if data.length ≤ s.reader.scanPos + 1 then throw ()
  else do
    let first ← access data s.reader.scanPos
    let second ← access data (s.reader.scanPos + 1)
    if first = 0xFF ∧ second &&& 0xF8 = 0xD0 then
      pure { s with
        reader := { s.reader with
          scanPos := s.reader.scanPos + 2, bitCount := 0, bounded := by omega }
        prediction := fun _ => 0
        mcusSinceRestart := 0 }
    else throw ()

/-- What happens before the blocks of an MCU. -/
def enterMcu (s : WalkState) : Walk WalkState :=
  if 0 < decoder.restartInterval ∧ s.mcusSinceRestart = decoder.restartInterval then
    restart data s
  else pure s

def decodeMcu (s : WalkState) (mcu : List ScanBlock) : Walk WalkState := do
  let s ← enterMcu data decoder s
  let s ← mcu.foldlM (decodeBlock data decoder) s
  pure { s with mcusSinceRestart := s.mcusSinceRestart + 1 }

/-- The variables of the walk before its first MCU. -/
def WalkState.start (scanPos : Nat) : WalkState where
  reader := { scanPos, bitBuffer := 0, bitCount := 0, bounded := by omega }
  prediction _ := 0
  mean _ _ := 0
  mcusSinceRestart := 0

def jpegDecodeScan (scanPos : Nat) : Walk JpegDcImage :=
  if JPEG_DC_MAX_BLOCKS_X < decoder.lumaBlocksW ∨ JPEG_DC_MAX_BLOCKS_Y < decoder.lumaBlocksH then
    throw ()
  else do
    let s ← decoder.mcus.foldlM (decodeMcu data decoder) (WalkState.start scanPos)
    pure { blocksW := decoder.lumaBlocksW, blocksH := decoder.lumaBlocksH, complete := true
           mean := s.mean }

def jpegDcDecode : Walk JpegDcImage := do
  let (decoder, scanPos) ← jpegReadHeaders data
  jpegDecodeScan data decoder scanPos

end Scan

end SysAgent.JpegWalker
