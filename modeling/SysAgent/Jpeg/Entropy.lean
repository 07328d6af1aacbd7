import Mathlib
import SysAgent.Lib.MsbBits

set_option autoImplicit false

/-! # Entropy decoding (`jpeg_dc.c`)

The bit reader takes a byte of the scan at a time and drops the zero byte that is stuffed after
`0xFF`. `BitReader.Holds` says which bits the reader has still to deliver before the bytes of the
next marker; every decoding step takes the bits of what was encoded off its front. The numbers here
have no bounds: the walker has the `int`s of the code and follows these functions as long as it does
nothing undefined. -/

namespace SysAgent

open MsbBits

/-! ## The bit reader -/

/-- `scan` is the rest of the scan from `scanPos` on. -/
structure BitReader where
  scan : List Nat
  bitBuffer : Nat
  bitCount : Nat

def jpegReadBit (reader : BitReader) : Option (Bool × BitReader) :=
  match reader.bitCount with
  | count + 1 => some (reader.bitBuffer.testBit count, { reader with bitCount := count })
  | 0 =>
    match reader.scan with
    | [] => none
    | byte :: rest =>
      if byte = 0xFF then
        match rest with
        | 0x00 :: rest => some (byte.testBit 7, ⟨rest, byte, 7⟩)
        | _ => none
      else some (byte.testBit 7, ⟨rest, byte, 7⟩)

/-- The loop of `jpegReadBits`, with the value so far. -/
def readBitsFrom (value : Nat) : Nat → BitReader → Option (Nat × BitReader)
  | 0, reader => some (value, reader)
  | count + 1, reader =>
    (jpegReadBit reader).bind fun (bit, reader) => readBitsFrom (push value bit) count reader

def jpegReadBits (count : Nat) (reader : BitReader) : Option (Nat × BitReader) :=
  readBitsFrom 0 count reader

/-- A zero byte is stuffed after each `0xFF`. -/
def stuff (bytes : List Nat) : List Nat :=
  bytes.flatMap fun byte => if byte = 0xFF then [0xFF, 0x00] else [byte]

/-- The reader delivers the bits and is then before the rest. -/
def BitReader.Holds (reader : BitReader) (bits : List Bool) (tail : List Nat) : Prop :=
  ∃ bytes, reader.scan = stuff bytes ++ tail ∧
    bitsOf reader.bitCount reader.bitBuffer ++ bytes.flatMap (bitsOf 8) = bits

theorem BitReader.Holds.scan_of_padding {reader : BitReader} {padding : List Bool}
    {tail : List Nat} (h : reader.Holds padding tail) (hpadding : padding.length < 8) :
    reader.scan = tail := by
  obtain ⟨bytes, hscan, hbits⟩ := h
  cases bytes with
  | nil => exact hscan
  | cons byte bytes =>
    have hlength := congrArg List.length hbits
    rw [List.length_append, List.flatMap_cons, List.length_append, length_bitsOf,
      length_bitsOf] at hlength
    omega

section Reader

variable {reader : BitReader} {bits : List Bool} {tail : List Nat}

theorem jpegReadBit_spec {bit : Bool} (h : reader.Holds (bit :: bits) tail) :
    ∃ reader', jpegReadBit reader = some (bit, reader') ∧ reader'.Holds bits tail := by
  obtain ⟨bytes, hscan, hbits⟩ := h
  obtain ⟨scan, buffer, count⟩ := reader
  cases count with
  | succ count =>
    rw [bitsOf, List.cons_append, List.cons.injEq] at hbits
    obtain ⟨rfl, hbits⟩ := hbits
    exact ⟨⟨scan, buffer, count⟩, rfl, bytes, hscan, hbits⟩
  | zero =>
    cases bytes with
    | nil => cases hbits
    | cons byte bytes =>
      rw [bitsOf, List.nil_append, List.flatMap_cons, bitsOf, List.cons_append,
        List.cons.injEq] at hbits
      have hscan : scan =
          (if byte = 0xFF then [0xFF, 0x00] else [byte]) ++ (stuff bytes ++ tail) := by
        refine hscan.trans ?_
        rw [stuff, List.flatMap_cons, List.append_assoc]
        rfl
      refine ⟨⟨stuff bytes ++ tail, byte, 7⟩, ?_, bytes, rfl, hbits.2⟩
      subst hscan
      by_cases hstuffed : byte = 0xFF
      · subst hstuffed
        rw [← hbits.1]
        rfl
      · rw [if_neg hstuffed, ← hbits.1]
        simp [jpegReadBit, hstuffed]

theorem readBitsFrom_spec (value : Nat) {read : List Bool}
    (h : reader.Holds (read ++ bits) tail) :
    ∃ reader', readBitsFrom value read.length reader = some (read.foldl push value, reader') ∧
      reader'.Holds bits tail := by
  induction read generalizing value reader with
  | nil => exact ⟨reader, rfl, h⟩
  | cons bit read ih =>
    obtain ⟨reader', hbit, hholds⟩ := jpegReadBit_spec h
    obtain ⟨reader'', hread, hholds⟩ := ih (push value bit) hholds
    refine ⟨reader'', ?_, hholds⟩
    rw [List.length_cons, readBitsFrom, hbit, Option.bind_some]
    exact hread

theorem jpegReadBits_spec {count value : Nat} (hvalue : value < 2 ^ count)
    (h : reader.Holds (bitsOf count value ++ bits) tail) :
    ∃ reader', jpegReadBits count reader = some (value, reader') ∧ reader'.Holds bits tail := by
  obtain ⟨reader', hread, hholds⟩ := readBitsFrom_spec 0 h
  rw [length_bitsOf] at hread
  refine ⟨reader', ?_, hholds⟩
  rw [jpegReadBits, hread, ← ofBits, ofBits_bitsOf hvalue]

end Reader

/-! ## Huffman codes -/

/-- The entries of `minCode`, `maxCode` and `valPtr` for one length. -/
structure HuffmanLevel where
  minCode : Int
  maxCode : Int
  valPtr : Int

structure JpegHuffman where
  symbols : List Nat
  levels : List HuffmanLevel

/-- The canonical code assignment of `jpegParseHuffman`, from one length on. -/
def canonicalLevels : List Nat → Int → Int → List HuffmanLevel
  | [], _, _ => []
  | count :: counts, code, index =>
    (if count ≠ 0 then ⟨code, code + count - 1, index⟩ else ⟨-1, -1, -1⟩) ::
      canonicalLevels counts (2 * (code + count)) (index + count)

/-- The loop of `jpegDecodeHuffman`, with the code so far. -/
def decodeLevels (symbols : List Nat) :
    List HuffmanLevel → Int → BitReader → Option (Nat × BitReader)
  | [], _, _ => none
  | level :: levels, code, reader =>
    (jpegReadBit reader).bind fun (bit, reader) =>
      let code := 2 * code + bit.toNat
      if 0 ≤ level.maxCode ∧ code ≤ level.maxCode then
        let index := level.valPtr + (code - level.minCode)
        if index < 0 ∨ 256 ≤ index then none else some (symbols.getD index.toNat 0, reader)
      else decodeLevels symbols levels code reader

def jpegDecodeHuffman (table : Option JpegHuffman) (reader : BitReader) :
    Option (Nat × BitReader) :=
  table.bind fun table => decodeLevels table.symbols table.levels 0 reader

/-- A table of the file: the number of codes of each length and the symbols in the order of their
    codes. -/
structure HuffmanSpec where
  counts : List Nat
  symbols : List Nat

/-- What `jpegParseHuffman` makes of it. -/
def HuffmanSpec.table (spec : HuffmanSpec) : JpegHuffman where
  symbols := spec.symbols
  levels := canonicalLevels spec.counts 0 0

/-- The length and the code of the symbol at an index: the codes of a length are consecutive, and
    the first of the next length is twice the next one. -/
def canonicalCode : List Nat → Nat → Nat → Nat → Option (Nat × Nat)
  | [], _, _, _ => none
  | count :: counts, code, length, index =>
    if index < count then some (length, code + index)
    else canonicalCode counts (2 * (code + count)) (length + 1) (index - count)

/-- The codes of each length fit into it. -/
def CodesFit : List Nat → Nat → Nat → Prop
  | [], _, _ => True
  | count :: counts, code, length =>
    code + count ≤ 2 ^ length ∧ CodesFit counts (2 * (code + count)) (length + 1)

instance decidableCodesFit : ∀ counts code length, Decidable (CodesFit counts code length)
  | [], _, _ => isTrue trivial
  | _ :: counts, _, _ => @instDecidableAnd _ _ _ (decidableCodesFit counts _ _)

structure HuffmanSpec.Valid (spec : HuffmanSpec) : Prop where
  lengths : spec.counts.length = 16
  total : spec.symbols.length = spec.counts.sum
  size : spec.symbols.length ≤ 256
  fit : CodesFit spec.counts 0 1

instance (spec : HuffmanSpec) : Decidable spec.Valid :=
  decidable_of_iff (spec.counts.length = 16 ∧ spec.symbols.length = spec.counts.sum ∧
    spec.symbols.length ≤ 256 ∧ CodesFit spec.counts 0 1)
    ⟨fun ⟨lengths, total, size, fit⟩ => ⟨lengths, total, size, fit⟩,
      fun valid => ⟨valid.lengths, valid.total, valid.size, valid.fit⟩⟩

/-- The code of a symbol. -/
def HuffmanSpec.codeBits (spec : HuffmanSpec) (symbol : Nat) : Option (List Bool) :=
  if symbol ∈ spec.symbols then
    (canonicalCode spec.counts 0 1 (spec.symbols.idxOf symbol)).map fun (length, code) =>
      bitsOf length code
  else none

theorem canonicalCode_le {counts : List Nat} {code length index size value : Nat}
    (h : canonicalCode counts code length index = some (size, value)) :
    length ≤ size ∧ code * 2 ^ (size - length) ≤ value := by
  induction counts generalizing code length index with
  | nil => cases h
  | cons count counts ih =>
    rw [canonicalCode] at h
    split_ifs at h with hindex
    · cases h
      rw [Nat.sub_self, pow_zero]
      omega
    · obtain ⟨hlength, hvalue⟩ := ih h
      refine ⟨by omega, ?_⟩
      have hpow : 2 ^ (size - length) = 2 * 2 ^ (size - (length + 1)) := by
        rw [← pow_succ']
        congr 1
        omega
      rw [hpow]
      calc code * (2 * 2 ^ (size - (length + 1)))
          = 2 * code * 2 ^ (size - (length + 1)) := by ring
        _ ≤ 2 * (code + count) * 2 ^ (size - (length + 1)) := by gcongr; omega
        _ ≤ value := hvalue

theorem canonicalCode_lt {counts : List Nat} {code length index size value : Nat}
    (hfit : CodesFit counts code length)
    (h : canonicalCode counts code length index = some (size, value)) : value < 2 ^ size := by
  induction counts generalizing code length index with
  | nil => cases h
  | cons count counts ih =>
    rw [canonicalCode] at h
    split_ifs at h with hindex
    · cases h
      have hle := hfit.1
      omega
    · exact ih hfit.2 h

section Huffman

variable {reader : BitReader} {bits : List Bool} {tail : List Nat}

/-- The walk over the lengths finds the code at its length, with the bits of the shorter lengths
    read. -/
theorem decodeLevels_spec {symbols counts : List Nat}
    {code length index first size value : Nat}
    (hcode : canonicalCode counts code length index = some (size, value))
    (hindex : first + index < 256)
    (h : reader.Holds (bitsOf (size + 1 - length) value ++ bits) tail) :
    ∃ reader', decodeLevels symbols (canonicalLevels counts code first)
        ((value / 2 ^ (size + 1 - length) : Nat) : Int) reader =
          some (symbols.getD (first + index) 0, reader') ∧ reader'.Holds bits tail := by
  induction counts generalizing code length index first reader with
  | nil => cases hcode
  | cons count counts ih =>
    obtain ⟨hlength, -⟩ := canonicalCode_le hcode
    have hsize : size + 1 - length = size - length + 1 := by omega
    rw [hsize, bitsOf, List.cons_append] at h
    obtain ⟨reader', hbit, hholds⟩ := jpegReadBit_spec h
    have hpushed : 2 * ((value / 2 ^ (size - length + 1) : Nat) : Int) +
        ((value.testBit (size - length)).toNat : Int) =
          ((value / 2 ^ (size - length) : Nat) : Int) := by
      rw [div_two_pow value (size - length), push]
      push_cast
      rfl
    rw [canonicalLevels, decodeLevels, hsize, hbit, Option.bind_some]
    simp only [hpushed]
    rw [canonicalCode] at hcode
    split_ifs at hcode with hhere
    · -- the code is of this length
      cases hcode
      rw [Nat.sub_self, bitsOf, List.nil_append] at hholds
      have hcount : count ≠ 0 := by omega
      refine ⟨reader', ?_, hholds⟩
      simp only [hcount, ne_eq, not_false_eq_true, if_true, Nat.sub_self, pow_zero, Nat.div_one]
      rw [if_pos (by push_cast; omega), if_neg (by push_cast; omega)]
      congr 3
      push_cast
      omega
    · -- it is longer, and its front is past the codes of this length
      obtain ⟨hlonger, hle⟩ := canonicalCode_le hcode
      have hpast : code + count ≤ value / 2 ^ (size - length) := by
        rw [Nat.le_div_iff_mul_le (by positivity)]
        have hpow : 2 ^ (size - length) = 2 * 2 ^ (size - (length + 1)) := by
          rw [← pow_succ']
          congr 1
          omega
        rw [hpow]
        calc (code + count) * (2 * 2 ^ (size - (length + 1)))
            = 2 * (code + count) * 2 ^ (size - (length + 1)) := by ring
          _ ≤ value := hle
      have hnot : ¬ (0 ≤ (if count ≠ 0 then (⟨code, code + count - 1, first⟩ : HuffmanLevel)
          else ⟨-1, -1, -1⟩).maxCode ∧ ((value / 2 ^ (size - length) : Nat) : Int) ≤
            (if count ≠ 0 then (⟨code, code + count - 1, first⟩ : HuffmanLevel)
              else ⟨-1, -1, -1⟩).maxCode) := by
        split_ifs
        · simp only
          omega
        · simp
      rw [if_neg hnot]
      have hdrop : size - length = size + 1 - (length + 1) := by omega
      rw [hdrop] at hholds ⊢
      have hwithin : first + count + (index - count) < 256 := by omega
      have hnext := ih hcode hwithin hholds
      have hfirst : first + count + (index - count) = first + index := by omega
      rw [hfirst] at hnext
      simpa only [Nat.cast_mul, Nat.cast_add, Nat.cast_ofNat] using hnext

/-- Decoding inverts the code. -/
theorem jpegDecodeHuffman_spec {spec : HuffmanSpec} (valid : spec.Valid) {symbol : Nat}
    {code : List Bool} (hcode : spec.codeBits symbol = some code)
    (h : reader.Holds (code ++ bits) tail) :
    ∃ reader', jpegDecodeHuffman (some spec.table) reader = some (symbol, reader') ∧
      reader'.Holds bits tail := by
  unfold HuffmanSpec.codeBits at hcode
  obtain ⟨hmem, hcode⟩ := Option.ite_none_right_eq_some.1 hcode
  obtain ⟨⟨size, value⟩, hcanonical, rfl⟩ := Option.map_eq_some_iff.1 hcode
  have hlt : spec.symbols.idxOf symbol < spec.symbols.length := List.idxOf_lt_length_of_mem hmem
  have hvalue := canonicalCode_lt valid.fit hcanonical
  have hsize := valid.size
  have hdecode := @decodeLevels_spec reader bits tail spec.symbols _ _ _ _ 0 _ _ hcanonical
    (by omega) (by rwa [Nat.add_sub_cancel])
  rw [Nat.add_sub_cancel, Nat.div_eq_of_lt hvalue, Nat.zero_add] at hdecode
  have hsymbol : spec.symbols.getD (spec.symbols.idxOf symbol) 0 = symbol := by
    rw [List.getD_eq_getElem _ _ hlt, List.getElem_idxOf]
  rw [hsymbol] at hdecode
  exact hdecode

end Huffman

/-! ## Coefficients -/

def jpegExtend (value : Int) (bits : Nat) : Int :=
  if bits = 0 then 0
  else if value < 2 ^ (bits - 1) then value - 2 ^ bits + 1
  else value

/-- The number of bits of a difference or a coefficient. -/
def category (value : Int) : Nat := if value = 0 then 0 else value.natAbs.log2 + 1

/-- The bits of a value in its category: a negative one is counted from the lower end. -/
def magnitude (value : Int) : Nat :=
  if 0 ≤ value then value.toNat else (value + 2 ^ category value - 1).toNat

theorem category_bounds {value : Int} (h : value ≠ 0) :
    2 ^ (category value - 1) ≤ value.natAbs ∧ value.natAbs < 2 ^ category value := by
  unfold category
  rw [if_neg h, Nat.add_sub_cancel]
  exact ⟨Nat.log2_self_le (Int.natAbs_ne_zero.2 h), Nat.lt_log2_self⟩

theorem category_le_iff {value : Int} {bits : Nat} :
    category value ≤ bits ↔ value.natAbs < 2 ^ bits := by
  unfold category
  split_ifs with hzero
  · subst hzero
    simp
  · rw [Nat.succ_le_iff, Nat.log2_lt (Int.natAbs_ne_zero.2 hzero)]

theorem magnitude_lt (value : Int) : magnitude value < 2 ^ category value := by
  by_cases hzero : value = 0
  · subst hzero
    decide
  · obtain ⟨-, hlt⟩ := category_bounds hzero
    unfold magnitude
    have hcast : ((2 ^ category value : Nat) : Int) = 2 ^ category value := by push_cast; rfl
    split_ifs <;> omega

theorem jpegExtend_magnitude (value : Int) :
    jpegExtend (magnitude value) (category value) = value := by
  by_cases hzero : value = 0
  · subst hzero
    rfl
  · obtain ⟨hle, hlt⟩ := category_bounds hzero
    have hpos : category value ≠ 0 := by
      unfold category
      rw [if_neg hzero]
      omega
    have hpow : 2 ^ category value = 2 * 2 ^ (category value - 1) := by
      rw [← pow_succ']
      congr 1
      omega
    have hcast : ((2 ^ category value : Nat) : Int) = 2 ^ category value := by push_cast; rfl
    have hcast' : ((2 ^ (category value - 1) : Nat) : Int) = 2 ^ (category value - 1) := by
      push_cast
      rfl
    unfold jpegExtend magnitude
    rw [if_neg hpos]
    split_ifs <;> omega

/-- The 63 coefficients behind the DC coefficient are in zigzag order. -/
structure QuantisedBlock where
  dc : Int
  ac : List Int
  coefficients : ac.length = 63

/-- The code of the category of a difference, and the difference in it. -/
def dcBits (spec : HuffmanSpec) (difference : Int) : Option (List Bool) :=
  (spec.codeBits (category difference)).map fun code =>
    code ++ bitsOf (category difference) (magnitude difference)

/-- Runs of 16 zeros. -/
def zrlBits (spec : HuffmanSpec) : Nat → Option (List Bool)
  | 0 => some []
  | count + 1 =>
    (spec.codeBits 0xF0).bind fun code => (zrlBits spec count).map fun rest => code ++ rest

/-- The code of a coefficient behind a run of less than 16 zeros. -/
def acBits (spec : HuffmanSpec) (run : Nat) (value : Int) : Option (List Bool) :=
  if category value < 16 then
    (spec.codeBits (16 * run + category value)).map fun code =>
      code ++ bitsOf (category value) (magnitude value)
  else none

/-- The codes of the coefficients behind a run of zeros, with an end-of-block code if the last ones
    are zero. -/
def encodeAc (spec : HuffmanSpec) : Nat → List Int → Option (List Bool)
  | run, [] => if run = 0 then some [] else spec.codeBits 0
  | run, value :: values =>
    if value = 0 then encodeAc spec (run + 1) values
    else
      (zrlBits spec (run / 16)).bind fun zeros =>
        (acBits spec (run % 16) value).bind fun code =>
          (encodeAc spec 0 values).map fun rest => zeros ++ (code ++ rest)

/-- The difference that a DC code gives. -/
def decodeDifference (table : Option JpegHuffman) (reader : BitReader) :
    Option (Int × BitReader) :=
  (jpegDecodeHuffman table reader).bind fun (symbol, reader) =>
    if 0 < symbol then
      (jpegReadBits symbol reader).map fun (bits, reader) => (jpegExtend bits symbol, reader)
    else some (0, reader)

/-- The loop over the AC coefficients; each round takes `coefficient` further, so there are at most
    63 of them. -/
def skipAc (table : Option JpegHuffman) : Nat → Nat → BitReader → Option BitReader
  | 0, _, reader => some reader
  | rounds + 1, coefficient, reader =>
    if coefficient < 64 then
      (jpegDecodeHuffman table reader).bind fun (ac, reader) =>
        if ac % 16 = 0 then
          if ac / 16 ≠ 15 then some reader
          else skipAc table rounds (coefficient + 16) reader
        else
          (jpegReadBits (ac % 16) reader).bind fun (_, reader) =>
            skipAc table rounds (coefficient + (ac / 16 + 1)) reader
    else some reader

section Block

variable {reader : BitReader} {bits : List Bool} {tail : List Nat} {spec : HuffmanSpec}

theorem decodeDifference_spec (valid : spec.Valid) {difference : Int} {code : List Bool}
    (hcode : dcBits spec difference = some code) (h : reader.Holds (code ++ bits) tail) :
    ∃ reader', decodeDifference (some spec.table) reader = some (difference, reader') ∧
      reader'.Holds bits tail := by
  obtain ⟨symbol, hsymbol, rfl⟩ := Option.map_eq_some_iff.1 hcode
  rw [List.append_assoc] at h
  obtain ⟨reader', hdecode, hholds⟩ := jpegDecodeHuffman_spec valid hsymbol h
  obtain ⟨reader'', hread, hholds⟩ := jpegReadBits_spec (magnitude_lt difference) hholds
  unfold decodeDifference
  rw [hdecode, Option.bind_some]
  by_cases hzero : difference = 0
  · subst hzero
    have hsame : reader' = reader'' := by
      have hread : some (0, reader') = some (0, reader'') := hread
      cases hread
      rfl
    exact ⟨reader', rfl, hsame ▸ hholds⟩
  · have hpos : 0 < category difference := by
      unfold category
      rw [if_neg hzero]
      omega
    refine ⟨reader'', ?_, hholds⟩
    simp only [if_pos hpos, hread, Option.map_some, jpegExtend_magnitude]

theorem skipAc_done {rounds coefficient : Nat} (h : 64 ≤ coefficient) :
    skipAc (some spec.table) rounds coefficient reader = some reader := by
  cases rounds with
  | zero => rfl
  | succ rounds => rw [skipAc, if_neg (by omega)]

theorem skipAc_zrl (valid : spec.Valid) {count rounds coefficient : Nat} {code : List Bool}
    (hcode : zrlBits spec count = some code) (hrounds : 64 ≤ rounds + coefficient)
    (hcoefficient : coefficient + 16 * count < 64) (h : reader.Holds (code ++ bits) tail) :
    ∃ reader' rounds', skipAc (some spec.table) rounds coefficient reader =
        skipAc (some spec.table) rounds' (coefficient + 16 * count) reader' ∧
      64 ≤ rounds' + (coefficient + 16 * count) ∧ reader'.Holds bits tail := by
  induction count generalizing code rounds coefficient reader with
  | zero =>
    cases hcode
    exact ⟨reader, rounds, rfl, hrounds, h⟩
  | succ count ih =>
    obtain ⟨first, hfirst, hcode⟩ := Option.bind_eq_some_iff.1 hcode
    obtain ⟨rest, hrest, rfl⟩ := Option.map_eq_some_iff.1 hcode
    rw [List.append_assoc] at h
    obtain ⟨reader', hdecode, hholds⟩ := jpegDecodeHuffman_spec valid hfirst h
    obtain ⟨rounds, rfl⟩ : ∃ fewer, rounds = fewer + 1 := ⟨rounds - 1, by omega⟩
    have hnext := @ih reader' rounds (coefficient + 16) rest hrest (by omega) (by omega) hholds
    have hsum : coefficient + 16 + 16 * count = coefficient + 16 * (count + 1) := by ring
    rw [hsum] at hnext
    obtain ⟨reader'', rounds', hskip, hrounds', hholds⟩ := hnext
    refine ⟨reader'', rounds', ?_, hrounds', hholds⟩
    rw [skipAc, if_pos (by omega), hdecode, Option.bind_some]
    exact hskip

/-- Skipping the coefficients takes exactly their codes. -/
theorem skipAc_spec (valid : spec.Valid) {run rounds coefficient : Nat} {values : List Int}
    {code : List Bool} (hcode : encodeAc spec run values = some code)
    (hcoefficient : coefficient + run + values.length = 64) (hrounds : 64 ≤ rounds + coefficient)
    (h : reader.Holds (code ++ bits) tail) :
    ∃ reader', skipAc (some spec.table) rounds coefficient reader = some reader' ∧
      reader'.Holds bits tail := by
  induction values generalizing run rounds coefficient code reader with
  | nil =>
    rw [encodeAc] at hcode
    rw [List.length_nil, Nat.add_zero] at hcoefficient
    split_ifs at hcode with hrun
    · cases hcode
      exact ⟨reader, skipAc_done (by omega), h⟩
    · -- the end of the block
      obtain ⟨reader', hdecode, hholds⟩ := jpegDecodeHuffman_spec valid hcode h
      obtain ⟨rounds, rfl⟩ : ∃ fewer, rounds = fewer + 1 := ⟨rounds - 1, by omega⟩
      refine ⟨reader', ?_, hholds⟩
      rw [skipAc, if_pos (by omega), hdecode, Option.bind_some]
      rfl
  | cons value values ih =>
    rw [List.length_cons] at hcoefficient
    rw [encodeAc] at hcode
    split_ifs at hcode with hzero
    · exact ih hcode (by omega) hrounds h
    · obtain ⟨zeros, hzeros, hcode⟩ := Option.bind_eq_some_iff.1 hcode
      obtain ⟨first, hfirst, hcode⟩ := Option.bind_eq_some_iff.1 hcode
      obtain ⟨rest, hrest, rfl⟩ := Option.map_eq_some_iff.1 hcode
      obtain ⟨hcategory, hfirst⟩ := Option.ite_none_right_eq_some.1 hfirst
      obtain ⟨symbol, hsymbol, rfl⟩ := Option.map_eq_some_iff.1 hfirst
      rw [List.append_assoc, List.append_assoc, List.append_assoc] at h
      obtain ⟨reader', rounds', hskip, hrounds', hholds⟩ :=
        skipAc_zrl valid hzeros hrounds (by omega) h
      obtain ⟨readerSymbol, hdecode, hholds⟩ := jpegDecodeHuffman_spec valid hsymbol hholds
      obtain ⟨readerBits, hread, hholds⟩ := jpegReadBits_spec (magnitude_lt value) hholds
      have hpos : 0 < category value := by
        unfold category
        rw [if_neg hzero]
        omega
      obtain ⟨rounds', rfl⟩ : ∃ fewer, rounds' = fewer + 1 := ⟨rounds' - 1, by omega⟩
      obtain ⟨readerEnd, hrest', hholds⟩ := @ih readerBits 0 rounds'
        (coefficient + 16 * (run / 16) + (run % 16 + 1)) rest hrest (by omega) (by omega) hholds
      refine ⟨readerEnd, ?_, hholds⟩
      have hmod : (16 * (run % 16) + category value) % 16 = category value := by omega
      have hdiv : (16 * (run % 16) + category value) / 16 = run % 16 := by omega
      rw [hskip, skipAc, if_pos (by omega), hdecode, Option.bind_some]
      simp only [hmod, hdiv]
      rw [if_neg (by omega), hread, Option.bind_some]
      exact hrest'

end Block

end SysAgent
