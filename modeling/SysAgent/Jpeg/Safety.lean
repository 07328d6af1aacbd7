import Mathlib
import SysAgent.Jpeg.Walker

set_option autoImplicit false

/-! # Where the walker stays inside (`jpeg_dc.c`)

The header parsers check each id and each count before they use it. What they only store, the scan
uses as it is: the table selectors, the quantiser of the first component and the category of a
difference. `BlockFits` is what a block needs of the state before it. -/

namespace SysAgent.JpegWalker

open Checked MsbBits

/-! ## The headers -/

/-- What the header parsers keep of the decoder. -/
structure Formed (decoder : JpegDecoder) : Prop where
  components : decoder.components.length ≤ 4
  levels : ∀ index table, decoder.huffman index = some table → table.levels.length ≤ 16

theorem length_canonicalLevels (counts : List Nat) (code index : Int) :
    (canonicalLevels counts code index).length = counts.length := by
  induction counts generalizing code index with
  | nil => rfl
  | cons count counts ih => rw [canonicalLevels, List.length_cons, List.length_cons, ih]

theorem length_setTables {id tables : Nat} {components result : List JpegComponent}
    (h : setTables id tables components = some result) : result.length = components.length := by
  induction components generalizing result with
  | nil => cases h
  | cons component components ih =>
    rw [setTables] at h
    split_ifs at h with hid
    · cases h
      rfl
    · obtain ⟨rest, hrest, rfl⟩ := Option.map_eq_some_iff.1 h
      rw [List.length_cons, List.length_cons, ih hrest]

theorem formed_emptyDecoder : Formed emptyDecoder where
  components := Nat.zero_le _
  levels := fun _ _ h => nomatch h

section Headers

variable (data : List Nat)

theorem inBounds_readU8 (pos : Nat) :
    InBounds (jpegReadU8 data pos) fun r => pos < r.2 := by
  unfold jpegReadU8
  refine inBounds_ite (fun _ => inBounds_throw ()) fun hpos => ?_
  refine (inBounds_access (not_le.1 hpos)).bind fun byte _ => ?_
  exact inBounds_pure (Nat.lt_succ_self pos)

theorem inBounds_readU16 (pos : Nat) :
    InBounds (jpegReadU16 data pos) fun r => pos < r.2 := by
  unfold jpegReadU16
  refine inBounds_ite (fun _ => inBounds_throw ()) fun hpos => ?_
  refine (inBounds_access (by omega)).bind fun high _ => ?_
  refine (inBounds_access (by omega)).bind fun low _ => ?_
  exact inBounds_pure (show pos < pos + 2 by omega)

theorem inBounds_nextMarkerFrom {rounds pos : Nat} (hrounds : data.length - pos < rounds) :
    InBounds (jpegNextMarkerFrom data rounds pos) fun r => pos < r.2 ∧ r.2 ≤ data.length := by
  induction rounds generalizing pos with
  | zero => omega
  | succ rounds ih =>
    rw [jpegNextMarkerFrom]
    refine inBounds_ite (fun hlt => ?_) fun _ => inBounds_throw ()
    refine (inBounds_access (by omega)).bind fun byte _ => ?_
    refine inBounds_ite (fun _ => (ih (by omega)).mono fun r hr => ⟨by omega, hr.2⟩) fun _ => ?_
    refine (inBounds_access hlt).bind fun marker _ => ?_
    refine inBounds_ite (fun _ => (ih (by omega)).mono fun r hr => ⟨by omega, hr.2⟩) fun _ => ?_
    refine inBounds_ite (fun _ => (ih (by omega)).mono fun r hr => ⟨by omega, hr.2⟩) fun _ => ?_
    exact inBounds_pure ⟨show pos < pos + 2 by omega, hlt⟩

theorem inBounds_readMany {α : Type} {read : Nat → Walk (α × Nat)}
    (hread : ∀ pos, InBounds (read pos) fun r => pos < r.2) {max count index : Nat}
    (hmax : index + count ≤ max) (pos : Nat) :
    InBounds (readMany read max count index pos) fun r => r.1.length = count ∧ pos ≤ r.2 := by
  induction count generalizing index pos with
  | zero => exact inBounds_pure ⟨rfl, Nat.le_refl pos⟩
  | succ count ih =>
    rw [readMany]
    refine (inBounds_require (by omega)).bind fun _ _ => ?_
    refine (hread pos).bind fun first hfirst => ?_
    refine (ih (by omega) first.2).bind fun rest hrest => ?_
    exact inBounds_pure ⟨by rw [List.length_cons, hrest.1], hfirst.le.trans hrest.2⟩

/-- Each table takes a byte at least, so the rounds are enough. -/
theorem inBounds_parseTables
    {parseTable : JpegDecoder → Nat → Walk (JpegDecoder × Nat)}
    (hparse : ∀ decoder pos, Formed decoder →
      InBounds (parseTable decoder pos) fun r => Formed r.1 ∧ pos < r.2)
    {finish rounds pos : Nat} (hrounds : finish - pos < rounds) {decoder : JpegDecoder}
    (formed : Formed decoder) :
    InBounds (parseTables parseTable finish rounds decoder pos) fun r =>
      Formed r.1 ∧ pos ≤ r.2 := by
  induction rounds generalizing decoder pos with
  | zero => omega
  | succ rounds ih =>
    rw [parseTables]
    refine inBounds_ite (fun hlt => ?_) fun _ => ?_
    · refine (hparse decoder pos formed).bind fun r hr => ?_
      have hpos := hr.2
      exact (ih (by omega) hr.1).mono fun last hlast => ⟨hlast.1, hpos.le.trans hlast.2⟩
    · refine inBounds_ite (fun _ => ?_) fun _ => inBounds_throw ()
      exact inBounds_pure ⟨formed, Nat.le_refl pos⟩

theorem inBounds_parseQuantTable {decoder : JpegDecoder} (pos : Nat) (formed : Formed decoder) :
    InBounds (parseQuantTable data decoder pos) fun r => Formed r.1 ∧ pos < r.2 := by
  unfold parseQuantTable
  refine (inBounds_readU8 data pos).bind fun spec hspec => ?_
  refine inBounds_ite (fun _ => inBounds_throw ()) fun hid => ?_
  refine (inBounds_require (by omega)).bind fun _ _ => ?_
  have hread : ∀ pos, InBounds ((if spec.1 / 16 = 0 then jpegReadU8 data else jpegReadU16 data) pos)
      fun r => pos < r.2 := by
    intro pos
    split_ifs
    · exact inBounds_readU8 data pos
    · exact inBounds_readU16 data pos
  refine (inBounds_readMany hread (by omega) spec.2).bind fun values hvalues => ?_
  exact inBounds_pure ⟨⟨formed.components, formed.levels⟩, hspec.trans_le hvalues.2⟩

theorem inBounds_parseHuffmanTable {decoder : JpegDecoder} (pos : Nat)
    (formed : Formed decoder) :
    InBounds (parseHuffmanTable data decoder pos) fun r => Formed r.1 ∧ pos < r.2 := by
  unfold parseHuffmanTable
  refine (inBounds_readU8 data pos).bind fun spec hspec => ?_
  refine inBounds_ite (fun _ => inBounds_throw ()) fun hid => ?_
  refine (inBounds_require (by omega)).bind fun _ _ => ?_
  refine (inBounds_readMany (inBounds_readU8 data) (by omega) spec.2).bind fun counts hcounts => ?_
  refine inBounds_ite (fun _ => inBounds_throw ()) fun htotal => ?_
  refine (inBounds_readMany (inBounds_readU8 data) (by omega) counts.2).bind
    fun symbols hsymbols => ?_
  refine inBounds_pure ⟨⟨formed.components, ?_⟩,
    hspec.trans_le (hcounts.2.trans hsymbols.2)⟩
  intro index table htable
  dsimp only at htable
  by_cases hindex : index = spec.1 % 16 * 2 + spec.1 / 16
  · rw [hindex, Function.update_self, Option.some.injEq] at htable
    rw [← htable, HuffmanSpec.table, length_canonicalLevels, hcounts.1]
  · rw [Function.update_of_ne hindex] at htable
    exact formed.levels index table htable

theorem inBounds_readComponent (pos : Nat) :
    InBounds (readComponent data pos) fun r => pos < r.2 := by
  unfold readComponent
  refine (inBounds_readU8 data pos).bind fun id hid => ?_
  refine (inBounds_readU8 data id.2).bind fun sampling hsampling => ?_
  refine (inBounds_readU8 data sampling.2).bind fun quantId hquantId => ?_
  refine inBounds_ite (fun _ => inBounds_throw ()) fun _ => ?_
  exact inBounds_pure (hid.trans (hsampling.trans hquantId))

theorem inBounds_parseFrame {decoder : JpegDecoder} (length marker pos : Nat)
    (formed : Formed decoder) :
    InBounds (jpegParseFrame data decoder length marker pos) fun r =>
      Formed r.1 ∧ pos ≤ r.2 := by
  unfold jpegParseFrame
  refine inBounds_ite (fun _ => inBounds_throw ()) fun _ => ?_
  refine (inBounds_readU8 data pos).bind fun precision hprecision => ?_
  refine inBounds_ite (fun _ => inBounds_throw ()) fun _ => ?_
  refine (inBounds_readU16 data precision.2).bind fun height hheight => ?_
  refine (inBounds_readU16 data height.2).bind fun width hwidth => ?_
  refine (inBounds_readU8 data width.2).bind fun count hcount => ?_
  refine inBounds_ite (fun _ => inBounds_throw ()) fun hcounts => ?_
  refine (inBounds_readMany (inBounds_readComponent data) (by omega) count.2).bind
    fun components hcomponents => ?_
  refine inBounds_ite (fun _ => ?_) fun _ => inBounds_throw ()
  refine inBounds_pure ⟨⟨?_, formed.levels⟩, ?_⟩
  · have hlength := hcomponents.1
    dsimp only
    rw [frameComponents, List.length_map, hlength]
    omega
  · have hend := hcomponents.2
    dsimp only
    omega

theorem inBounds_parseScanComponents {count pos : Nat} {components : List JpegComponent}
    (hlength : components.length ≤ 4) :
    InBounds (parseScanComponents data count components pos) fun r => r.1.length ≤ 4 := by
  induction count generalizing components pos with
  | zero => exact inBounds_pure hlength
  | succ count ih =>
    rw [parseScanComponents]
    refine (inBounds_readU8 data pos).bind fun id _ => ?_
    refine (inBounds_readU8 data id.2).bind fun tables _ => ?_
    refine (inBounds_require hlength).bind fun _ _ => ?_
    cases hset : setTables id.1 tables.1 components with
    | none => exact inBounds_throw ()
    | some result => exact ih (by rw [length_setTables hset]; exact hlength)

theorem inBounds_parseScan {decoder : JpegDecoder} (length pos : Nat) (formed : Formed decoder) :
    InBounds (jpegParseScan data decoder length pos) Formed := by
  unfold jpegParseScan
  refine (inBounds_readU8 data pos).bind fun count _ => ?_
  refine inBounds_ite (fun _ => inBounds_throw ()) fun _ => ?_
  refine (inBounds_parseScanComponents data formed.components).bind fun components hlength => ?_
  refine (inBounds_readMany (inBounds_readU8 data) (by omega) components.2).bind
    fun selection _ => ?_
  refine inBounds_ite (fun _ => ?_) fun _ => inBounds_throw ()
  exact inBounds_pure ⟨hlength, formed.levels⟩

theorem inBounds_parseSegment {decoder : JpegDecoder} {marker length : Nat} (pos : Nat)
    (hlength : 2 ≤ length) (formed : Formed decoder) :
    InBounds (parseSegment data marker length decoder pos) fun r => Formed r.1 ∧ pos ≤ r.2 := by
  unfold parseSegment
  refine inBounds_ite (fun _ => inBounds_parseFrame data length marker pos formed) fun _ => ?_
  refine inBounds_ite (fun _ => ?_) fun _ => ?_
  · exact inBounds_parseTables (fun decoder pos => inBounds_parseHuffmanTable data pos)
      (by omega) formed
  refine inBounds_ite (fun _ => ?_) fun _ => ?_
  · exact inBounds_parseTables (fun decoder pos => inBounds_parseQuantTable data pos)
      (by omega) formed
  refine inBounds_ite (fun _ => ?_) fun _ => ?_
  · refine inBounds_ite (fun _ => inBounds_throw ()) fun _ => ?_
    refine (inBounds_readU16 data pos).bind fun interval hinterval => ?_
    exact inBounds_pure ⟨⟨formed.components, formed.levels⟩, hinterval.le⟩
  · exact inBounds_pure ⟨formed, Nat.le_add_right pos _⟩

theorem inBounds_markerLoop {rounds pos : Nat} (hrounds : data.length - pos < rounds)
    (sawFrame : Bool) {decoder : JpegDecoder} (formed : Formed decoder) :
    InBounds (markerLoop data rounds sawFrame decoder pos) fun r => Formed r.1 := by
  induction rounds generalizing sawFrame decoder pos with
  | zero => omega
  | succ rounds ih =>
    rw [markerLoop]
    refine (inBounds_nextMarkerFrom data (show data.length - pos < data.length + 1 by omega)).bind fun marker hmarker => ?_
    refine inBounds_ite (fun _ => inBounds_throw ()) fun _ => ?_
    refine (inBounds_readU16 data marker.2).bind fun length hlength => ?_
    refine inBounds_ite (fun _ => inBounds_throw ()) fun hsize => ?_
    refine inBounds_ite (fun _ => ?_) fun _ => ?_
    · refine inBounds_ite (fun _ => ?_) fun _ => inBounds_throw ()
      refine (inBounds_parseScan data length.1 length.2 formed).bind fun parsed hparsed => ?_
      exact inBounds_pure hparsed
    · refine (inBounds_parseSegment data length.2 (by omega) formed).bind fun parsed hparsed => ?_
      have hpos := hparsed.2
      exact ih (by omega) _ hparsed.1

/-- Every file is read up to its scan, or rejected. -/
theorem inBounds_readHeaders : InBounds (jpegReadHeaders data) fun r => Formed r.1 := by
  unfold jpegReadHeaders
  refine inBounds_ite (fun _ => inBounds_throw ()) fun hsize => ?_
  refine (inBounds_access (by omega)).bind fun first _ => ?_
  refine (inBounds_access (by omega)).bind fun second _ => ?_
  refine inBounds_ite (fun _ => ?_) fun _ => inBounds_throw ()
  exact inBounds_markerLoop data (by omega) false formed_emptyDecoder

end Headers

/-! ## Signed numbers -/

section Numbers

variable {α : Type}

theorem int32_bind (x : Int) (f : Int → Walk α) :
    int32 x >>= f = require (Int32 x) >>= fun _ => f x := by
  rw [int32, bind_assoc]
  simp only [pure_bind]

theorem int32_bind_ne_none (x : Int) (f : Int → Walk α) :
    (int32 x >>= f).run ≠ none ↔ Int32 x ∧ (f x).run ≠ none := by
  rw [int32_bind, require_bind_ne_none]

theorem int32_ne_none (x : Int) : (int32 x).run ≠ none ↔ Int32 x := by
  rw [← bind_pure (int32 x), int32_bind_ne_none]
  exact and_iff_left (Option.some_ne_none _)

theorem int32_two_pow (n : Nat) : Int32 (2 ^ n) ↔ n < 31 := by
  have hpos : (0 : Int) < 2 ^ n := by positivity
  have hlt : (2 : Int) ^ n < 2 ^ 31 ↔ n < 31 := pow_lt_pow_iff_right₀ (by decide)
  unfold Int32
  rw [hlt]
  constructor
  · exact And.right
  · intro h
    exact ⟨by omega, h⟩

theorem shiftOne_bind (n : Nat) (f : Int → Walk α) :
    shiftOne n >>= f = require (n < 32) >>= fun _ => int32 (2 ^ n) >>= f := by
  rw [shiftOne, bind_assoc]

theorem shiftOne_bind_ne_none (n : Nat) (f : Int → Walk α) :
    (shiftOne n >>= f).run ≠ none ↔ n < 31 ∧ (f (2 ^ n)).run ≠ none := by
  rw [shiftOne_bind, require_bind_ne_none, int32_bind_ne_none, int32_two_pow]
  constructor
  · exact And.right
  · intro h
    exact ⟨by omega, h⟩

/-- A category of 31 is shifted by 31 if the value is in the lower half. -/
theorem jpegExtend_ne_none_iff {value bits : Nat} (hbits : 0 < bits) :
    (jpegExtend value bits).run ≠ none ↔ bits ≤ 31 ∧ (value < 2 ^ (bits - 1) → bits ≤ 30) := by
  unfold jpegExtend
  rw [if_neg (by omega), shiftOne_bind_ne_none]
  have hhalf : (value : Int) < 2 ^ (bits - 1) ↔ value < 2 ^ (bits - 1) := by
    exact_mod_cast Iff.rfl
  by_cases hlow : value < 2 ^ (bits - 1)
  · rw [if_pos (hhalf.2 hlow), shiftOne_bind_ne_none, int32_ne_none]
    constructor
    · rintro ⟨-, hwhole, -⟩
      exact ⟨by omega, fun _ => by omega⟩
    · rintro ⟨-, hwhole⟩
      have hwhole := hwhole hlow
      have hmax : (2 : Int) ^ bits ≤ 2 ^ 30 := pow_le_pow_right₀ (by decide) hwhole
      have hhalf_le : (2 : Int) ^ (bits - 1) ≤ 2 ^ 30 := pow_le_pow_right₀ (by decide) (by omega)
      have hvalue := hhalf.2 hlow
      have hpos : (0 : Int) < 2 ^ bits := by positivity
      refine ⟨by omega, by omega, ?_, ?_⟩ <;> omega
  · rw [if_neg (mt hhalf.1 hlow)]
    constructor
    · rintro ⟨hshift, -⟩
      exact ⟨by omega, fun h => absurd h hlow⟩
    · rintro ⟨hshift, -⟩
      exact ⟨by omega, Option.some_ne_none _⟩

theorem jpegExtend_follows (value : Int) (bits : Nat) :
    Follows (jpegExtend value bits) (some (SysAgent.jpegExtend value bits)) Eq := by
  unfold jpegExtend SysAgent.jpegExtend
  split_ifs with hzero hlow
  · exact follows_pure rfl
  · rw [shiftOne_bind]
    refine Follows.require_bind fun _ => ?_
    rw [int32_bind]
    refine Follows.require_bind fun _ => ?_
    rw [if_pos hlow, shiftOne_bind]
    refine Follows.require_bind fun _ => ?_
    rw [int32_bind]
    refine Follows.require_bind fun _ => ?_
    rw [int32]
    exact Follows.require_bind fun _ => follows_pure rfl
  · rw [shiftOne_bind]
    refine Follows.require_bind fun _ => ?_
    rw [int32_bind]
    refine Follows.require_bind fun _ => ?_
    rw [if_neg hlow]
    exact follows_pure rfl

end Numbers


/-! ## Entropy decoding -/

section Entropy

variable (data : List Nat)

/-- What is returned is the same, and the readers are at the same bit. -/
def Agrees {α : Type} (a : α × ScanReader) (b : α × BitReader) : Prop :=
  a.1 = b.1 ∧ a.2.rest data = b.2

theorem jpegReadBit_ne_none (reader : ScanReader) : (jpegReadBit data reader).run ≠ none := by
  refine InBounds.run_ne_none (Q := fun _ => True) ?_
  unfold jpegReadBit
  split
  · rename_i count hcount
    have hbounded := reader.bounded
    exact (inBounds_require (by omega)).bind fun _ _ => inBounds_pure trivial
  · refine inBounds_ite (fun _ => inBounds_throw ()) fun hpos => ?_
    refine (inBounds_access (not_le.1 hpos)).bind fun byte _ => ?_
    refine inBounds_ite (fun _ => ?_) fun _ => inBounds_pure trivial
    refine inBounds_ite (fun _ => inBounds_throw ()) fun hnext => ?_
    refine (inBounds_access (not_le.1 hnext)).bind fun next _ => ?_
    exact inBounds_ite (fun _ => inBounds_pure trivial) fun _ => inBounds_throw ()

theorem jpegReadBit_follows (reader : ScanReader) :
    Follows (jpegReadBit data reader) (SysAgent.jpegReadBit (reader.rest data)) (Agrees data) := by
  obtain ⟨scanPos, bitBuffer, bitCount, bounded⟩ := reader
  cases bitCount with
  | succ count =>
    unfold jpegReadBit
    exact Follows.require_bind fun _ => follows_pure ⟨rfl, rfl⟩
  | zero =>
    unfold jpegReadBit SysAgent.jpegReadBit ScanReader.rest
    dsimp only
    by_cases hpos : data.length ≤ scanPos
    · rw [if_pos hpos, List.drop_eq_nil_of_le hpos]
      exact follows_throw ()
    · have hlt := not_le.1 hpos
      rw [if_neg hpos, access_bind hlt, List.drop_eq_getElem_cons hlt]
      dsimp only
      by_cases hfill : data[scanPos] = 0xFF
      · rw [if_pos hfill, if_pos hfill]
        by_cases hnext : data.length ≤ scanPos + 1
        · rw [if_pos hnext, List.drop_eq_nil_of_le hnext]
          exact follows_throw ()
        · have hlt' := not_le.1 hnext
          rw [if_neg hnext, access_bind hlt', List.drop_eq_getElem_cons hlt']
          by_cases hstuffed : data[scanPos + 1] = 0x00
          · rw [if_pos hstuffed, hstuffed]
            exact follows_pure ⟨rfl, rfl⟩
          · rw [if_neg hstuffed]
            split
            · rename_i rest heq
              exact absurd (List.cons.inj heq).1 hstuffed
            · exact follows_throw ()
      · rw [if_neg hfill, if_neg hfill]
        exact follows_pure ⟨rfl, rfl⟩

theorem readBitsFrom_follows (value count : Nat) (reader : ScanReader) :
    Follows (readBitsFrom data value count reader)
      (SysAgent.readBitsFrom value count (reader.rest data)) (Agrees data) := by
  induction count generalizing value reader with
  | zero => exact follows_pure ⟨rfl, rfl⟩
  | succ count ih =>
    rw [readBitsFrom, SysAgent.readBitsFrom]
    refine (jpegReadBit_follows data reader).bind ?_
    rintro ⟨bit, reader'⟩ ⟨_, _⟩ ⟨rfl, rfl⟩
    exact Follows.require_bind fun _ => ih (MsbBits.push value bit) reader'

/-- The value stays an `int` as long as the bits go on. -/
theorem readBitsFrom_ne_none_iff {value : Nat} (hvalue : value < 2 ^ 31) (count : Nat)
    (reader : ScanReader) :
    (readBitsFrom data value count reader).run ≠ none ↔ ∀ read ≤ count, ∀ bits rest,
      SysAgent.readBitsFrom value read (reader.rest data) = some (bits, rest) → bits < 2 ^ 31 := by
  induction count generalizing value reader with
  | zero =>
    refine ⟨fun _ read hread bits rest h => ?_, fun _ => Option.some_ne_none _⟩
    obtain rfl := Nat.le_zero.1 hread
    cases h
    exact hvalue
  | succ count ih =>
    rw [readBitsFrom, bind_ne_none_iff]
    have hfollows := jpegReadBit_follows data reader
    constructor
    · rintro ⟨hbit, hrest⟩ read hread bits rest h
      cases read with
      | zero =>
        cases h
        exact hvalue
      | succ read =>
        rw [SysAgent.readBitsFrom] at h
        obtain ⟨⟨_, _⟩, hmath, h⟩ := Option.bind_eq_some_iff.1 h
        obtain ⟨⟨bit, reader'⟩, hrun, rfl, rfl⟩ := hfollows.ok_of_some hbit hmath
        obtain ⟨hroom, hread'⟩ := (require_bind_ne_none _).1 (hrest _ hrun)
        have hpush : MsbBits.push value bit < 2 ^ 31 := by
          have hbit := Bool.toNat_le bit
          unfold MsbBits.push
          omega
        exact (ih hpush reader').1 hread' read (by omega) bits rest h
    · intro h
      refine ⟨jpegReadBit_ne_none data reader, ?_⟩
      rintro ⟨bit, reader'⟩ hrun
      obtain ⟨⟨_, _⟩, hmath, rfl, rfl⟩ := hfollows.2 _ hrun
      have hstep : ∀ read, SysAgent.readBitsFrom value (read + 1) (reader.rest data) =
          SysAgent.readBitsFrom (MsbBits.push value bit) read (reader'.rest data) := by
        intro read
        rw [SysAgent.readBitsFrom, hmath, Option.bind_some]
      have hpush := h 1 (by omega) (MsbBits.push value bit) (reader'.rest data) (by rw [hstep]; rfl)
      refine (require_bind_ne_none _).2 ⟨?_, (ih hpush reader').2 ?_⟩
      · unfold MsbBits.push at hpush
        omega
      · intro read hread bits rest hbits
        exact h (read + 1) (by omega) bits rest (by rw [hstep, hbits])

theorem readBitsFrom_lt {value count bits : Nat} {reader rest : BitReader}
    (h : SysAgent.readBitsFrom value count reader = some (bits, rest)) :
    bits < (value + 1) * 2 ^ count := by
  induction count generalizing value reader with
  | zero =>
    cases h
    omega
  | succ count ih =>
    rw [SysAgent.readBitsFrom] at h
    obtain ⟨⟨bit, reader'⟩, -, h⟩ := Option.bind_eq_some_iff.1 h
    have hbit := Bool.toNat_le bit
    have hpush : MsbBits.push value bit + 1 ≤ (value + 1) * 2 := by
      unfold MsbBits.push
      omega
    calc bits < (MsbBits.push value bit + 1) * 2 ^ count := ih h
      _ ≤ (value + 1) * 2 * 2 ^ count := Nat.mul_le_mul_right _ hpush
      _ = (value + 1) * 2 ^ (count + 1) := by ring

/-- Up to 31 bits are always an `int`. -/
theorem jpegReadBits_ne_none {count : Nat} (hcount : count ≤ 31) (reader : ScanReader) :
    (jpegReadBits data count reader).run ≠ none := by
  refine (readBitsFrom_ne_none_iff data (by decide) count reader).2 ?_
  intro read hread bits rest h
  calc bits < (0 + 1) * 2 ^ read := readBitsFrom_lt h
    _ = 2 ^ read := by ring
    _ ≤ 2 ^ 31 := Nat.pow_le_pow_right (by decide) (by omega)

/-- A code has no more bits than there are levels. -/
theorem decodeLevels_ne_none (symbols : List Nat) {levels : List HuffmanLevel} {code : Int}
    (hcode : 0 ≤ code) (hroom : (code + 1) * 2 ^ levels.length ≤ 2 ^ 16) (reader : ScanReader) :
    (decodeLevels data symbols levels code reader).run ≠ none := by
  induction levels generalizing code reader with
  | nil => exact Option.some_ne_none _
  | cons level levels ih =>
    rw [decodeLevels, bind_ne_none_iff]
    refine ⟨jpegReadBit_ne_none data reader, ?_⟩
    rintro ⟨bit, reader'⟩ -
    have hbit : (bit.toNat : Int) ≤ 1 := by exact_mod_cast Bool.toNat_le bit
    have hnext : (2 * code + bit.toNat + 1) * 2 ^ levels.length ≤ 2 ^ 16 := by
      calc (2 * code + bit.toNat + 1) * 2 ^ levels.length
          ≤ (2 * (code + 1)) * 2 ^ levels.length := by gcongr; omega
        _ = (code + 1) * 2 ^ (levels.length + 1) := by ring
        _ ≤ 2 ^ 16 := hroom
    have hsmall : 2 * code + bit.toNat + 1 ≤ 2 ^ 16 :=
      (le_mul_of_one_le_right (by omega) (one_le_pow₀ (by decide))).trans hnext
    refine (int32_bind_ne_none _ _).2 ⟨⟨by omega, by omega⟩, ?_⟩
    by_cases hfound : 0 ≤ level.maxCode ∧ 2 * code + bit.toNat ≤ level.maxCode
    · rw [if_pos hfound]
      dsimp only
      split_ifs with hindex
      · exact Option.some_ne_none _
      · exact (require_bind_ne_none _).2 ⟨by omega, Option.some_ne_none _⟩
    · rw [if_neg hfound]
      exact ih (by omega) hnext reader'

theorem decodeLevels_follows (symbols : List Nat) (levels : List HuffmanLevel) (code : Int)
    (reader : ScanReader) :
    Follows (decodeLevels data symbols levels code reader)
      (SysAgent.decodeLevels symbols levels code (reader.rest data)) (Agrees data) := by
  induction levels generalizing code reader with
  | nil => exact follows_throw ()
  | cons level levels ih =>
    rw [decodeLevels, SysAgent.decodeLevels]
    refine (jpegReadBit_follows data reader).bind ?_
    rintro ⟨bit, reader'⟩ ⟨_, _⟩ ⟨rfl, rfl⟩
    dsimp only
    rw [int32_bind]
    refine Follows.require_bind fun _ => ?_
    split_ifs with hfound hindex
    · exact follows_throw ()
    · exact Follows.require_bind fun _ => follows_pure ⟨rfl, rfl⟩
    · exact ih _ reader'

variable {table : Option JpegHuffman}

theorem jpegDecodeHuffman_follows (table : Option JpegHuffman) (reader : ScanReader) :
    Follows (jpegDecodeHuffman data table reader)
      (SysAgent.jpegDecodeHuffman table (reader.rest data)) (Agrees data) := by
  cases table with
  | none => exact follows_throw ()
  | some table => exact decodeLevels_follows data table.symbols table.levels 0 reader

section Levels

variable (hlevels : ∀ levels, table = some levels → levels.levels.length ≤ 16)
include hlevels

theorem jpegDecodeHuffman_ne_none (reader : ScanReader) :
    (jpegDecodeHuffman data table reader).run ≠ none := by
  cases table with
  | none => exact Option.some_ne_none _
  | some table =>
    refine decodeLevels_ne_none data table.symbols (Int.le_refl 0) ?_ reader
    rw [zero_add, one_mul]
    exact pow_le_pow_right₀ (by decide) (hlevels table rfl)

theorem skipAc_ne_none {rounds coefficient : Nat} (hrounds : 64 ≤ coefficient + rounds)
    (reader : ScanReader) : (skipAc data table rounds coefficient reader).run ≠ none := by
  induction rounds generalizing coefficient reader with
  | zero =>
    rw [skipAc, if_neg (by omega)]
    exact Option.some_ne_none _
  | succ rounds ih =>
    rw [skipAc]
    split_ifs with hmore
    · rw [bind_ne_none_iff]
      refine ⟨jpegDecodeHuffman_ne_none data hlevels reader, ?_⟩
      rintro ⟨ac, reader'⟩ -
      dsimp only
      split_ifs with hzero hend
      · exact Option.some_ne_none _
      · exact ih (by omega) reader'
      · rw [bind_ne_none_iff]
        refine ⟨jpegReadBits_ne_none data (by omega) reader', ?_⟩
        rintro ⟨_, reader''⟩ -
        exact ih (by omega) reader''
    · exact Option.some_ne_none _

end Levels

/-- The bits of a difference: as many as there are of them stay an `int`, and if all are there the
    category is at most 30, or 31 with a value in the upper half. -/
structure CategoryFits (symbol : Nat) (reader : BitReader) : Prop where
  bits : ∀ count ≤ symbol, ∀ value rest,
    SysAgent.jpegReadBits count reader = some (value, rest) → value < 2 ^ 31
  shift : ∀ value rest, SysAgent.jpegReadBits symbol reader = some (value, rest) →
    symbol ≤ 31 ∧ (value < 2 ^ (symbol - 1) → symbol ≤ 30)

theorem categoryFits_zero (reader : BitReader) : CategoryFits 0 reader where
  bits := by
    intro count hcount value rest h
    obtain rfl := Nat.le_zero.1 hcount
    cases h
    decide
  shift := fun _ _ _ => ⟨by omega, fun _ => by omega⟩

theorem decodeDifference_follows (table : Option JpegHuffman) (reader : ScanReader) :
    Follows (decodeDifference data table reader)
      (SysAgent.decodeDifference table (reader.rest data)) (Agrees data) := by
  refine (jpegDecodeHuffman_follows data table reader).bind ?_
  rintro ⟨symbol, reader'⟩ ⟨_, _⟩ ⟨rfl, rfl⟩
  dsimp only
  split_ifs with hpos
  · rw [Option.map_eq_bind]
    refine (readBitsFrom_follows data 0 symbol reader').bind ?_
    rintro ⟨bits, reader''⟩ ⟨_, _⟩ ⟨rfl, rfl⟩
    have h := (jpegExtend_follows bits symbol).bind (S := Agrees data)
      (f := fun difference => (pure (difference, reader'') : Walk (Int × ScanReader)))
      (g := fun difference => some (difference, reader''.rest data))
    refine h ?_
    rintro difference _ rfl
    exact follows_pure ⟨rfl, rfl⟩
  · exact follows_pure ⟨rfl, rfl⟩

theorem decodeDifference_ne_none_iff
    (hlevels : ∀ levels, table = some levels → levels.levels.length ≤ 16) (reader : ScanReader) :
    (decodeDifference data table reader).run ≠ none ↔ ∀ symbol rest,
      SysAgent.jpegDecodeHuffman table (reader.rest data) = some (symbol, rest) →
        CategoryFits symbol rest := by
  have hhuffman := jpegDecodeHuffman_ne_none data hlevels reader
  have hfollows := jpegDecodeHuffman_follows data table reader
  rw [decodeDifference, bind_ne_none_iff]
  constructor
  · rintro ⟨-, h⟩ _ _ hsymbol
    obtain ⟨⟨symbol, reader'⟩, hrun, rfl, rfl⟩ := hfollows.ok_of_some hhuffman hsymbol
    have h := h _ hrun
    dsimp only at h hsymbol ⊢
    rcases Nat.eq_zero_or_pos symbol with rfl | hpos
    · exact categoryFits_zero _
    · rw [if_pos hpos, bind_ne_none_iff] at h
      obtain ⟨hread, hextend⟩ := h
      refine ⟨(readBitsFrom_ne_none_iff data (by decide) symbol reader').1 hread, ?_⟩
      intro value rest hvalue
      obtain ⟨⟨_, reader''⟩, hrun', rfl, rfl⟩ :=
        (readBitsFrom_follows data 0 symbol reader').ok_of_some hread hvalue
      exact (jpegExtend_ne_none_iff hpos).1 ((bind_ne_none_iff _ _).1 (hextend _ hrun')).1
  · intro h
    refine ⟨hhuffman, ?_⟩
    rintro ⟨symbol, reader'⟩ hrun
    obtain ⟨⟨_, _⟩, hsymbol, rfl, rfl⟩ := hfollows.2 _ hrun
    have hfits := h _ _ hsymbol
    dsimp only
    split_ifs with hpos
    · rw [bind_ne_none_iff]
      refine ⟨(readBitsFrom_ne_none_iff data (by decide) symbol reader').2 hfits.bits, ?_⟩
      rintro ⟨value, reader''⟩ hrun'
      obtain ⟨⟨_, _⟩, hvalue, rfl, rfl⟩ := (readBitsFrom_follows data 0 symbol reader').2 _ hrun'
      rw [bind_ne_none_iff]
      exact ⟨(jpegExtend_ne_none_iff hpos).2 (hfits.shift _ _ hvalue),
        fun _ _ => Option.some_ne_none _⟩
    · exact Option.some_ne_none _

end Entropy

/-! ## The scan -/

section Scan

variable (data : List Nat) (decoder : JpegDecoder)

/-- What a block needs of the state before it. -/
structure BlockFits (s : WalkState) (block : ScanBlock) : Prop where
  dcTable : block.component.dcTable < 4
  acTable : block.component.acTable < 4
  category : ∀ symbol rest, SysAgent.jpegDecodeHuffman
    (decoder.huffman (block.component.dcTable * 2)) (s.reader.rest data) = some (symbol, rest) →
      CategoryFits symbol rest
  prediction : ∀ difference rest, SysAgent.decodeDifference
    (decoder.huffman (block.component.dcTable * 2)) (s.reader.rest data) =
      some (difference, rest) → Int32 (s.prediction block.index + difference)
  quantId : ∀ difference rest, SysAgent.decodeDifference
    (decoder.huffman (block.component.dcTable * 2)) (s.reader.rest data) =
      some (difference, rest) → Stored decoder block → block.component.quantId < 4
  level : ∀ difference rest, SysAgent.decodeDifference
    (decoder.huffman (block.component.dcTable * 2)) (s.reader.rest data) =
      some (difference, rest) → Stored decoder block →
        Int32 ((s.prediction block.index + difference) *
          decoder.quant block.component.quantId)

/-- The walk comes to a block in a state. -/
def Reaches (scanPos : Nat) (s : WalkState) (block : ScanBlock) : Prop :=
  ¬ (JPEG_DC_MAX_BLOCKS_X < decoder.lumaBlocksW ∨ JPEG_DC_MAX_BLOCKS_Y < decoder.lumaBlocksH) ∧
    ∃ mcus mcu mcusBehind before entered, decoder.mcus = mcus ++ mcu :: mcusBehind ∧
      (mcus.foldlM (decodeMcu data decoder) (WalkState.start scanPos)).run = some (.ok before) ∧
      (enterMcu data decoder before).run = some (.ok entered) ∧
        ∃ blocks blocksBehind, mcu = blocks ++ block :: blocksBehind ∧
          (blocks.foldlM (decodeBlock data decoder) entered).run = some (.ok s)

variable {decoder}

theorem storeMean_ne_none_iff {block : ScanBlock} {dc : Int} {mean : Nat → Nat → Nat}
    (hsize : ¬ (JPEG_DC_MAX_BLOCKS_X < decoder.lumaBlocksW ∨
      JPEG_DC_MAX_BLOCKS_Y < decoder.lumaBlocksH)) :
    (storeMean decoder block dc mean).run ≠ none ↔ (Stored decoder block →
      block.component.quantId < 4 ∧ Int32 (dc * decoder.quant block.component.quantId)) := by
  unfold storeMean
  by_cases hstored : Stored decoder block
  · obtain ⟨-, hcolumn, hrow⟩ := id hstored
    rw [if_pos hstored, require_bind_ne_none, int32_bind_ne_none, require_bind_ne_none]
    constructor
    · rintro ⟨hquant, hlevel, -⟩ -
      exact ⟨hquant, hlevel⟩
    · intro h
      obtain ⟨hquant, hlevel⟩ := h hstored
      exact ⟨hquant, hlevel, ⟨by omega, by omega⟩, Option.some_ne_none _⟩
  · rw [if_neg hstored]
    exact ⟨fun _ h => absurd h hstored, fun _ => Option.some_ne_none _⟩

section Formed

variable (formed : Formed decoder) (hsize : ¬ (JPEG_DC_MAX_BLOCKS_X < decoder.lumaBlocksW ∨
  JPEG_DC_MAX_BLOCKS_Y < decoder.lumaBlocksH))
include formed hsize

theorem decodeBlock_ne_none_iff {s : WalkState} {block : ScanBlock} (hindex : block.index < 4) :
    (decodeBlock data decoder s block).run ≠ none ↔ BlockFits data decoder s block := by
  have hfollows := decodeDifference_follows data
    (decoder.huffman (block.component.dcTable * 2)) s.reader
  have hdc := decodeDifference_ne_none_iff data
    (formed.levels (block.component.dcTable * 2)) s.reader
  have hac := skipAc_ne_none data (formed.levels (block.component.acTable * 2 + 1))
    (show 64 ≤ 1 + 63 by omega)
  rw [decodeBlock, require_bind_ne_none, require_bind_ne_none, require_bind_ne_none,
    bind_ne_none_iff, hdc]
  constructor
  · rintro ⟨-, hdcTable, hacTable, hcategory, h⟩
    have hblock : ∀ difference rest, SysAgent.decodeDifference
        (decoder.huffman (block.component.dcTable * 2)) (s.reader.rest data) =
          some (difference, rest) → Int32 (s.prediction block.index + difference) ∧
            (Stored decoder block → block.component.quantId < 4 ∧
              Int32 ((s.prediction block.index + difference) *
                decoder.quant block.component.quantId)) := by
      intro difference rest hmath
      obtain ⟨⟨_, reader⟩, hrun, rfl, -⟩ := hfollows.ok_of_some (hdc.2 hcategory) hmath
      obtain ⟨hprediction, hrest⟩ := (int32_bind_ne_none _ _).1 (h _ hrun)
      exact ⟨hprediction,
        (storeMean_ne_none_iff hsize).1 ((bind_ne_none_iff _ _).1 hrest).1⟩
    exact ⟨by omega, by omega, hcategory, fun difference rest hmath => (hblock _ _ hmath).1,
      fun difference rest hmath hstored => ((hblock _ _ hmath).2 hstored).1,
      fun difference rest hmath hstored => ((hblock _ _ hmath).2 hstored).2⟩
  · intro fits
    have hdcTable := fits.dcTable
    have hacTable := fits.acTable
    refine ⟨hindex, by omega, by omega, fits.category, ?_⟩
    rintro ⟨difference, reader⟩ hrun
    obtain ⟨⟨_, _⟩, hmath, rfl, -⟩ := hfollows.2 _ hrun
    refine (int32_bind_ne_none _ _).2 ⟨fits.prediction _ _ hmath, ?_⟩
    rw [bind_ne_none_iff]
    refine ⟨(storeMean_ne_none_iff hsize).2 fun hstored =>
      ⟨fits.quantId _ _ hmath hstored, fits.level _ _ hmath hstored⟩, fun mean _ => ?_⟩
    rw [bind_ne_none_iff]
    exact ⟨hac reader, fun _ _ => Option.some_ne_none _⟩

omit formed hsize in
theorem enterMcu_ne_none (s : WalkState) : (enterMcu data decoder s).run ≠ none := by
  refine InBounds.run_ne_none (Q := fun _ => True) ?_
  unfold enterMcu restart
  refine inBounds_ite (fun _ => ?_) fun _ => inBounds_pure trivial
  refine inBounds_ite (fun _ => inBounds_throw ()) fun hpos => ?_
  refine (inBounds_access (by omega)).bind fun first _ => ?_
  refine (inBounds_access (by omega)).bind fun second _ => ?_
  exact inBounds_ite (fun _ => inBounds_pure trivial) fun _ => inBounds_throw ()

omit hsize in
/-- The blocks of an MCU are those of the components. -/
theorem index_lt_of_mem_mcus {mcu : List ScanBlock} (hmcu : mcu ∈ decoder.mcus)
    {block : ScanBlock} (hblock : block ∈ mcu) : block.index < 4 := by
  have hcomponent := component_of_mem (List.mem_flatten.2 ⟨mcu, hmcu, hblock⟩)
  obtain ⟨hindex, -⟩ := List.getElem?_eq_some_iff.1 hcomponent
  exact hindex.trans_le formed.components

theorem jpegDecodeScan_ne_none_iff (scanPos : Nat) :
    (jpegDecodeScan data decoder scanPos).run ≠ none ↔
      ∀ s block, Reaches data decoder scanPos s block → BlockFits data decoder s block := by
  have hmcu : ∀ (s : WalkState) mcu, (decodeMcu data decoder s mcu).run ≠ none ↔
      ∀ entered, (enterMcu data decoder s).run = some (.ok entered) →
        (mcu.foldlM (decodeBlock data decoder) entered).run ≠ none := by
    intro s mcu
    rw [decodeMcu, bind_ne_none_iff]
    constructor
    · rintro ⟨-, h⟩ entered hentered
      exact ((bind_ne_none_iff _ _).1 (h entered hentered)).1
    · intro h
      refine ⟨enterMcu_ne_none data s, fun entered hentered => ?_⟩
      exact (bind_ne_none_iff _ _).2 ⟨h entered hentered, fun _ _ => Option.some_ne_none _⟩
  rw [jpegDecodeScan, if_neg hsize, bind_ne_none_iff]
  constructor
  · rintro ⟨hwalk, -⟩ s block ⟨-, mcus, mcu, behind, before, entered, hmcus, hbefore, hentered,
      blocks, blocksBehind, hblocks, hs⟩
    have hmem : mcu ∈ decoder.mcus := by rw [hmcus]; simp
    have hblock : block ∈ mcu := by rw [hblocks]; simp
    refine (decodeBlock_ne_none_iff data formed hsize (index_lt_of_mem_mcus formed hmem hblock)).1 ?_
    have hstep := (foldlM_ne_none_iff _ _ _).1 hwalk mcus mcu behind before hmcus hbefore
    exact (foldlM_ne_none_iff _ _ _).1 ((hmcu before mcu).1 hstep entered hentered) blocks block
      blocksBehind s hblocks hs
  · intro h
    refine ⟨(foldlM_ne_none_iff _ _ _).2 ?_, fun _ _ => Option.some_ne_none _⟩
    intro mcus mcu behind before hmcus hbefore
    refine (hmcu before mcu).2 fun entered hentered => (foldlM_ne_none_iff _ _ _).2 ?_
    intro blocks block blocksBehind s hblocks hs
    have hmem : mcu ∈ decoder.mcus := by rw [hmcus]; simp
    have hblock : block ∈ mcu := by rw [hblocks]; simp
    refine (decodeBlock_ne_none_iff data formed hsize (index_lt_of_mem_mcus formed hmem hblock)).2 ?_
    exact h s block ⟨hsize, mcus, mcu, behind, before, entered, hmcus, hbefore, hentered, blocks,
      blocksBehind, hblocks, hs⟩

end Formed

end Scan

/-- The walker does nothing undefined and ends if each block that the walk comes to fits, and only
    then. -/
theorem jpeg_walker_safe_iff (data : List Nat) :
    (jpegDcDecode data).run ≠ none ↔ ∀ decoder scanPos,
      (jpegReadHeaders data).run = some (.ok (decoder, scanPos)) →
        ∀ s block, Reaches data decoder scanPos s block → BlockFits data decoder s block := by
  have hheaders := inBounds_readHeaders data
  have hscan : ∀ decoder scanPos,
      (jpegReadHeaders data).run = some (.ok (decoder, scanPos)) →
        ((jpegDecodeScan data decoder scanPos).run ≠ none ↔
          ∀ s block, Reaches data decoder scanPos s block → BlockFits data decoder s block) := by
    intro decoder scanPos hrun
    have formed : Formed decoder := hheaders.of_ok hrun
    by_cases hsize : JPEG_DC_MAX_BLOCKS_X < decoder.lumaBlocksW ∨
        JPEG_DC_MAX_BLOCKS_Y < decoder.lumaBlocksH
    · rw [jpegDecodeScan, if_pos hsize]
      exact ⟨fun _ s block hreaches => absurd hsize hreaches.1, fun _ => Option.some_ne_none _⟩
    · exact jpegDecodeScan_ne_none_iff data formed hsize scanPos
  rw [jpegDcDecode, bind_ne_none_iff]
  constructor
  · rintro ⟨-, h⟩ decoder scanPos hrun
    exact (hscan decoder scanPos hrun).1 (h (decoder, scanPos) hrun)
  · intro h
    refine ⟨hheaders.run_ne_none, ?_⟩
    rintro ⟨decoder, scanPos⟩ hrun
    exact (hscan decoder scanPos hrun).2 (h decoder scanPos hrun)

/-- A grey image of one block whose scan header selects the DC table 4 of four. -/
def tableFour : List Nat :=
  [0xFF, 0xD8,
    0xFF, 0xC0, 0x00, 0x0B, 0x08, 0x00, 0x08, 0x00, 0x08, 0x01, 0x01, 0x11, 0x00,
    0xFF, 0xDA, 0x00, 0x08, 0x01, 0x01, 0x40, 0x00, 0x3F, 0x00]

theorem table_four_is_read_outside : (jpegDcDecode tableFour).run = none := by
  rw [← Option.isNone_iff_eq_none]
  decide

end SysAgent.JpegWalker
