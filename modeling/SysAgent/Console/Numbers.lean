import SysAgent.Lib.CNumber
import SysAgent.Lib.Codec

set_option autoImplicit false

/-! # Numeric arguments (`util.c`, `search_value.c`, `search_compare.c`)

Each parser takes a `0x` off the argument and hands the rest to `strtoull`, which skips blanks and
takes a sign and another `0x` itself. `Numeral` is the grammar of the documentation. -/

namespace SysAgent

open CNumber

/-! ## The parsers -/

/-- The base of an argument, and what is left of it behind its `0x`. -/
def splitBase : List UInt8 → Nat × List UInt8
  | zero :: x :: digits =>
    if zero = 0x30 ∧ isX x then (16, digits) else (10, zero :: x :: digits)
  | arg => (10, arg)

/-- What the parsers share; `none` where they give up. -/
def parseDigits (arg : List UInt8) : Option Nat :=
  let (base, digits) := splitBase arg
  if digits = [] then none else wholeNumber base digits

def parseStringToInt (arg : List UInt8) : UInt64 :=
  if arg = [] then 0 else ((parseDigits arg).map UInt64.ofNat).getD 0

def tryParseStringToInt (arg : List UInt8) : Option UInt64 :=
  if arg = [] ∨ arg.head? = some 0x2D then none else (parseDigits arg).map UInt64.ofNat

def searchEncodeUnsigned (text : List UInt8) (width : Nat) : Option (List UInt8) :=
  if text = [] ∨ text.head? = some 0x2D ∨
      (width ≠ 1 ∧ width ≠ 2 ∧ width ≠ 4 ∧ width ≠ 8) then none
  else
    (parseDigits text).bind fun parsed =>
      let value := UInt64.ofNat parsed
      if width < 8 ∧ value ≥ (1 : UInt64) <<< UInt64.ofNat (width * 8) then none
      else some ((List.range width).map fun index =>
        (value >>> UInt64.ofNat (index * 8)).toUInt8)

def searchDecodeUnsigned (value : List UInt8) (width : Nat) : UInt64 :=
  (List.range width).foldl
    (fun result index => result ||| (value.getD index 0).toUInt64 <<< UInt64.ofNat (index * 8)) 0

/-! ## The grammar -/

/-- A run of decimal digits, or `0x` and a run of hexadecimal ones, with its value. -/
inductive Numeral : List UInt8 → Nat → Prop
  | decimal {digits : List UInt8} (nonempty : digits ≠ [])
      (all : ∀ d ∈ digits, isDigitOf 10 d = true) : Numeral digits (number 10 digits)
  | hexadecimal {x : UInt8} {digits : List UInt8} (letter : isX x = true) (nonempty : digits ≠ [])
      (all : ∀ d ∈ digits, isDigitOf 16 d = true) : Numeral (0x30 :: x :: digits) (number 16 digits)

/-- Blanks, a sign or a second `0x` in front of the digits, behind an optional `0x`. -/
def Loosely (text : List UInt8) (value : Nat) : Prop :=
  ∃ base rest blanks sign lead digits,
    (base = 10 ∧ rest = text ∨ base = 16 ∧ ∃ x, isX x = true ∧ text = 0x30 :: x :: rest) ∧
    Spelled base rest blanks sign lead digits ∧ (blanks ≠ [] ∨ sign ≠ [] ∨ lead ≠ []) ∧
    number base digits < 2 ^ 64 ∧ value = signed sign (number base digits)

/-- Such a text, but for a minus zero. -/
def Loose (text : List UInt8) : Prop :=
  ∃ value, Loosely text value ∧ ¬ (text.head? = some 0x2D ∧ value = 0)

section Grammar

variable {text : List UInt8} {value : Nat}

theorem Numeral.ne_nil (h : Numeral text value) : text ≠ [] := by
  cases h with
  | decimal nonempty all => exact nonempty
  | hexadecimal letter nonempty all => exact List.cons_ne_nil _ _

theorem Numeral.head_ne_minus (h : Numeral text value) : text.head? ≠ some 0x2D := by
  cases h with
  | decimal nonempty all =>
    intro hhead
    obtain ⟨rest, rfl⟩ := List.head?_eq_some_iff.1 hhead
    exact (digit_apart (all 0x2D List.mem_cons_self)).2.1 rfl
  | hexadecimal letter nonempty all =>
    intro hhead
    exact absurd (Option.some.inj hhead) (by decide)

/-- A digit string is not taken for one with a prefix. -/
theorem splitBase_decimal (h : ∀ d ∈ text, isDigitOf 10 d = true) : splitBase text = (10, text) := by
  unfold splitBase
  split
  · rename_i zero x digits
    rw [if_neg]
    rintro ⟨-, hx⟩
    rw [(digit_apart (h x (by simp))).2.2.2] at hx
    cases hx
  · rfl

/-- Behind a blank or a sign the base is 10. -/
theorem splitBase_of_front {c : UInt8} {rest : List UInt8} (hc : c ≠ 0x30) :
    splitBase (c :: rest) = (10, c :: rest) := by
  unfold splitBase
  split
  · rename_i zero x digits heq
    obtain ⟨rfl, rfl⟩ := List.cons.inj heq
    rw [if_neg fun h => hc h.1]
  · rfl

theorem splitBase_hexadecimal {x : UInt8} {digits : List UInt8} (hx : isX x = true) :
    splitBase (0x30 :: x :: digits) = (16, digits) := by
  rw [splitBase, if_pos ⟨rfl, hx⟩]

theorem splitBase_cases (text : List UInt8) :
    splitBase text = (10, text) ∨
      ∃ x rest, isX x = true ∧ text = 0x30 :: x :: rest ∧ splitBase text = (16, rest) := by
  unfold splitBase
  split
  · rename_i zero x digits
    split_ifs with h
    · obtain ⟨rfl, hx⟩ := h
      exact Or.inr ⟨x, digits, hx, rfl, rfl⟩
    · exact Or.inl rfl
  · exact Or.inl rfl

/-- In base 10 the front of a loose text is a blank or a sign. -/
theorem front_of_spelled {blanks sign lead digits : List UInt8}
    (h : Spelled 10 text blanks sign lead digits) (hextra : blanks ≠ [] ∨ sign ≠ [] ∨ lead ≠ []) :
    ∃ c rest, text = c :: rest ∧ (isBlank c = true ∨ c = 0x2D ∧ blanks = [] ∧ sign = [0x2D] ∨
      c = 0x2B) := by
  have hlead : lead = [] := by
    rcases h.lead with rfl | ⟨hbase, -⟩
    · rfl
    · cases hbase
  have htext := h.text_eq
  cases blanks with
  | cons b blanks =>
    exact ⟨b, _, htext, Or.inl (h.blanks b List.mem_cons_self)⟩
  | nil =>
    rcases h.sign with rfl | rfl | rfl
    · exact absurd hextra (by simp [hlead])
    · exact ⟨0x2D, _, htext, Or.inr (Or.inl ⟨rfl, rfl, rfl⟩)⟩
    · exact ⟨0x2B, _, htext, Or.inr (Or.inr rfl)⟩

theorem front_ne_zero {c : UInt8}
    (h : isBlank c = true ∨ c = 0x2D ∨ c = 0x2B) : c ≠ 0x30 := by
  rintro rfl
  revert h
  decide

/-- What the shared part of the parsers accepts. -/
theorem parseDigits_eq_some :
    parseDigits text = some value ↔ Numeral text value ∧ value < 2 ^ 64 ∨ Loosely text value := by
  constructor
  · intro h
    rcases splitBase_cases text with hbase | ⟨x, rest, hx, htext, hbase⟩
    · rw [parseDigits, hbase] at h
      simp only at h
      split_ifs at h with hnil
      obtain ⟨blanks, sign, lead, digits, hspelled, hrange, hvalue⟩ := wholeNumber_eq_some.1 h
      by_cases hextra : blanks ≠ [] ∨ sign ≠ [] ∨ lead ≠ []
      · exact Or.inr ⟨10, text, blanks, sign, lead, digits, Or.inl ⟨rfl, rfl⟩, hspelled, hextra,
          hrange, hvalue⟩
      · simp only [not_or, not_not] at hextra
        obtain ⟨rfl, rfl, rfl⟩ := hextra
        have hdigits : text = digits := hspelled.text_eq
        have hplain : value = number 10 digits := hvalue
        rw [hplain, hdigits]
        exact Or.inl ⟨.decimal hspelled.nonempty hspelled.digits, hrange⟩
    · rw [parseDigits, hbase] at h
      simp only at h
      split_ifs at h with hnil
      obtain ⟨blanks, sign, lead, digits, hspelled, hrange, hvalue⟩ := wholeNumber_eq_some.1 h
      by_cases hextra : blanks ≠ [] ∨ sign ≠ [] ∨ lead ≠ []
      · exact Or.inr ⟨16, rest, blanks, sign, lead, digits, Or.inr ⟨rfl, x, hx, htext⟩, hspelled,
          hextra, hrange, hvalue⟩
      · simp only [not_or, not_not] at hextra
        obtain ⟨rfl, rfl, rfl⟩ := hextra
        have hdigits : rest = digits := hspelled.text_eq
        have hplain : value = number 16 digits := hvalue
        rw [hplain, htext, hdigits]
        exact Or.inl ⟨.hexadecimal hx hspelled.nonempty hspelled.digits, hrange⟩
  · rintro (⟨hnumeral, hrange⟩ | ⟨base, rest, blanks, sign, lead, digits, hbase, hspelled, hextra,
      hrange, hvalue⟩)
    · cases hnumeral with
      | decimal nonempty all =>
        rw [parseDigits, splitBase_decimal all]
        simp only
        rw [if_neg nonempty]
        exact wholeNumber_eq_some.2 ⟨[], [], [], text, ⟨rfl, by simp, Or.inl rfl, Or.inl rfl,
          nonempty, all⟩, hrange, rfl⟩
      | @hexadecimal x digits letter nonempty all =>
        rw [parseDigits, splitBase_hexadecimal letter]
        simp only
        rw [if_neg nonempty]
        exact wholeNumber_eq_some.2 ⟨[], [], [], digits, ⟨rfl, by simp, Or.inl rfl, Or.inl rfl,
          nonempty, all⟩, hrange, rfl⟩
    · rcases hbase with ⟨rfl, rfl⟩ | ⟨rfl, x, hx, rfl⟩
      · obtain ⟨c, after, htext, hfront⟩ := front_of_spelled hspelled hextra
        have hc : c ≠ 0x30 := front_ne_zero (hfront.imp_right fun h => h.imp_left And.left)
        have hsplit : splitBase rest = (10, rest) := by
          rw [htext]
          exact splitBase_of_front hc
        rw [parseDigits, hsplit]
        simp only
        rw [if_neg hspelled.ne_nil]
        exact wholeNumber_eq_some.2 ⟨blanks, sign, lead, digits, hspelled, hrange, hvalue⟩
      · rw [parseDigits, splitBase_hexadecimal hx]
        simp only
        rw [if_neg hspelled.ne_nil]
        exact wholeNumber_eq_some.2 ⟨blanks, sign, lead, digits, hspelled, hrange, hvalue⟩

/-- The extra characters are no digits. -/
theorem extra_not_digits {base : Nat} {blanks sign lead digits : List UInt8}
    (h : Spelled base text blanks sign lead digits)
    (hextra : blanks ≠ [] ∨ sign ≠ [] ∨ lead ≠ []) :
    ∃ c ∈ text, ∀ base', isDigitOf base' c = false := by
  have hnone : ∀ {c : UInt8}, (isBlank c = true ∨ c = 0x2D ∨ c = 0x2B ∨ isX c = true) →
      ∀ base', isDigitOf base' c = false := by
    intro c hc base'
    by_contra hdigit
    obtain ⟨hblank, hminus, hplus, hx⟩ := digit_apart (Bool.not_eq_false _ ▸ hdigit)
    rcases hc with hc | hc | hc | hc
    · rw [hblank] at hc
      cases hc
    · exact hminus hc
    · exact hplus hc
    · rw [hx] at hc
      cases hc
  rcases hextra with hextra | hextra | hextra
  · obtain ⟨b, hb⟩ := List.exists_mem_of_ne_nil _ hextra
    exact ⟨b, by rw [h.text_eq]; simp [hb], hnone (Or.inl (h.blanks b hb))⟩
  · rcases h.sign with hsign | hsign | hsign
    · exact absurd hsign hextra
    · exact ⟨0x2D, by rw [h.text_eq, hsign]; simp, hnone (by simp)⟩
    · exact ⟨0x2B, by rw [h.text_eq, hsign]; simp, hnone (by simp)⟩
  · rcases h.lead with hlead | ⟨-, x, hx, hlead⟩
    · exact absurd hlead hextra
    · exact ⟨x, by rw [h.text_eq, hlead]; simp, hnone (by simp [hx])⟩

/-- A loose text is not in the grammar. -/
theorem Loosely.not_numeral (h : Loosely text value) (n : Nat) : ¬ Numeral text n := by
  obtain ⟨base, rest, blanks, sign, lead, digits, hbase, hspelled, hextra, -, -⟩ := h
  obtain ⟨c, hc, hnone⟩ := extra_not_digits hspelled hextra
  intro hnumeral
  rcases hbase with ⟨rfl, rfl⟩ | ⟨rfl, x, hx, rfl⟩
  · cases hnumeral with
    | decimal nonempty all =>
      have hall := all c hc
      rw [hnone] at hall
      cases hall
    | hexadecimal letter nonempty all =>
      obtain ⟨c', after, htext, hfront⟩ := front_of_spelled hspelled hextra
      obtain ⟨rfl, -⟩ := List.cons.inj htext
      exact front_ne_zero (hfront.imp_right fun h => h.imp_left And.left) rfl
  · cases hnumeral with
    | decimal nonempty all =>
      have hx' := (digit_apart (all x (by simp))).2.2.2
      rw [hx] at hx'
      cases hx'
    | hexadecimal letter nonempty all =>
      have hall := all c hc
      rw [hnone] at hall
      cases hall

theorem Loosely.lt (h : Loosely text value) : value < 2 ^ 64 := by
  obtain ⟨base, rest, blanks, sign, lead, digits, -, -, -, hrange, rfl⟩ := h
  unfold signed
  split_ifs
  · exact Nat.mod_lt _ (by decide)
  · exact hrange

end Grammar

/-! ## Values in memory -/

theorem leBytes_eq_map (width n : Nat) :
    Codec.leBytes width n = (List.range width).map fun i => UInt8.ofNat (n / 256 ^ i) := by
  induction width generalizing n with
  | zero => rfl
  | succ width ih =>
    rw [Codec.leBytes, ih, List.range_succ_eq_map, List.map_cons, List.map_map, Nat.pow_zero,
      Nat.div_one]
    refine congrArg _ (List.map_congr_left fun i _ => ?_)
    simp only [Function.comp, Nat.pow_succ', Nat.div_div_eq_div_mul]

theorem leNat_succ (k : Nat) (bytes : List UInt8) :
    Codec.leNat (k + 1) bytes = Codec.leNat k bytes + 256 ^ k * (bytes.getD k 0).toNat := by
  induction k generalizing bytes with
  | zero => cases bytes <;> simp [Codec.leNat]
  | succ k ih =>
    cases bytes with
    | nil => simp [Codec.leNat]
    | cons b bytes =>
      rw [Codec.leNat, ih, Codec.leNat, Nat.pow_succ', List.getD_cons_succ]
      ring

theorem toUInt8_shiftRight (value : UInt64) {index : Nat} (h : index < 8) :
    (value >>> UInt64.ofNat (index * 8)).toUInt8 = UInt8.ofNat (value.toNat / 256 ^ index) := by
  have hshift : (UInt64.ofNat (index * 8)).toNat % 64 = 8 * index := by
    rw [UInt64.toNat_ofNat']
    omega
  apply UInt8.toNat_inj.1
  rw [UInt64.toNat_toUInt8, UInt64.toNat_shiftRight, hshift, Nat.shiftRight_eq_div_pow,
    UInt8.toNat_ofNat', Nat.pow_mul]

/-- What the encoder writes for a value. -/
theorem encodedBytes (value : UInt64) {width : Nat} (h : width ≤ 8) :
    ((List.range width).map fun index => (value >>> UInt64.ofNat (index * 8)).toUInt8) =
      Codec.leBytes width value.toNat := by
  rw [leBytes_eq_map]
  refine List.map_congr_left fun index hindex => toUInt8_shiftRight value ?_
  exact lt_of_lt_of_le (List.mem_range.1 hindex) h

theorem searchDecodeUnsigned_eq (value : List UInt8) {width : Nat} (h : width ≤ 8) :
    (searchDecodeUnsigned value width).toNat = Codec.leNat width value := by
  unfold searchDecodeUnsigned
  induction width with
  | zero => rfl
  | succ width ih =>
    have hrest := ih (by omega)
    have hlow : Codec.leNat width value < 2 ^ (8 * width) := by
      rw [Nat.pow_mul]
      exact Codec.leNat_lt width value
    have hbyte := (value.getD width 0).toNat_lt
    have hshift : (UInt64.ofNat (width * 8)).toNat % 64 = 8 * width := by
      rw [UInt64.toNat_ofNat']
      omega
    have hhigh : (value.getD width 0).toNat * 2 ^ (8 * width) < 2 ^ 64 := by
      calc (value.getD width 0).toNat * 2 ^ (8 * width)
          < 2 ^ 8 * 2 ^ (8 * width) := Nat.mul_lt_mul_of_pos_right hbyte (Nat.two_pow_pos _)
        _ = 2 ^ (8 + 8 * width) := (Nat.pow_add 2 8 (8 * width)).symm
        _ ≤ 2 ^ 64 := Nat.pow_le_pow_right (by decide) (by omega)
    rw [List.range_succ, List.foldl_append, List.foldl_cons, List.foldl_nil, UInt64.toNat_or,
      hrest, UInt64.toNat_shiftLeft, hshift, UInt8.toNat_toUInt64, Nat.shiftLeft_eq,
      Nat.mod_eq_of_lt hhigh, leNat_succ, Nat.lor_comm, Nat.mul_comm,
      ← Nat.two_pow_add_eq_or_of_lt hlow, Nat.pow_mul, Nat.add_comm]

/-! ## The law -/

def encodeWidths : List Nat := [1, 2, 4, 8]

/-- What the documentation says of an argument. -/
structure NumericLaw (text : List UInt8) : Prop where
  tries : ∀ value, tryParseStringToInt text = some value ↔ Numeral text value.toNat
  encodes : ∀ width ∈ encodeWidths, ∀ bytes, searchEncodeUnsigned text width = some bytes ↔
    ∃ value, Numeral text value ∧ value < 2 ^ (8 * width) ∧ bytes = Codec.leBytes width value
  decodes : ∀ width ∈ encodeWidths, ∀ bytes, searchEncodeUnsigned text width = some bytes →
    Numeral text (searchDecodeUnsigned bytes width).toNat
  parses : ∀ value : UInt64, Numeral text value.toNat → parseStringToInt text = value
  parses_zero : (∀ value : UInt64, ¬ Numeral text value.toNat) → parseStringToInt text = 0

section Law

variable {text : List UInt8}

theorem width_cases {width : Nat} (h : width ∈ encodeWidths) :
    width = 1 ∨ width = 2 ∨ width = 4 ∨ width = 8 := by
  simpa [encodeWidths] using h

/-- A minus sign in front makes a loose text of any number. -/
theorem not_loose_value (hloose : ¬ Loose text) {value : Nat} (h : Loosely text value) :
    text.head? = some 0x2D ∧ value = 0 := by
  by_contra hne
  exact hloose ⟨value, h, hne⟩

theorem tryParseStringToInt_eq (hloose : ¬ Loose text) {value : UInt64} :
    tryParseStringToInt text = some value ↔ Numeral text value.toNat := by
  unfold tryParseStringToInt
  split_ifs with hrefused
  · refine iff_of_false (by simp) fun hnumeral => ?_
    rcases hrefused with hnil | hminus
    · exact hnumeral.ne_nil hnil
    · exact hnumeral.head_ne_minus hminus
  · rw [not_or] at hrefused
    rw [Option.map_eq_some_iff]
    constructor
    · rintro ⟨parsed, hparsed, rfl⟩
      rcases parseDigits_eq_some.1 hparsed with ⟨hnumeral, hrange⟩ | hloosely
      · rwa [UInt64.toNat_ofNat', Nat.mod_eq_of_lt hrange]
      · exact absurd (not_loose_value hloose hloosely).1 hrefused.2
    · intro hnumeral
      exact ⟨value.toNat, parseDigits_eq_some.2 (Or.inl ⟨hnumeral, value.toNat_lt⟩),
        UInt64.ofNat_toNat⟩

/-- The check of the width. -/
theorem encode_range {width : Nat} (hwidth : width ∈ encodeWidths) (value : UInt64) :
    (width < 8 ∧ value ≥ (1 : UInt64) <<< UInt64.ofNat (width * 8)) ↔
      ¬ value.toNat < 2 ^ (8 * width) := by
  have hlt := value.toNat_lt
  rw [ge_iff_le, UInt64.le_iff_toNat_le]
  rcases width_cases hwidth with rfl | rfl | rfl | rfl
  · exact ⟨fun h => not_lt.2 h.2, fun h => ⟨by decide, not_lt.1 h⟩⟩
  · exact ⟨fun h => not_lt.2 h.2, fun h => ⟨by decide, not_lt.1 h⟩⟩
  · exact ⟨fun h => not_lt.2 h.2, fun h => ⟨by decide, not_lt.1 h⟩⟩
  · exact ⟨fun h => absurd h.1 (by decide), fun h => absurd hlt h⟩

/-- The encoder is the parser, the check of the width and the bytes. -/
theorem searchEncodeUnsigned_eq {width : Nat} (hwidth : width ∈ encodeWidths)
    {bytes : List UInt8} :
    searchEncodeUnsigned text width = some bytes ↔ ∃ value, tryParseStringToInt text = some value ∧
      value.toNat < 2 ^ (8 * width) ∧ bytes = Codec.leBytes width value.toNat := by
  have hvalid : ¬ (width ≠ 1 ∧ width ≠ 2 ∧ width ≠ 4 ∧ width ≠ 8) := by
    rcases width_cases hwidth with rfl | rfl | rfl | rfl <;> decide
  have hle : width ≤ 8 := by
    rcases width_cases hwidth with rfl | rfl | rfl | rfl <;> decide
  unfold searchEncodeUnsigned tryParseStringToInt
  by_cases hrefused : text = [] ∨ text.head? = some 0x2D
  · rw [if_pos hrefused, if_pos (hrefused.imp_right Or.inl)]
    simp
  · rw [not_or] at hrefused
    rw [if_neg (not_or.2 hrefused), if_neg (not_or.2 ⟨hrefused.1, not_or.2 ⟨hrefused.2, hvalid⟩⟩)]
    simp only [Option.bind_eq_some_iff, Option.map_eq_some_iff, encode_range hwidth,
      encodedBytes _ hle, Option.ite_none_left_eq_some, not_not, Option.some.injEq]
    constructor
    · rintro ⟨parsed, hparsed, hrange, rfl⟩
      exact ⟨_, ⟨parsed, hparsed, rfl⟩, hrange, rfl⟩
    · rintro ⟨value, ⟨parsed, hparsed, rfl⟩, hrange, rfl⟩
      exact ⟨parsed, hparsed, hrange, rfl⟩

theorem numericLaw_of_not_loose (hloose : ¬ Loose text) : NumericLaw text where
  tries value := tryParseStringToInt_eq hloose
  encodes := by
    intro width hwidth bytes
    rw [searchEncodeUnsigned_eq hwidth]
    constructor
    · rintro ⟨value, hvalue, hrange, hbytes⟩
      exact ⟨value.toNat, (tryParseStringToInt_eq hloose).1 hvalue, hrange, hbytes⟩
    · rintro ⟨value, hnumeral, hrange, hbytes⟩
      have hlt : value < 2 ^ 64 := by
        refine lt_of_lt_of_le hrange (Nat.pow_le_pow_right (by decide) ?_)
        rcases width_cases hwidth with rfl | rfl | rfl | rfl <;> decide
      have htoNat : (UInt64.ofNat value).toNat = value := by
        rw [UInt64.toNat_ofNat', Nat.mod_eq_of_lt hlt]
      exact ⟨UInt64.ofNat value, (tryParseStringToInt_eq hloose).2 (htoNat.symm ▸ hnumeral),
        htoNat.symm ▸ hrange, htoNat.symm ▸ hbytes⟩
  decodes := by
    intro width hwidth bytes h
    obtain ⟨value, hvalue, hrange, rfl⟩ := (searchEncodeUnsigned_eq hwidth).1 h
    have hle : width ≤ 8 := by
      rcases width_cases hwidth with rfl | rfl | rfl | rfl <;> decide
    have hback := Codec.leNat_leBytes_append width value.toNat []
    have hpow : (256 : Nat) ^ width = 2 ^ (8 * width) := (Nat.pow_mul 2 8 width).symm
    rw [List.append_nil, hpow, Nat.mod_eq_of_lt hrange] at hback
    rw [searchDecodeUnsigned_eq _ hle, hback]
    exact (tryParseStringToInt_eq hloose).1 hvalue
  parses := by
    intro value hnumeral
    have hparsed := parseDigits_eq_some.2 (Or.inl ⟨hnumeral, value.toNat_lt⟩)
    rw [parseStringToInt, if_neg hnumeral.ne_nil, hparsed]
    exact UInt64.ofNat_toNat
  parses_zero := by
    intro hnone
    unfold parseStringToInt
    split_ifs with hnil
    · rfl
    · cases hparsed : parseDigits text with
      | none => rfl
      | some parsed =>
        rcases parseDigits_eq_some.1 hparsed with ⟨hnumeral, hrange⟩ | hloosely
        · refine absurd ?_ (hnone (UInt64.ofNat parsed))
          rwa [UInt64.toNat_ofNat', Nat.mod_eq_of_lt hrange]
        · rw [(not_loose_value hloose hloosely).2]
          rfl

theorem not_loose_of_numericLaw (law : NumericLaw text) : ¬ Loose text := by
  rintro ⟨value, hloosely, hvalue⟩
  have hparsed : parseDigits text = some value := parseDigits_eq_some.2 (Or.inr hloosely)
  have hne : text ≠ [] := by
    rintro rfl
    cases hparsed
  by_cases hminus : text.head? = some 0x2D
  · have hzero := law.parses_zero fun n => hloosely.not_numeral n.toNat
    rw [parseStringToInt, if_neg hne, hparsed] at hzero
    have htoNat := congrArg UInt64.toNat hzero
    rw [Option.map_some, Option.getD_some, UInt64.toNat_ofNat', Nat.mod_eq_of_lt hloosely.lt]
      at htoNat
    exact hvalue ⟨hminus, htoNat⟩
  · have htried : tryParseStringToInt text = some (UInt64.ofNat value) := by
      rw [tryParseStringToInt, if_neg (not_or.2 ⟨hne, hminus⟩), hparsed]
      rfl
    exact hloosely.not_numeral _ ((law.tries _).1 htried)

end Law

/-- The parsers keep to the grammar exactly on the texts that are not loose. -/
theorem numeric_arguments_iff (text : List UInt8) : NumericLaw text ↔ ¬ Loose text :=
  ⟨not_loose_of_numericLaw, numericLaw_of_not_loose⟩

/-- `0x-1` is the largest address. -/
theorem inner_sign_accepted : ¬ NumericLaw [0x30, 0x78, 0x2D, 0x31] := by
  intro law
  have htried : tryParseStringToInt [0x30, 0x78, 0x2D, 0x31] = some (2 ^ 64 - 1) := by
    decide +kernel
  have hnumeral := (law.tries _).1 htried
  generalize (2 ^ 64 - 1 : UInt64).toNat = n at hnumeral
  cases hnumeral with
  | decimal nonempty all => exact absurd (all 0x2D (by simp)) (by decide)
  | hexadecimal letter nonempty all => exact absurd (all 0x2D (by simp)) (by decide)

end SysAgent
