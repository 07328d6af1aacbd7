import SysAgent.Console.Arguments

set_option autoImplicit false

/-! # Snapshot specifications (`debug_trace_model.c`)

A specification is a register, an optional offset and a size. The parser cuts the text at the first
colon and at the first sign before it; the number parsers skip blanks and take a sign and a second
`0x` behind the first. What is accepted prints as a text of the grammar and is read back. -/

namespace SysAgent

open CNumber

/-! ## The address -/

def UINT64_MAX_VALUE : UInt64 := 0xFFFFFFFFFFFFFFFF

/-- `debugTraceSnapshotSpecIsValid`; the base is one of the four. -/
def debugTraceSnapshotSpecIsValid (spec : DebugTraceSnapshotSpec) : Bool :=
  match spec.base, spec.registerIndex with
  | .gpr, index =>
    decide (index ≤ 30) && (decide (0 < spec.size) && decide (spec.size.toNat ≤ 0x100))
  | _, _ => decide (0 < spec.size) && decide (spec.size.toNat ≤ 0x100)

/-- The registers of a thread. -/
structure SnapshotRegisters where
  gprs : UInt8 → UInt64
  sp : UInt64
  pc : UInt64
  lr : UInt64

/-- The register of a specification. -/
def SnapshotRegisters.base (registers : SnapshotRegisters) (spec : DebugTraceSnapshotSpec) :
    UInt64 :=
  match spec.base with
  | .gpr => registers.gprs spec.registerIndex
  | .sp => registers.sp
  | .pc => registers.pc
  | .lr => registers.lr

/-- `debugTraceComputeSnapshotAddress`; the offset is an `int64_t`. -/
def debugTraceComputeSnapshotAddress (spec : DebugTraceSnapshotSpec)
    (registers : SnapshotRegisters) : Option UInt64 :=
  if !debugTraceSnapshotSpecIsValid spec then none
  else
    let base := registers.base spec
    if 0 ≤ spec.offset then
      let offset := UInt64.ofNat spec.offset.toNat
      if UINT64_MAX_VALUE - offset < base then none else some (base + offset)
    else
      let magnitude := UInt64.ofNat (-(spec.offset + 1)).toNat + 1
      if base < magnitude then none else some (base - magnitude)

/-! ## The grammar -/

/-- The bytes of a text that is printed. -/
def textBytes (text : List Char) : List UInt8 :=
  text.map fun c => UInt8.ofNat c.toNat

/-- `x0` to `x30`, `sp`, `pc` or `lr`. -/
inductive RegisterText : List UInt8 → SnapshotBase → UInt8 → Prop
  | gpr {index : Nat} (h : index ≤ 30) :
    RegisterText (0x78 :: textBytes (dec index)) .gpr (UInt8.ofNat index)
  | sp : RegisterText (wordBytes "sp") .sp 0
  | pc : RegisterText (wordBytes "pc") .pc 0
  | lr : RegisterText (wordBytes "lr") .lr 0

/-- Nothing, or a sign and a number of at most `2^63 - 1`. -/
inductive OffsetText : List UInt8 → Int → Prop
  | none : OffsetText [] 0
  | plus {digits : List UInt8} {n : Nat} (numeral : Numeral digits n) (h : n < 2 ^ 63) :
    OffsetText (0x2B :: digits) n
  | minus {digits : List UInt8} {n : Nat} (numeral : Numeral digits n) (h : n < 2 ^ 63) :
    OffsetText (0x2D :: digits) (-n)

/-- A number from 1 to 256. -/
def SizeText (text : List UInt8) (n : Nat) : Prop :=
  Numeral text n ∧ 0 < n ∧ n ≤ 0x100

/-- A text of the grammar, and what it says. -/
def SpecText (text : List UInt8) (spec : DebugTraceSnapshotSpec) : Prop :=
  ∃ register offset size n, text = register ++ (offset ++ 0x3A :: size) ∧
    RegisterText register spec.base spec.registerIndex ∧ OffsetText offset spec.offset ∧
      SizeText size n ∧ spec.size = UInt32.ofNat n

/-! ## The other texts that are accepted -/

/-- A number text with blanks, a sign or a second `0x` behind its first character. -/
def LooseNumber (text : List UInt8) (value : Nat) : Prop :=
  Loosely text value ∧ text.head? ≠ some 0x2B ∧ text.head? ≠ some 0x2D

/-- An index with a leading zero or a blank. -/
def LooseRegister (text : List UInt8) (index : Nat) : Prop :=
  ∃ digits, text = 0x78 :: digits ∧ digits.length ≤ 2 ∧ index ≤ 30 ∧
    (Numeral digits index ∧ digits ≠ textBytes (dec index) ∨ LooseNumber digits index)

/-- An offset of which the number is a loose one. -/
def LooseOffset (text : List UInt8) : Prop :=
  ∃ sign digits value, text = sign :: digits ∧ isSign sign = true ∧ digits.length < 64 ∧
    LooseNumber digits value ∧ value < 2 ^ 63

/-- An offset that the buffer of the parser has no room for. -/
def LongOffset (text : List UInt8) : Prop :=
  ∃ value, OffsetText text value ∧ 64 < text.length

def LooseSize (text : List UInt8) : Prop :=
  ∃ value, LooseNumber text value ∧ 0 < value ∧ value ≤ 0x100

/-- The parts of a text: no sign in the register, no colon before the size. -/
structure SpecCut (text register offset size : List UInt8) : Prop where
  text_eq : text = register ++ (offset ++ 0x3A :: size)
  plain : ∀ b ∈ register, isSign b = false ∧ b ≠ 0x3A
  noColon : 0x3A ∉ offset
  sign : offset = [] ∨ ∃ sign rest, isSign sign = true ∧ offset = sign :: rest

/-- A text with a loose part, or with an offset that is too long. -/
def LooseSpec (text : List UInt8) : Prop :=
  ∃ register offset size, SpecCut text register offset size ∧
    (((∃ base index, RegisterText register base index) ∨ ∃ index, LooseRegister register index) ∧
        (((∃ value, OffsetText offset value) ∧ ¬ LongOffset offset) ∨ LooseOffset offset) ∧
        ((∃ n, SizeText size n) ∨ LooseSize size) ∧
        ((∃ index, LooseRegister register index) ∨ LooseOffset offset ∨ LooseSize size) ∨
      (∃ base index, RegisterText register base index) ∧ LongOffset offset ∧
        ∃ n, SizeText size n)

/-! ## Numbers -/

/-- What the number parser accepts. -/
theorem debugTraceParseUnsigned_eq_some {text : List UInt8} {value : Nat} :
    debugTraceParseUnsigned text = some value ↔
      Numeral text value ∧ value < 2 ^ 64 ∨ LooseNumber text value := by
  unfold debugTraceParseUnsigned LooseNumber
  split_ifs with hfront
  · simp only [false_iff, not_or, not_and]
    rcases hfront with rfl | hplus | hminus
    · refine ⟨fun h => absurd rfl h.ne_nil, fun hloose => ?_⟩
      have hsome := parseDigits_eq_some.2 (.inr hloose)
      cases hsome
    · refine ⟨fun h => ?_, fun _ hne => absurd hplus hne⟩
      exfalso
      cases h with
      | decimal nonempty all =>
        obtain ⟨rest, rfl⟩ := List.head?_eq_some_iff.1 hplus
        exact (digit_apart (all 0x2B List.mem_cons_self)).2.2.1 rfl
      | hexadecimal letter nonempty all => exact absurd (Option.some.inj hplus) (by decide)
    · exact ⟨fun h => absurd hminus h.head_ne_minus, fun _ _ hne => hne hminus⟩
  · rw [not_or, not_or] at hfront
    rw [parseDigits_eq_some]
    simp [hfront.2.1, hfront.2.2]

theorem loose_not_numeral {text : List UInt8} {value : Nat} (h : LooseNumber text value) (n : Nat) :
    ¬ Numeral text n :=
  h.1.not_numeral n

/-- A printed digit. -/
theorem digitValue_digitChar {d : Nat} (h : d < 16) :
    digitValue (UInt8.ofNat (digitChar d).toNat) = some d := by
  have hall : ∀ d < 16, digitValue (UInt8.ofNat (digitChar d).toNat) = some d := by decide
  exact hall d h

/-- A printed number is one of the grammar. -/
theorem digits_formatBase {base : Nat} (hlow : 1 < base) (hhigh : base ≤ 16) (n : Nat) :
    textBytes (formatBase base n) ≠ [] ∧
      (∀ b ∈ textBytes (formatBase base n), isDigitOf base b = true) ∧
      number base (textBytes (formatBase base n)) = n := by
  by_cases hzero : n = 0
  · subst hzero
    refine ⟨by simp [textBytes, formatBase], fun b hb => ?_, by simp [textBytes, formatBase, number,
      digitValue]⟩
    have hb : b = 0x30 := by simpa [textBytes, formatBase] using hb
    rw [hb, isDigitOf]
    simp [digitValue]
    omega
  · have hbytes : textBytes (formatBase base n) =
        (Nat.digits base n).reverse.map fun d => UInt8.ofNat (digitChar d).toNat := by
      rw [textBytes, formatBase, if_neg hzero, List.map_map]
      rfl
    have hvalue : ∀ d ∈ Nat.digits base n,
        digitValue (UInt8.ofNat (digitChar d).toNat) = some d := fun d hd =>
      digitValue_digitChar (lt_of_lt_of_le (Nat.digits_lt_base hlow hd) hhigh)
    rw [hbytes]
    refine ⟨?_, fun b hb => ?_, ?_⟩
    · simpa using Nat.digits_ne_nil_iff_ne_zero.2 hzero
    · obtain ⟨d, hd, rfl⟩ := List.mem_map.1 hb
      rw [List.mem_reverse] at hd
      rw [isDigitOf, hvalue d hd]
      simpa using Nat.digits_lt_base hlow hd
    · have hfold : ∀ ds : List Nat, (∀ d ∈ ds,
          digitValue (UInt8.ofNat (digitChar d).toNat) = some d) →
            number base (ds.reverse.map fun d => UInt8.ofNat (digitChar d).toNat) =
              Nat.ofDigits base ds := by
        intro ds hds
        induction ds with
        | nil => rfl
        | cons d ds ih =>
          rw [List.reverse_cons, List.map_append, number, List.foldl_append, ← number,
            ih fun e he => hds e (List.mem_cons_of_mem d he), Nat.ofDigits_cons]
          simp only [List.map_cons, List.map_nil, List.foldl_cons, List.foldl_nil,
            hds d List.mem_cons_self, Option.getD_some]
          ring
      rw [hfold _ hvalue, Nat.ofDigits_digits]

theorem numeral_hex (n : Nat) : Numeral (textBytes (hex n)) n := by
  obtain ⟨hnonempty, hdigits, hnumber⟩ := digits_formatBase (by decide : 1 < 16) (le_refl 16) n
  have hbytes : textBytes (hex n) = 0x30 :: 0x78 :: textBytes (formatBase 16 n) := rfl
  rw [hbytes]
  conv_rhs => rw [← hnumber]
  exact .hexadecimal (by decide) hnonempty hdigits

theorem numeral_dec (n : Nat) : Numeral (textBytes (dec n)) n := by
  obtain ⟨hnonempty, hdigits, hnumber⟩ := digits_formatBase (by decide : 1 < 10) (by decide) n
  have hnumeral := Numeral.decimal hnonempty hdigits
  rwa [hnumber] at hnumeral

/-- Eighteen characters hold any 64-bit number. -/
theorem length_hex {n : Nat} (h : n < 2 ^ 64) : (textBytes (hex n)).length ≤ 18 := by
  have hbytes : (textBytes (hex n)).length = (formatBase 16 n).length + 2 := by
    simp [textBytes, hex]
  rw [hbytes, formatBase]
  split_ifs with hzero
  · simp
  · rw [List.length_map, List.length_reverse]
    have := (Nat.digits_length_le_iff (by decide : 1 < 16) n (k := 16)).2 (by omega)
    omega

/-! ## The parts -/

/-- What the parser makes of the offset. -/
def readOffset : List UInt8 → Option Int
  | [] => some 0
  | sign :: digits =>
    (debugTraceParseUnsignedRange digits).bind fun magnitude =>
      if 2 ^ 63 ≤ magnitude then none
      else some (if sign = 0x2D then -(magnitude : Int) else magnitude)

section Parts

variable {text register offset size : List UInt8}

/-- A text with a colon has parts. -/
theorem exists_cut (h : 0x3A ∈ text) : ∃ register offset size, SpecCut text register offset size := by
  have hsplit := List.takeWhile_append_dropWhile (p := fun b => decide (b ≠ 0x3A)) (l := text)
  have hfront := List.takeWhile_append_dropWhile (p := fun b => !isSign b)
    (l := text.takeWhile fun b => decide (b ≠ 0x3A))
  have hnone : ∀ b ∈ text.takeWhile fun b => decide (b ≠ 0x3A), b ≠ 0x3A := fun b hb => by
    simpa using List.mem_takeWhile_imp hb
  obtain ⟨size, hsize⟩ : ∃ size, (text.dropWhile fun b => decide (b ≠ 0x3A)) = 0x3A :: size := by
    cases hrest : text.dropWhile fun b => decide (b ≠ 0x3A) with
    | nil =>
      rw [hrest, List.append_nil] at hsplit
      rw [← hsplit] at h
      exact absurd rfl (hnone _ h)
    | cons b size =>
      have hb := List.head?_dropWhile_not (fun b => decide (b ≠ 0x3A)) text
      rw [hrest] at hb
      simp only [List.head?_cons] at hb
      have hcolon : b = 0x3A := by simpa using hb
      exact ⟨size, by rw [hcolon]⟩
  refine ⟨(text.takeWhile fun b => decide (b ≠ 0x3A)).takeWhile fun b => !isSign b,
    (text.takeWhile fun b => decide (b ≠ 0x3A)).dropWhile fun b => !isSign b, size,
    ⟨?_, fun b hb => ⟨?_, ?_⟩, fun hmem => ?_, ?_⟩⟩
  · rw [← List.append_assoc, hfront, ← hsize, hsplit]
  · simpa using List.mem_takeWhile_imp hb
  · exact hnone b ((List.takeWhile_sublist _).subset hb)
  · exact hnone _ ((List.dropWhile_sublist _).subset hmem) rfl
  · cases hrest : (text.takeWhile fun b => decide (b ≠ 0x3A)).dropWhile fun b => !isSign b with
    | nil => exact .inl rfl
    | cons b rest =>
      have hb := List.head?_dropWhile_not (fun b => !isSign b)
        (text.takeWhile fun b => decide (b ≠ 0x3A))
      rw [hrest] at hb
      simp only [List.head?_cons] at hb
      exact .inr ⟨b, rest, by simpa using hb, rfl⟩

/-- The parts of a text are determined by it. -/
theorem SpecCut.pieces (h : SpecCut text register offset size) :
    (text.takeWhile (· ≠ 0x3A)) = register ++ offset ∧
      (text.dropWhile (· ≠ 0x3A)) = 0x3A :: size ∧
      ((register ++ offset).takeWhile fun b => !isSign b) = register ∧
      ((register ++ offset).dropWhile fun b => !isSign b) = offset := by
  have hnone : ∀ b ∈ register ++ offset, decide (b ≠ 0x3A) = true := by
    intro b hb
    rcases List.mem_append.1 hb with hb | hb
    · simpa using (h.plain b hb).2
    · simpa using fun heq : b = 0x3A => h.noColon (heq ▸ hb)
  have hsign : ∀ b ∈ register, (!isSign b) = true := fun b hb => by
    rw [(h.plain b hb).1]
    rfl
  have htext : text = (register ++ offset) ++ 0x3A :: size := by
    rw [h.text_eq, List.append_assoc]
  refine ⟨?_, ?_, ?_, ?_⟩
  · rw [htext, List.takeWhile_append_of_pos hnone]
    simp
  · rw [htext, List.dropWhile_append_of_pos hnone]
    simp
  · rw [List.takeWhile_append_of_pos hsign]
    rcases h.sign with rfl | ⟨sign, rest, hsign, rfl⟩
    · simp
    · simp [hsign]
  · rw [List.dropWhile_append_of_pos hsign]
    rcases h.sign with rfl | ⟨sign, rest, hsign, rfl⟩
    · simp
    · simp [hsign]

theorem SpecCut.unique {register' offset' size' : List UInt8}
    (h : SpecCut text register offset size) (h' : SpecCut text register' offset' size') :
    register = register' ∧ offset = offset' ∧ size = size' := by
  obtain ⟨htake, hdrop, hregister, hoffset⟩ := h.pieces
  obtain ⟨htake', hdrop', hregister', hoffset'⟩ := h'.pieces
  rw [htake] at htake'
  rw [hdrop] at hdrop'
  rw [← htake', hregister] at hregister'
  rw [← htake', hoffset] at hoffset'
  exact ⟨hregister', hoffset', (List.cons.inj hdrop').2⟩

/-- The parser by the parts of the text. -/
theorem SpecCut.parse_eq_some (h : SpecCut text register offset size)
    {spec : DebugTraceSnapshotSpec} :
    debugTraceParseSnapshotSpec text = some spec ↔ ∃ n base index value,
      debugTraceParseUnsigned size = some n ∧ 0 < n ∧ n ≤ 0x100 ∧
        parseRegisterName register = some (base, index) ∧ readOffset offset = some value ∧
        spec = ⟨base, index, value, UInt32.ofNat n⟩ := by
  obtain ⟨htake, hdrop, hregister, hoffset⟩ := h.pieces
  unfold debugTraceParseSnapshotSpec
  simp only [htake, hdrop, hregister, hoffset, List.drop_succ_cons, List.drop_zero, reduceCtorEq,
    false_or]
  by_cases hempty : register ++ offset = []
  · rw [if_pos hempty]
    simp only [reduceCtorEq, false_iff]
    rintro ⟨n, base, index, value, -, -, -, hname, -⟩
    obtain ⟨rfl, rfl⟩ := List.append_eq_nil_iff.1 hempty
    simp [parseRegisterName, wordBytes] at hname
  · rw [if_neg hempty]
    cases hsize : debugTraceParseUnsigned size with
    | none => simp
    | some n =>
      cases hname : parseRegisterName register with
      | none => simp
      | some named =>
        obtain ⟨base, index⟩ := named
        simp only [Option.bind_eq_bind, Option.bind_some, Option.some.injEq, Prod.mk.injEq,
          DEBUG_TRACE_SNAPSHOT_BYTES_MAX]
        by_cases hrange : n = 0 ∨ 0x100 < n
        · rw [if_pos hrange]
          simp only [reduceCtorEq, false_iff]
          rintro ⟨n', base', index', value, rfl, hpos, hle, -⟩
          omega
        · rw [if_neg hrange]
          cases offset with
          | nil =>
            simp only [readOffset, Option.some.injEq]
            constructor
            · rintro rfl
              exact ⟨n, base, index, 0, rfl, by omega, by omega, ⟨rfl, rfl⟩, rfl, rfl⟩
            · rintro ⟨n', base', index', value, rfl, -, -, ⟨rfl, rfl⟩, rfl, rfl⟩
              rfl
          | cons sign digits =>
            simp only [readOffset]
            cases hmagnitude : debugTraceParseUnsignedRange digits with
            | none => simp
            | some magnitude =>
              simp only [Option.bind_some]
              by_cases hlarge : 2 ^ 63 ≤ magnitude
              · simp only [if_pos hlarge, reduceCtorEq, false_iff]
                rintro ⟨n', base', index', value, -, -, -, -, hvalue, -⟩
                cases hvalue
              · simp only [if_neg hlarge, Option.some.injEq]
                constructor
                · rintro rfl
                  exact ⟨n, base, index, _, rfl, by omega, by omega, ⟨rfl, rfl⟩, rfl, rfl⟩
                · rintro ⟨n', base', index', value, rfl, -, -, ⟨rfl, rfl⟩, rfl, rfl⟩
                  rfl

theorem parse_of_noColon (h : 0x3A ∉ text) : debugTraceParseSnapshotSpec text = none := by
  have hnone : ∀ b ∈ text, decide (b ≠ 0x3A) = true := fun b hb => by
    simpa using fun heq : b = 0x3A => h (heq ▸ hb)
  have hdrop : text.dropWhile (· ≠ 0x3A) = [] := List.dropWhile_eq_nil_iff.2 hnone
  unfold debugTraceParseSnapshotSpec
  dsimp only
  rw [if_pos (.inl hdrop)]

end Parts

/-! ## Registers, offsets and sizes -/

theorem length_dec {index : Nat} (h : index ≤ 30) :
    0 < (textBytes (dec index)).length ∧ (textBytes (dec index)).length ≤ 2 := by
  have hall : ∀ index < 31,
      0 < (formatBase 10 index).length ∧ (formatBase 10 index).length ≤ 2 := by decide
  rw [textBytes, List.length_map]
  exact hall index (by omega)

section Registers

variable {text : List UInt8} {base : SnapshotBase} {index : UInt8}

/-- The parser for a text that starts with an `x`. -/
theorem parseRegisterName_x {digits : List UInt8} :
    parseRegisterName (0x78 :: digits) =
      if digits.length < 1 ∨ 2 < digits.length then none
      else (debugTraceParseUnsigned digits).bind fun index =>
        if 30 < index then none else some (.gpr, UInt8.ofNat index) := by
  have hword : ∀ word, word = wordBytes "sp" ∨ word = wordBytes "pc" ∨ word = wordBytes "lr" →
      (0x78 : UInt8) :: digits ≠ word := by
    rintro word (rfl | rfl | rfl) heq
    · exact absurd (List.cons.inj heq).1 (by decide)
    · exact absurd (List.cons.inj heq).1 (by decide)
    · exact absurd (List.cons.inj heq).1 (by decide)
  rw [parseRegisterName, if_neg (hword _ (by simp)), if_neg (hword _ (by simp)),
    if_neg (hword _ (by simp))]
  simp only [List.length_cons, List.head?_cons, ne_eq, not_true_eq_false, or_false, List.drop_one,
    List.tail_cons]
  refine if_congr ?_ rfl rfl
  omega

theorem parseRegisterName_of_text (h : RegisterText text base index) :
    parseRegisterName text = some (base, index) := by
  cases h with
  | @gpr index hle =>
    obtain ⟨hpos, hshort⟩ := length_dec hle
    have hnumber : debugTraceParseUnsigned (textBytes (dec index)) = some index :=
      debugTraceParseUnsigned_eq_some.2 (.inl ⟨numeral_dec index, by omega⟩)
    rw [parseRegisterName_x, if_neg (by omega), hnumber, Option.bind_some, if_neg (by omega)]
  | sp => rfl
  | pc => rfl
  | lr => rfl

theorem parseRegisterName_of_loose {n : Nat} (h : LooseRegister text n) :
    parseRegisterName text = some (.gpr, UInt8.ofNat n) := by
  obtain ⟨digits, rfl, hshort, hle, hdigits⟩ := h
  have hnumber : debugTraceParseUnsigned digits = some n := by
    refine debugTraceParseUnsigned_eq_some.2 (hdigits.imp (fun h => ⟨h.1, by omega⟩) id)
  have hne : digits ≠ [] := by
    rintro rfl
    cases hnumber
  have hpos := List.length_pos_of_ne_nil hne
  rw [parseRegisterName_x, if_neg (by omega), hnumber, Option.bind_some, if_neg (by omega)]

/-- What the register parser accepts. -/
theorem parseRegisterName_eq_some (h : parseRegisterName text = some (base, index)) :
    RegisterText text base index ∨
      ∃ n, LooseRegister text n ∧ base = .gpr ∧ index = UInt8.ofNat n := by
  by_cases hx : text.head? = some 0x78
  · obtain ⟨digits, rfl⟩ := List.head?_eq_some_iff.1 hx
    rw [parseRegisterName_x] at h
    split_ifs at h with hlength
    obtain ⟨n, hnumber, hn⟩ := Option.bind_eq_some_iff.1 h
    split_ifs at hn with hle
    obtain ⟨rfl, rfl⟩ := Prod.mk.inj (Option.some.inj hn)
    by_cases hdec : digits = textBytes (dec n)
    · rw [hdec]
      exact .inl (.gpr (by omega))
    · refine .inr ⟨n, ⟨digits, rfl, by omega, by omega, ?_⟩, rfl, rfl⟩
      exact (debugTraceParseUnsigned_eq_some.1 hnumber).imp (fun h => ⟨h.1, hdec⟩) id
  · rw [parseRegisterName] at h
    split_ifs at h with hsp hpc hlr hother
    · obtain ⟨rfl, rfl⟩ := Prod.mk.inj (Option.some.inj h)
      rw [hsp]
      exact .inl .sp
    · obtain ⟨rfl, rfl⟩ := Prod.mk.inj (Option.some.inj h)
      rw [hpc]
      exact .inl .pc
    · obtain ⟨rfl, rfl⟩ := Prod.mk.inj (Option.some.inj h)
      rw [hlr]
      exact .inl .lr
    · exact absurd (.inr (.inr hx)) hother

/-- The register as `printTraceSnapshotSpec` prints it. -/
def printedRegister (base : SnapshotBase) (index : UInt8) : List Char :=
  match base with
  | .gpr => 'x' :: dec index.toNat
  | .sp => ['s', 'p']
  | .pc => ['p', 'c']
  | .lr => ['l', 'r']

/-- A register is printed as one of the grammar. -/
theorem registerText_printed (h : parseRegisterName text = some (base, index)) :
    RegisterText (textBytes (printedRegister base index)) base index := by
  have hgpr : ∀ {n : Nat}, n ≤ 30 →
      RegisterText (textBytes ('x' :: dec (UInt8.ofNat n).toNat)) .gpr (UInt8.ofNat n) := by
    intro n hn
    have hback : (UInt8.ofNat n).toNat = n := by
      rw [UInt8.toNat_ofNat', Nat.mod_eq_of_lt (by omega)]
    rw [hback]
    exact .gpr hn
  rcases parseRegisterName_eq_some h with htext | ⟨n, ⟨digits, -, -, hle, -⟩, rfl, rfl⟩
  · cases htext with
    | gpr hle => exact hgpr hle
    | sp => exact .sp
    | pc => exact .pc
    | lr => exact .lr
  · exact hgpr hle

/-- No sign and no colon in a register. -/
theorem RegisterText.plain (h : RegisterText text base index) :
    ∀ b ∈ text, isSign b = false ∧ b ≠ 0x3A := by
  cases h with
  | @gpr index hle =>
    intro b hb
    rcases List.mem_cons.1 hb with rfl | hb
    · decide
    · have hdigit := (digits_formatBase (by decide : 1 < 10) (by decide) index).2.1 b hb
      obtain ⟨-, hminus, hplus, -⟩ := digit_apart hdigit
      refine ⟨by simp [isSign, hminus, hplus], ?_⟩
      rintro rfl
      revert hdigit
      decide
  | sp => decide +kernel
  | pc => decide +kernel
  | lr => decide +kernel

end Registers

section Offsets

variable {text : List UInt8} {value : Int}

theorem numeral_noColon {n : Nat} (h : Numeral text n) : 0x3A ∉ text := by
  cases h with
  | decimal nonempty all => exact fun hmem => absurd (all _ hmem) (by decide)
  | hexadecimal letter nonempty all =>
    intro hmem
    rcases List.mem_cons.1 hmem with heq | hmem
    · exact absurd heq (by decide)
    rcases List.mem_cons.1 hmem with rfl | hmem
    · exact absurd letter (by decide)
    · exact absurd (all _ hmem) (by decide)

theorem OffsetText.noColon (h : OffsetText text value) : 0x3A ∉ text := by
  cases h with
  | none => exact List.not_mem_nil
  | plus numeral _ =>
    intro hmem
    rcases List.mem_cons.1 hmem with heq | hmem
    · exact absurd heq (by decide)
    · exact numeral_noColon numeral hmem
  | minus numeral _ =>
    intro hmem
    rcases List.mem_cons.1 hmem with heq | hmem
    · exact absurd heq (by decide)
    · exact numeral_noColon numeral hmem

theorem OffsetText.sign (h : OffsetText text value) :
    text = [] ∨ ∃ sign rest, isSign sign = true ∧ text = sign :: rest := by
  cases h with
  | none => exact .inl rfl
  | plus _ _ => exact .inr ⟨_, _, by decide, rfl⟩
  | minus _ _ => exact .inr ⟨_, _, by decide, rfl⟩

/-- The parser for the number of an offset. -/
theorem parseUnsignedRange_eq {digits : List UInt8} (hne : digits ≠ []) (h : digits.length < 64) :
    debugTraceParseUnsignedRange digits = debugTraceParseUnsigned digits := by
  have hpos := List.length_pos_of_ne_nil hne
  rw [debugTraceParseUnsignedRange, if_neg (by omega)]

theorem readOffset_of_text (h : OffsetText text value) (hshort : text.length ≤ 64) :
    readOffset text = some value := by
  cases h with
  | none => rfl
  | plus numeral hlt =>
    rw [List.length_cons] at hshort
    rw [readOffset, parseUnsignedRange_eq numeral.ne_nil (by omega),
      debugTraceParseUnsigned_eq_some.2 (.inl ⟨numeral, by omega⟩), Option.bind_some,
      if_neg (by omega), if_neg (by decide)]
  | minus numeral hlt =>
    rw [List.length_cons] at hshort
    rw [readOffset, parseUnsignedRange_eq numeral.ne_nil (by omega),
      debugTraceParseUnsigned_eq_some.2 (.inl ⟨numeral, by omega⟩), Option.bind_some,
      if_neg (by omega), if_pos rfl]

theorem readOffset_of_loose (h : LooseOffset text) : ∃ value, readOffset text = some value := by
  obtain ⟨sign, digits, n, rfl, -, hshort, hloose, hlt⟩ := h
  have hnumber := debugTraceParseUnsigned_eq_some.2 (.inr hloose)
  have hne : digits ≠ [] := by
    rintro rfl
    cases hnumber
  rw [readOffset, parseUnsignedRange_eq hne hshort, hnumber, Option.bind_some,
    if_neg (by omega)]
  exact ⟨_, rfl⟩

/-- What the parser of the offset accepts. -/
theorem readOffset_eq_some
    (hsign : text = [] ∨ ∃ sign rest, isSign sign = true ∧ text = sign :: rest)
    (h : readOffset text = some value) :
    OffsetText text value ∧ text.length ≤ 64 ∨ LooseOffset text := by
  rcases hsign with rfl | ⟨sign, digits, hsign, rfl⟩
  · obtain rfl := Option.some.inj h
    exact .inl ⟨.none, by simp⟩
  · rw [readOffset] at h
    obtain ⟨n, hnumber, hvalue⟩ := Option.bind_eq_some_iff.1 h
    rw [debugTraceParseUnsignedRange] at hnumber
    split_ifs at hnumber with hlength
    split_ifs at hvalue with hlarge hminus
    · obtain rfl := Option.some.inj hvalue
      rcases debugTraceParseUnsigned_eq_some.1 hnumber with ⟨hnumeral, -⟩ | hloose
      · rw [hminus]
        exact .inl ⟨.minus hnumeral (by omega), by rw [List.length_cons]; omega⟩
      · exact .inr ⟨sign, digits, n, rfl, hsign, by omega, hloose, by omega⟩
    · obtain rfl := Option.some.inj hvalue
      rcases debugTraceParseUnsigned_eq_some.1 hnumber with ⟨hnumeral, -⟩ | hloose
      · have hplus : sign = 0x2B := by
          rw [isSign, Bool.or_eq_true, beq_iff_eq, beq_iff_eq] at hsign
          exact hsign.resolve_right hminus
        rw [hplus]
        exact .inl ⟨.plus hnumeral (by omega), by rw [List.length_cons]; omega⟩
      · exact .inr ⟨sign, digits, n, rfl, hsign, by omega, hloose, by omega⟩

theorem readOffset_bound (h : readOffset text = some value) : value.natAbs < 2 ^ 63 := by
  cases text with
  | nil =>
    obtain rfl := Option.some.inj h
    decide
  | cons sign digits =>
    rw [readOffset] at h
    obtain ⟨n, -, hvalue⟩ := Option.bind_eq_some_iff.1 h
    split_ifs at hvalue with hlarge hminus
    · obtain rfl := Option.some.inj hvalue
      omega
    · obtain rfl := Option.some.inj hvalue
      omega

/-- The offset as it is printed. -/
def printedOffset (value : Int) : List Char :=
  if 0 < value then '+' :: hex value.natAbs
  else if value < 0 then '-' :: hex value.natAbs
  else []

/-- An offset is printed as one of the grammar. -/
theorem offsetText_printed (h : value.natAbs < 2 ^ 63) :
    OffsetText (textBytes (printedOffset value)) value ∧
      (textBytes (printedOffset value)).length ≤ 64 := by
  unfold printedOffset
  have hlength := length_hex (n := value.natAbs) (by omega)
  rcases lt_trichotomy 0 value with hpos | rfl | hneg
  · rw [if_pos hpos]
    have htext := OffsetText.plus (numeral_hex value.natAbs) h
    rw [Int.natAbs_of_nonneg hpos.le] at htext
    exact ⟨htext, by simp only [textBytes, List.map_cons, List.length_cons] at hlength ⊢; omega⟩
  · exact ⟨.none, by simp [textBytes]⟩
  · rw [if_neg (by omega), if_pos hneg]
    have htext := OffsetText.minus (numeral_hex value.natAbs) h
    rw [Int.ofNat_natAbs_of_nonpos hneg.le, neg_neg] at htext
    exact ⟨htext, by simp only [textBytes, List.map_cons, List.length_cons] at hlength ⊢; omega⟩

end Offsets

theorem parseSize {text : List UInt8} :
    (∃ n, debugTraceParseUnsigned text = some n ∧ 0 < n ∧ n ≤ 0x100) ↔
      (∃ n, SizeText text n) ∨ LooseSize text := by
  constructor
  · rintro ⟨n, hnumber, hpos, hle⟩
    rcases debugTraceParseUnsigned_eq_some.1 hnumber with ⟨hnumeral, -⟩ | hloose
    · exact .inl ⟨n, hnumeral, hpos, hle⟩
    · exact .inr ⟨n, hloose, hpos, hle⟩
  · rintro (⟨n, hnumeral, hpos, hle⟩ | ⟨n, hloose, hpos, hle⟩)
    · exact ⟨n, debugTraceParseUnsigned_eq_some.2 (.inl ⟨hnumeral, by omega⟩), hpos, hle⟩
    · exact ⟨n, debugTraceParseUnsigned_eq_some.2 (.inr hloose), hpos, hle⟩

/-! ## The law -/

/-- What the three functions promise of a text. -/
structure SpecLaw (text : List UInt8) : Prop where
  accepts : ∀ spec, debugTraceParseSnapshotSpec text = some spec ↔ SpecText text spec
  roundTrip : ∀ spec, debugTraceParseSnapshotSpec text = some spec →
    debugTraceParseSnapshotSpec (textBytes (printTraceSnapshotSpec spec)) = some spec
  address : ∀ spec, debugTraceParseSnapshotSpec text = some spec → ∀ registers a,
    debugTraceComputeSnapshotAddress spec registers = some a ↔
      (a.toNat : Int) = (registers.base spec).toNat + spec.offset

section Law

variable {text : List UInt8} {spec : DebugTraceSnapshotSpec}

/-- A text of the grammar is cut as it is put together. -/
theorem specCut_of_text {register offset size : List UInt8} {base : SnapshotBase} {index : UInt8}
    {value : Int} (htext : text = register ++ (offset ++ 0x3A :: size))
    (hregister : RegisterText register base index) (hoffset : OffsetText offset value) :
    SpecCut text register offset size :=
  ⟨htext, hregister.plain, hoffset.noColon, hoffset.sign⟩

/-- An accepted text and its parts. -/
theorem parts_of_parse (h : debugTraceParseSnapshotSpec text = some spec) :
    ∃ register offset size n, SpecCut text register offset size ∧
      debugTraceParseUnsigned size = some n ∧ 0 < n ∧ n ≤ 0x100 ∧
      parseRegisterName register = some (spec.base, spec.registerIndex) ∧
      readOffset offset = some spec.offset ∧ spec.size = UInt32.ofNat n := by
  by_cases hcolon : 0x3A ∈ text
  · obtain ⟨register, offset, size, hcut⟩ := exists_cut hcolon
    obtain ⟨n, base, index, value, hsize, hpos, hle, hname, hoffset, rfl⟩ :=
      hcut.parse_eq_some.1 h
    exact ⟨register, offset, size, n, hcut, hsize, hpos, hle, hname, hoffset, rfl⟩
  · rw [parse_of_noColon hcolon] at h
    cases h

theorem parse_print_of_parse (h : debugTraceParseSnapshotSpec text = some spec) :
    debugTraceParseSnapshotSpec (textBytes (printTraceSnapshotSpec spec)) = some spec := by
  obtain ⟨register, offset, size, n, -, -, hpos, hle, hname, hoffset, hsize⟩ := parts_of_parse h
  have hregister := registerText_printed hname
  obtain ⟨hprinted, hshort⟩ := offsetText_printed (readOffset_bound hoffset)
  have hback : spec.size.toNat = n := by
    rw [hsize, UInt32.toNat_ofNat', Nat.mod_eq_of_lt (by omega)]
  have hcut : SpecCut (textBytes (printTraceSnapshotSpec spec))
      (textBytes (printedRegister spec.base spec.registerIndex))
      (textBytes (printedOffset spec.offset)) (textBytes (hex spec.size.toNat)) := by
    refine specCut_of_text ?_ hregister hprinted
    unfold printTraceSnapshotSpec textBytes
    rw [List.map_append, List.map_append, List.append_assoc]
    rfl
  refine hcut.parse_eq_some.2 ⟨n, spec.base, spec.registerIndex, spec.offset, ?_, hpos, hle,
    parseRegisterName_of_text hregister, readOffset_of_text hprinted hshort, ?_⟩
  · rw [hback]
    exact debugTraceParseUnsigned_eq_some.2 (.inl ⟨numeral_hex n, by omega⟩)
  · rw [← hsize]

theorem valid_of_parse (h : debugTraceParseSnapshotSpec text = some spec) :
    debugTraceSnapshotSpecIsValid spec = true ∧ spec.offset.natAbs < 2 ^ 63 := by
  obtain ⟨register, offset, size, n, -, -, hpos, hle, hname, hoffset, hsize⟩ := parts_of_parse h
  have hback : spec.size.toNat = n := by
    rw [hsize, UInt32.toNat_ofNat', Nat.mod_eq_of_lt (by omega)]
  have hsizeValid : (decide (0 < spec.size) && decide (spec.size.toNat ≤ 0x100)) = true := by
    rw [Bool.and_eq_true, decide_eq_true_iff, decide_eq_true_iff, UInt32.lt_iff_toNat_lt, hback]
    exact ⟨hpos, hle⟩
  refine ⟨?_, readOffset_bound hoffset⟩
  have hregister := registerText_printed hname
  unfold debugTraceSnapshotSpecIsValid
  cases hbase : spec.base with
  | gpr =>
    rw [hbase] at hregister
    obtain ⟨index, hindex, hle⟩ : ∃ index, spec.registerIndex = UInt8.ofNat index ∧ index ≤ 30 := by
      generalize spec.registerIndex = index at hregister
      generalize textBytes (printedRegister .gpr index) = printed at hregister
      cases hregister with
      | gpr hle => exact ⟨_, rfl, hle⟩
    have hsmall : spec.registerIndex ≤ 30 := by
      rw [hindex, UInt8.le_iff_toNat_le, UInt8.toNat_ofNat', Nat.mod_eq_of_lt (by omega)]
      exact hle
    dsimp only
    rw [hsizeValid, Bool.and_true, decide_eq_true_iff]
    exact hsmall
  | sp => exact hsizeValid
  | pc => exact hsizeValid
  | lr => exact hsizeValid

/-- The address of a valid specification is the sum, if it is a 64-bit address. -/
theorem computeSnapshotAddress_eq_some (hvalid : debugTraceSnapshotSpecIsValid spec = true)
    (hoffset : spec.offset.natAbs < 2 ^ 63) (registers : SnapshotRegisters) (a : UInt64) :
    debugTraceComputeSnapshotAddress spec registers = some a ↔
      (a.toNat : Int) = (registers.base spec).toNat + spec.offset := by
  have hbase := (registers.base spec).toNat_lt
  have ha := a.toNat_lt
  unfold debugTraceComputeSnapshotAddress
  rw [hvalid]
  dsimp only
  rw [if_neg (by simp)]
  split_ifs with hsign hover hunder
  · -- the sum would wrap around
    simp only [false_iff]
    rw [UInt64.lt_iff_toNat_lt, UINT64_MAX_VALUE, UInt64.toNat_sub_of_le _ _ (by
      rw [UInt64.le_iff_toNat_le, UInt64.toNat_ofNat']
      exact le_trans (Nat.mod_le _ _) (by change spec.offset.toNat ≤ 2 ^ 64 - 1; omega)),
      UInt64.toNat_ofNat', Nat.mod_eq_of_lt (by omega)] at hover
    change 2 ^ 64 - 1 - spec.offset.toNat < _ at hover
    omega
  · rw [UInt64.lt_iff_toNat_lt, UINT64_MAX_VALUE, UInt64.toNat_sub_of_le _ _ (by
      rw [UInt64.le_iff_toNat_le, UInt64.toNat_ofNat']
      exact le_trans (Nat.mod_le _ _) (by change spec.offset.toNat ≤ 2 ^ 64 - 1; omega)),
      UInt64.toNat_ofNat', Nat.mod_eq_of_lt (by omega)] at hover
    change ¬ 2 ^ 64 - 1 - spec.offset.toNat < _ at hover
    rw [Option.some.injEq, ← UInt64.toNat_inj, UInt64.toNat_add, UInt64.toNat_ofNat',
      Nat.mod_eq_of_lt (by omega : spec.offset.toNat < 2 ^ 64), Nat.mod_eq_of_lt (by omega)]
    omega
  · have hmagnitude : (UInt64.ofNat (-(spec.offset + 1)).toNat + 1).toNat = spec.offset.natAbs := by
      rw [UInt64.toNat_add, UInt64.toNat_ofNat', Nat.mod_eq_of_lt (by omega :
        (-(spec.offset + 1)).toNat < 2 ^ 64)]
      change ((-(spec.offset + 1)).toNat + 1) % 2 ^ 64 = _
      omega
    rw [UInt64.lt_iff_toNat_lt, hmagnitude] at hunder
    simp only [false_iff]
    omega
  · have hmagnitude : (UInt64.ofNat (-(spec.offset + 1)).toNat + 1).toNat = spec.offset.natAbs := by
      rw [UInt64.toNat_add, UInt64.toNat_ofNat', Nat.mod_eq_of_lt (by omega :
        (-(spec.offset + 1)).toNat < 2 ^ 64)]
      change ((-(spec.offset + 1)).toNat + 1) % 2 ^ 64 = _
      omega
    rw [UInt64.lt_iff_toNat_lt, hmagnitude] at hunder
    rw [Option.some.injEq, ← UInt64.toNat_inj, UInt64.toNat_sub_of_le _ _ (by
      rw [UInt64.le_iff_toNat_le, hmagnitude]; omega), hmagnitude]
    omega

/-- A text of the grammar without a long offset is accepted. -/
theorem parse_of_text (h : SpecText text spec)
    (hlong : ∀ register offset size, SpecCut text register offset size → offset.length ≤ 64) :
    debugTraceParseSnapshotSpec text = some spec := by
  obtain ⟨register, offset, size, n, htext, hregister, hoffset, ⟨hnumeral, hpos, hle⟩, hsize⟩ := h
  have hcut := specCut_of_text htext hregister hoffset
  refine hcut.parse_eq_some.2 ⟨n, spec.base, spec.registerIndex, spec.offset,
    debugTraceParseUnsigned_eq_some.2 (.inl ⟨hnumeral, by omega⟩), hpos, hle,
    parseRegisterName_of_text hregister, readOffset_of_text hoffset (hlong _ _ _ hcut), ?_⟩
  rw [← hsize]

theorem not_looseRegister {register : List UInt8} {base : SnapshotBase} {index : UInt8}
    (h : RegisterText register base index) (n : Nat) : ¬ LooseRegister register n := by
  rintro ⟨digits, htext, -, hle, hdigits⟩
  cases h with
  | @gpr index hindex =>
    obtain rfl := (List.cons.inj htext).2
    have hsame : n = index := by
      have hnumber := debugTraceParseUnsigned_eq_some.2
        (.inl ⟨numeral_dec index, by omega⟩ : Numeral (textBytes (dec index)) index ∧
          index < 2 ^ 64 ∨ LooseNumber (textBytes (dec index)) index)
      rcases hdigits with ⟨hnumeral, -⟩ | hloose
      · have hother := debugTraceParseUnsigned_eq_some.2
          (.inl ⟨hnumeral, by omega⟩ : Numeral (textBytes (dec index)) n ∧ n < 2 ^ 64 ∨ _)
        exact Option.some.inj (hother.symm.trans hnumber)
      · exact absurd (numeral_dec index) (loose_not_numeral hloose index)
    subst hsame
    rcases hdigits with ⟨-, hne⟩ | hloose
    · exact hne rfl
    · exact loose_not_numeral hloose n (numeral_dec n)
  | sp => exact absurd (List.cons.inj htext).1 (by decide)
  | pc => exact absurd (List.cons.inj htext).1 (by decide)
  | lr => exact absurd (List.cons.inj htext).1 (by decide)

theorem not_looseOffset {offset : List UInt8} {value : Int} (h : OffsetText offset value) :
    ¬ LooseOffset offset := by
  rintro ⟨sign, digits, n, htext, -, -, hloose, -⟩
  cases h with
  | none => cases htext
  | plus numeral _ =>
    obtain rfl := (List.cons.inj htext).2
    exact loose_not_numeral hloose _ numeral
  | minus numeral _ =>
    obtain rfl := (List.cons.inj htext).2
    exact loose_not_numeral hloose _ numeral

theorem not_looseSize {size : List UInt8} {n : Nat} (h : SizeText size n) : ¬ LooseSize size := by
  rintro ⟨m, hloose, -⟩
  exact loose_not_numeral hloose n h.1

/-- An accepted text without a loose part is one of the grammar. -/
theorem text_of_parse (hloose : ¬ LooseSpec text)
    (h : debugTraceParseSnapshotSpec text = some spec) : SpecText text spec := by
  obtain ⟨register, offset, size, n, hcut, hnumber, hpos, hle, hname, hoffset, hsize⟩ :=
    parts_of_parse h
  have hregisterRead := (parseRegisterName_eq_some hname).imp
    (fun htext => (⟨spec.base, spec.registerIndex, htext⟩ :
      ∃ base index, RegisterText register base index))
    fun ⟨index, hindex, _⟩ => (⟨index, hindex⟩ : ∃ index, LooseRegister register index)
  have hoffsetRead := (readOffset_eq_some hcut.sign hoffset).imp
    (fun htext => (⟨⟨spec.offset, htext.1⟩, fun hlong => by
      obtain ⟨_, -, hlength⟩ := hlong
      omega⟩ : (∃ value, OffsetText offset value) ∧ ¬ LongOffset offset)) id
  have hsizeRead := parseSize.1 ⟨n, hnumber, hpos, hle⟩
  have hparts : ¬ ((∃ index, LooseRegister register index) ∨ LooseOffset offset ∨
      LooseSize size) := fun hpart =>
    hloose ⟨register, offset, size, hcut, .inl ⟨hregisterRead, hoffsetRead, hsizeRead, hpart⟩⟩
  rw [not_or, not_or] at hparts
  refine ⟨register, offset, size, n, hcut.text_eq, ?_, ?_, ⟨?_, hpos, hle⟩, hsize⟩
  · exact (parseRegisterName_eq_some hname).resolve_right fun ⟨index, hindex, _⟩ =>
      hparts.1 ⟨index, hindex⟩
  · exact ((readOffset_eq_some hcut.sign hoffset).resolve_right hparts.2.1).1
  · rcases debugTraceParseUnsigned_eq_some.1 hnumber with ⟨hnumeral, -⟩ | hsizeLoose
    · exact hnumeral
    · exact absurd ⟨n, hsizeLoose, hpos, hle⟩ hparts.2.2

/-- A text with a loose part is accepted, or is of the grammar and refused. -/
theorem not_looseSpec_of_law (law : SpecLaw text) : ¬ LooseSpec text := by
  rintro ⟨register, offset, size, hcut, ⟨hregister, hoffset, hsize, hpart⟩ |
    ⟨⟨base, index, hregister⟩, ⟨value, hoffset, hlength⟩, n, hsize⟩⟩
  · obtain ⟨base, index, hname⟩ : ∃ base index, parseRegisterName register = some (base, index) := by
      rcases hregister with ⟨base, index, htext⟩ | ⟨index, hindex⟩
      · exact ⟨base, index, parseRegisterName_of_text htext⟩
      · exact ⟨_, _, parseRegisterName_of_loose hindex⟩
    obtain ⟨value, hvalue⟩ : ∃ value, readOffset offset = some value := by
      rcases hoffset with ⟨⟨value, htext⟩, hlong⟩ | hoffset
      · refine ⟨value, readOffset_of_text htext ?_⟩
        by_contra hlength
        exact hlong ⟨value, htext, by omega⟩
      · exact readOffset_of_loose hoffset
    obtain ⟨n, hnumber, hpos, hle⟩ := parseSize.2 hsize
    have hparsed := hcut.parse_eq_some.2
      ⟨n, base, index, value, hnumber, hpos, hle, hname, hvalue, rfl⟩
    obtain ⟨register', offset', size', m, htext, hregister', hoffset', hsize', -⟩ :=
      (law.accepts _).1 hparsed
    obtain ⟨rfl, rfl, rfl⟩ := hcut.unique (specCut_of_text htext hregister' hoffset')
    rcases hpart with ⟨index', hindex⟩ | hpart | hpart
    · exact not_looseRegister hregister' index' hindex
    · exact not_looseOffset hoffset' hpart
    · exact not_looseSize hsize' hpart
  · have htext : SpecText text ⟨base, index, value, UInt32.ofNat n⟩ :=
      ⟨register, offset, size, n, hcut.text_eq, hregister, hoffset, hsize, rfl⟩
    obtain ⟨n', base', index', value', -, -, -, -, hread, -⟩ :=
      hcut.parse_eq_some.1 ((law.accepts _).2 htext)
    rcases readOffset_eq_some hcut.sign hread with ⟨-, hshort⟩ | hloose
    · omega
    · exact not_looseOffset hoffset hloose

end Law

/-- Which texts are read as the grammar has them. -/
theorem snapshot_spec_iff (text : List UInt8) : SpecLaw text ↔ ¬ LooseSpec text := by
  refine ⟨not_looseSpec_of_law, fun hloose => ⟨fun spec => ⟨text_of_parse hloose, fun h => ?_⟩,
    fun spec => parse_print_of_parse, fun spec h registers a => ?_⟩⟩
  · refine parse_of_text h fun register offset size hcut => ?_
    obtain ⟨register', offset', size', n, htext, hregister, hoffset, hsize, -⟩ := h
    obtain ⟨rfl, rfl, rfl⟩ := hcut.unique (specCut_of_text htext hregister hoffset)
    by_contra hlength
    exact hloose ⟨register, offset, size, hcut,
      .inr ⟨⟨_, _, hregister⟩, ⟨_, hoffset, by omega⟩, n, hsize⟩⟩
  · obtain ⟨hvalid, hbound⟩ := valid_of_parse h
    exact computeSnapshotAddress_eq_some hvalid hbound registers a

/-- `x0:0x-fffffffffffffff0` is accepted, with a size of 16. -/
theorem inner_sign_of_size_accepted :
    ¬ SpecLaw (wordBytes "x0:0x-fffffffffffffff0") := by
  intro law
  refine not_looseSpec_of_law law ⟨wordBytes "x0", [], wordBytes "0x-fffffffffffffff0",
    ⟨rfl, by decide +kernel, List.not_mem_nil, .inl rfl⟩, .inl ⟨.inl ⟨.gpr, 0, ?_⟩,
      .inl ⟨⟨0, .none⟩, ?_⟩, .inr ?_, .inr (.inr ?_)⟩⟩
  · exact @RegisterText.gpr 0 (by decide)
  · rintro ⟨value, -, hlength⟩
    exact absurd hlength (by decide)
  all_goals
    refine ⟨16, ⟨⟨16, wordBytes "-fffffffffffffff0", [], [0x2D], [], wordBytes "fffffffffffffff0",
      .inr ⟨rfl, 0x78, rfl, rfl⟩, ⟨rfl, by simp, by simp, .inl rfl, by decide,
        by decide +kernel⟩, by simp, by decide +kernel, by decide +kernel⟩, by decide +kernel,
      by decide⟩, by decide, by decide⟩

end SysAgent
