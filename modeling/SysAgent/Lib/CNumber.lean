import Mathlib

set_option autoImplicit false

/-! # Numbers as the C library reads them

`strtoull` and `strtoll` skip blanks, take a sign, in base 16 an optional `0x`, and then digits. `wholeNumber` is
the idiom around it that accepts a text only as a whole; what it accepts is spelled out as the parts
of the text. -/

namespace CNumber

/-! ## Characters -/

/-- `isspace` in the C locale. -/
def isBlank (b : UInt8) : Bool :=
  b == 0x20 || (0x09 ≤ b && b ≤ 0x0D)

def isX (b : UInt8) : Bool :=
  b == 0x78 || b == 0x58

def digitValue (b : UInt8) : Option Nat :=
  if 0x30 ≤ b && b ≤ 0x39 then some (b.toNat - 0x30)
  else if 0x61 ≤ b && b ≤ 0x66 then some (b.toNat - 0x61 + 10)
  else if 0x41 ≤ b && b ≤ 0x46 then some (b.toNat - 0x41 + 10)
  else none

/-- A digit of a base up to 16. -/
def isDigitOf (base : Nat) (b : UInt8) : Bool :=
  (digitValue b).any fun d => decide (d < base)

/-- The number that digits represent. -/
def number (base : Nat) (digits : List UInt8) : Nat :=
  digits.foldl (fun n d => n * base + (digitValue d).getD 0) 0

/-- Where the digits are. -/
theorem digit_range {b : UInt8} (h : (digitValue b).isSome = true) :
    0x30 ≤ b.toNat ∧ b.toNat ≤ 0x39 ∨ 0x61 ≤ b.toNat ∧ b.toNat ≤ 0x66 ∨
      0x41 ≤ b.toNat ∧ b.toNat ≤ 0x46 := by
  unfold digitValue at h
  split_ifs at h with hdecimal hlower hupper
  · exact Or.inl (by simpa [UInt8.le_iff_toNat_le] using hdecimal)
  · exact Or.inr (Or.inl (by simpa [UInt8.le_iff_toNat_le] using hlower))
  · exact Or.inr (Or.inr (by simpa [UInt8.le_iff_toNat_le] using hupper))
  · cases h

theorem isSome_of_isDigitOf {base : Nat} {b : UInt8} (h : isDigitOf base b = true) :
    (digitValue b).isSome = true := by
  unfold isDigitOf at h
  cases hb : digitValue b with
  | none => rw [hb] at h; cases h
  | some d => rfl

/-- No digit is a blank, a sign or the letter of the prefix. -/
theorem digit_apart {base : Nat} {b : UInt8} (h : isDigitOf base b = true) :
    isBlank b = false ∧ b ≠ 0x2D ∧ b ≠ 0x2B ∧ isX b = false := by
  have hrange := digit_range (isSome_of_isDigitOf h)
  simp [isBlank, isX, UInt8.le_iff_toNat_le, ← UInt8.toNat_inj]
  omega

/-! ## Reading a number -/

/-- An optional sign: whether it is a minus, and what follows it. -/
def splitSign : List UInt8 → Bool × List UInt8
  | [] => (false, [])
  | c :: rest =>
    if c = 0x2D then (true, rest) else if c = 0x2B then (false, rest) else (false, c :: rest)

/-- In base 16 an optional `0x` in front of a digit. -/
def skipPrefix (base : Nat) : List UInt8 → List UInt8
  | zero :: x :: d :: rest =>
    if base = 16 ∧ zero = 0x30 ∧ isX x ∧ isDigitOf 16 d then d :: rest else zero :: x :: d :: rest
  | text => text

/-- `strtoull(text, &end, base)`: the number, what `end` points at, and whether `errno` is set. -/
def strtoull (base : Nat) (text : List UInt8) : Nat × List UInt8 × Bool :=
  let (negative, unsigned) := splitSign (text.dropWhile isBlank)
  let subject := skipPrefix base unsigned
  let digits := subject.takeWhile (isDigitOf base)
  let rest := subject.dropWhile (isDigitOf base)
  if digits = [] then (0, text, false)
  else if 2 ^ 64 ≤ number base digits then (2 ^ 64 - 1, rest, true)
  else if negative then ((2 ^ 64 - number base digits) % 2 ^ 64, rest, false)
  else (number base digits, rest, false)

/-- `strtoll(text, &end, base)`, likewise. -/
def strtoll (base : Nat) (text : List UInt8) : Int × List UInt8 × Bool :=
  let (negative, unsigned) := splitSign (text.dropWhile isBlank)
  let subject := skipPrefix base unsigned
  let digits := subject.takeWhile (isDigitOf base)
  let rest := subject.dropWhile (isDigitOf base)
  let value : Int := if negative then -(number base digits : Int) else number base digits
  if digits = [] then (0, text, false)
  else if value < -2 ^ 63 then (-2 ^ 63, rest, true)
  else if 2 ^ 63 ≤ value then (2 ^ 63 - 1, rest, true)
  else (value, rest, false)

/-- The number, if there is one, it is in range and it is the whole text. -/
def wholeNumber (base : Nat) (text : List UInt8) : Option Nat :=
  let (value, rest, range) := strtoull base text
  if range || rest == text || !rest.isEmpty then none else some value

/-! ## The parts of a text -/

/-- A text that is read as a whole: blanks, a sign, a prefix and digits. -/
structure Spelled (base : Nat) (text blanks sign lead digits : List UInt8) : Prop where
  text_eq : text = blanks ++ (sign ++ (lead ++ digits))
  blanks : ∀ b ∈ blanks, isBlank b = true
  sign : sign = [] ∨ sign = [0x2D] ∨ sign = [0x2B]
  lead : lead = [] ∨ base = 16 ∧ ∃ x, isX x = true ∧ lead = [0x30, x]
  nonempty : digits ≠ []
  digits : ∀ d ∈ digits, isDigitOf base d = true

/-- What a sign makes of a number. -/
def signed (sign : List UInt8) (n : Nat) : Nat :=
  if sign = [0x2D] then (2 ^ 64 - n) % 2 ^ 64 else n

theorem splitSign_spec (text : List UInt8) :
    ∃ sign, (sign = [] ∨ sign = [0x2D] ∨ sign = [0x2B]) ∧ text = sign ++ (splitSign text).2 ∧
      (splitSign text).1 = decide (sign = [0x2D]) := by
  cases text with
  | nil => exact ⟨[], Or.inl rfl, rfl, rfl⟩
  | cons c rest =>
    rw [splitSign]
    split_ifs with hminus hplus
    · exact ⟨[0x2D], Or.inr (Or.inl rfl), by rw [hminus]; rfl, rfl⟩
    · exact ⟨[0x2B], Or.inr (Or.inr rfl), by rw [hplus]; rfl, rfl⟩
    · exact ⟨[], Or.inl rfl, rfl, rfl⟩

theorem splitSign_append {sign unsigned : List UInt8}
    (hsign : sign = [] ∨ sign = [0x2D] ∨ sign = [0x2B])
    (hhead : ∀ c rest, unsigned = c :: rest → c ≠ 0x2D ∧ c ≠ 0x2B) :
    splitSign (sign ++ unsigned) = (decide (sign = [0x2D]), unsigned) := by
  rcases hsign with rfl | rfl | rfl
  · cases unsigned with
    | nil => rfl
    | cons c rest =>
      obtain ⟨hminus, hplus⟩ := hhead c rest rfl
      rw [List.nil_append, splitSign, if_neg hminus, if_neg hplus]
      rfl
  · rfl
  · rfl

theorem skipPrefix_spec (base : Nat) (text : List UInt8) :
    ∃ lead, (lead = [] ∨ base = 16 ∧ ∃ x, isX x = true ∧ lead = [0x30, x]) ∧
      text = lead ++ skipPrefix base text := by
  unfold skipPrefix
  split
  · rename_i zero x d rest
    split_ifs with h
    · obtain ⟨hbase, rfl, hx, -⟩ := h
      exact ⟨[0x30, x], Or.inr ⟨hbase, x, hx, rfl⟩, rfl⟩
    · exact ⟨[], Or.inl rfl, rfl⟩
  · exact ⟨[], Or.inl rfl, rfl⟩

/-- The prefix goes, and digits alone never look like one. -/
theorem skipPrefix_append {base : Nat} {lead digits : List UInt8}
    (hlead : lead = [] ∨ base = 16 ∧ ∃ x, isX x = true ∧ lead = [0x30, x])
    (hnonempty : digits ≠ []) (hdigits : ∀ d ∈ digits, isDigitOf base d = true) :
    skipPrefix base (lead ++ digits) = digits := by
  rcases hlead with rfl | ⟨rfl, x, hx, rfl⟩
  · rw [List.nil_append]
    unfold skipPrefix
    split
    · rename_i zero x d rest
      rw [if_neg]
      rintro ⟨-, -, hx, -⟩
      have hdigit := hdigits x (by simp)
      rw [(digit_apart hdigit).2.2.2] at hx
      cases hx
    · rfl
  · cases digits with
    | nil => exact absurd rfl hnonempty
    | cons d rest =>
      have hd := hdigits d List.mem_cons_self
      show skipPrefix 16 (0x30 :: x :: d :: rest) = d :: rest
      rw [skipPrefix, if_pos ⟨rfl, rfl, hx, hd⟩]

theorem Spelled.strtoull_eq {base : Nat} {text blanks sign lead digits : List UInt8}
    (h : Spelled base text blanks sign lead digits) :
    strtoull base text =
      if 2 ^ 64 ≤ number base digits then (2 ^ 64 - 1, [], true)
      else (signed sign (number base digits), [], false) := by
  -- the first character behind the blanks is none, and the one behind the sign is no sign
  have hfirst : ∀ c rest, lead ++ digits = c :: rest →
      isBlank c = false ∧ c ≠ 0x2D ∧ c ≠ 0x2B := by
    intro c rest heq
    rcases h.lead with rfl | ⟨-, x, -, rfl⟩
    · rw [List.nil_append] at heq
      have hc := digit_apart (h.digits c (by rw [heq]; exact List.mem_cons_self))
      exact ⟨hc.1, hc.2.1, hc.2.2.1⟩
    · obtain ⟨rfl, -⟩ := List.cons.inj heq
      decide
  have hdrop : text.dropWhile isBlank = sign ++ (lead ++ digits) := by
    rw [h.text_eq, List.dropWhile_append_of_pos h.blanks]
    rcases h.sign with rfl | rfl | rfl
    · rw [List.nil_append]
      cases hsplit : lead ++ digits with
      | nil => rfl
      | cons c rest => exact List.dropWhile_cons_of_neg (by rw [(hfirst c rest hsplit).1]; simp)
    · rfl
    · rfl
  have hsplit := splitSign_append h.sign fun c rest heq => (hfirst c rest heq).2
  have htake : digits.takeWhile (isDigitOf base) = digits := List.takeWhile_eq_self_iff.2 h.digits
  have hrest : digits.dropWhile (isDigitOf base) = [] := List.dropWhile_eq_nil_iff.2 h.digits
  unfold strtoull
  rw [hdrop, hsplit]
  simp only [skipPrefix_append h.lead h.nonempty h.digits, htake, hrest, if_neg h.nonempty,
    decide_eq_true_eq]
  split_ifs with hrange hminus
  · rfl
  · rw [signed, if_pos hminus]
  · rw [signed, if_neg hminus]

/-- Digits with something else behind them. -/
theorem strtoull_digits {digits tail : List UInt8} (hnonempty : digits ≠ [])
    (hdigits : ∀ d ∈ digits, isDigitOf 10 d = true)
    (htail : ∀ b rest, tail = b :: rest → isDigitOf 10 b = false) :
    strtoull 10 (digits ++ tail) =
      if 2 ^ 64 ≤ number 10 digits then (2 ^ 64 - 1, tail, true)
      else (number 10 digits, tail, false) := by
  have hstop : tail.takeWhile (isDigitOf 10) = [] ∧ tail.dropWhile (isDigitOf 10) = tail := by
    cases tail with
    | nil => exact ⟨rfl, rfl⟩
    | cons b rest =>
      have hb := htail b rest rfl
      rw [List.takeWhile_cons_of_neg (by simp [hb]), List.dropWhile_cons_of_neg (by simp [hb])]
      exact ⟨rfl, rfl⟩
  have htake : (digits ++ tail).takeWhile (isDigitOf 10) = digits := by
    rw [List.takeWhile_append_of_pos hdigits, hstop.1, List.append_nil]
  have hrest : (digits ++ tail).dropWhile (isDigitOf 10) = tail := by
    rw [List.dropWhile_append_of_pos hdigits, hstop.2]
  have hskip : skipPrefix 10 (digits ++ tail) = digits ++ tail := by
    unfold skipPrefix
    split
    · next heq =>
      rw [if_neg fun h => absurd h.1 (by decide)]
      exact heq.symm
    · rfl
  obtain ⟨d, others, rfl⟩ := List.exists_cons_of_ne_nil hnonempty
  obtain ⟨hblank, hminus, hplus, -⟩ := digit_apart (hdigits d List.mem_cons_self)
  have hdrop : (d :: others ++ tail).dropWhile isBlank = d :: others ++ tail :=
    List.dropWhile_cons_of_neg (by rw [hblank]; simp)
  have hsign : splitSign (d :: others ++ tail) = (false, d :: others ++ tail) := by
    rw [List.cons_append, splitSign, if_neg hminus, if_neg hplus]
  unfold strtoull
  rw [hdrop, hsign]
  simp only [hskip, htake, hrest, if_neg hnonempty, Bool.false_eq_true, if_false]

theorem Spelled.ne_nil {base : Nat} {text blanks sign lead digits : List UInt8}
    (h : Spelled base text blanks sign lead digits) : text ≠ [] := by
  rw [h.text_eq]
  simp [h.nonempty]

/-- What is accepted as a whole. -/
theorem wholeNumber_eq_some {base : Nat} {text : List UInt8} {value : Nat} :
    wholeNumber base text = some value ↔ ∃ blanks sign lead digits,
      Spelled base text blanks sign lead digits ∧ number base digits < 2 ^ 64 ∧
        value = signed sign (number base digits) := by
  constructor
  · intro h
    obtain ⟨sign, hsign, hunsigned, hnegative⟩ := splitSign_spec (text.dropWhile isBlank)
    obtain ⟨negative, unsigned, hsplit⟩ : ∃ negative unsigned,
      splitSign (text.dropWhile isBlank) = (negative, unsigned) := ⟨_, _, rfl⟩
    rw [hsplit] at hunsigned hnegative
    obtain ⟨lead, hlead, hsubject⟩ := skipPrefix_spec base unsigned
    unfold wholeNumber strtoull at h
    rw [hsplit] at h
    by_cases hnone : (skipPrefix base unsigned).takeWhile (isDigitOf base) = []
    · simp [hnone] at h
    · by_cases hrange : 2 ^ 64 ≤
          number base ((skipPrefix base unsigned).takeWhile (isDigitOf base))
      · simp only [if_neg hnone, if_pos hrange, Bool.true_or, if_true] at h
        cases h
      · have hvalue : (skipPrefix base unsigned).dropWhile (isDigitOf base) = [] ∧
            value = signed sign
              (number base ((skipPrefix base unsigned).takeWhile (isDigitOf base))) := by
          simp only at hnegative
          cases negative with
          | false =>
            have hplain : sign ≠ [0x2D] := of_decide_eq_false hnegative.symm
            simp only [if_neg hnone, if_neg hrange, Bool.false_eq_true, if_false,
              Bool.false_or, Option.ite_none_left_eq_some, Option.some.injEq, Bool.or_eq_true,
              not_or, Bool.not_eq_true', Bool.not_eq_false, List.isEmpty_iff] at h
            exact ⟨h.1.2, by rw [signed, if_neg hplain]; exact h.2.symm⟩
          | true =>
            have hminus : sign = [0x2D] := of_decide_eq_true hnegative.symm
            simp only [if_neg hnone, if_neg hrange, if_true, Bool.false_or,
              Option.ite_none_left_eq_some, Option.some.injEq, Bool.or_eq_true, not_or,
              Bool.not_eq_true', Bool.not_eq_false, List.isEmpty_iff] at h
            exact ⟨h.1.2, by rw [signed, if_pos hminus]; exact h.2.symm⟩
        refine ⟨text.takeWhile isBlank, sign, lead,
          (skipPrefix base unsigned).takeWhile (isDigitOf base), ⟨?_, ?_, hsign, hlead, hnone, ?_⟩,
          not_le.1 hrange, hvalue.2⟩
        · have hwhole := List.takeWhile_append_dropWhile (p := isDigitOf base)
            (l := skipPrefix base unsigned)
          rw [hvalue.1, List.append_nil] at hwhole
          rw [hwhole, ← hsubject, ← hunsigned, List.takeWhile_append_dropWhile]
        · exact fun b hb => List.mem_takeWhile_imp hb
        · exact fun d hd => List.mem_takeWhile_imp hd
  · rintro ⟨blanks, sign, lead, digits, h, hrange, rfl⟩
    have hne : ([] == text) = false := by
      cases htext : text with
      | nil => exact absurd htext h.ne_nil
      | cons c rest => rfl
    rw [wholeNumber, h.strtoull_eq, if_neg (not_le.2 hrange)]
    simp [hne]

end CNumber
