import SysAgent.Lib.Bytes
import SysAgent.Console.Numbers
import SysAgent.Sequence.Expand

set_option autoImplicit false

/-! # The runtime estimate and the walker (`commands.c`, `sequence_repeat.c`)

`clickSequence` sleeps for every wait and every click of the tokens it walks. The estimate adds up
what `tokenCostMs` says of the same tokens, modulo 2^64, and reads the waits with a parser of its
own. -/

namespace SysAgent

open CNumber

def waitMark : UInt8 := 'W'.toUInt8

/-- A token with a stick's x value. -/
def isStick (command : List UInt8) : Bool :=
  command.head? == some '%'.toUInt8 || command.head? == some '&'.toUInt8

/-- A press or a release. -/
def isHold (command : List UInt8) : Bool :=
  command.head? == some '+'.toUInt8 || command.head? == some '-'.toUInt8

def isWait (command : List UInt8) : Bool :=
  command.head? == some waitMark

/-- The delays of `clickSequence` in milliseconds. A stick token takes the next token as its y
    value. -/
def clickSequence (buttonClickSleepTime : UInt64) : List (List UInt8) → List UInt64
  | [] => []
  | command :: rest =>
    if isStick command then
      match rest with
      | [] => []
      | _ :: rest => clickSequence buttonClickSleepTime rest
    else if isHold command then clickSequence buttonClickSleepTime rest
    else if isWait command then
      parseStringToInt command.tail :: clickSequence buttonClickSleepTime rest
    else buttonClickSleepTime :: clickSequence buttonClickSleepTime rest

/-- The estimate of an accepted sequence is the sum of the delays, or the largest number if that
    does not fit. -/
def EstimateLaw (sequence : CString) (buffer beyond : List UInt8) (clickCostMs : UInt64) : Prop :=
  let r := sequenceExpand (some sequence) (some (buffer ++ beyond)) buffer.length clickCostMs
  r.result = .ok → r.info.estimatedMs.toNat =
    min ((clickSequence clickCostMs (sequenceTokens (some (CString.at r.out).bytes))).map
      UInt64.toNat).sum (2 ^ 64 - 1)

/-! ## The tokens that take time -/

/-- The waits and clicks of some tokens; with `stickValueNext` the first one is a y value. -/
def timedTokens : Bool → List (List UInt8) → List (List UInt8)
  | _, [] => []
  | true, _ :: tokens => timedTokens false tokens
  | false, token :: tokens =>
    if isStick token then timedTokens true tokens
    else if isHold token then timedTokens false tokens
    else token :: timedTokens false tokens

/-- What `clickSequence` sleeps for a wait or a click. -/
def sleepMs (clickCostMs : UInt64) (token : List UInt8) : UInt64 :=
  if isWait token then parseStringToInt token.tail else clickCostMs

/-- What the estimate has for it. -/
def costMs (clickCostMs : UInt64) (token : List UInt8) : UInt64 :=
  if isWait token then ExpandState.parseWaitMs token.tail else clickCostMs

theorem clickSequence_eq (clickCostMs : UInt64) (tokens : List (List UInt8)) :
    clickSequence clickCostMs tokens = (timedTokens false tokens).map (sleepMs clickCostMs) := by
  induction hn : tokens.length using Nat.strong_induction_on generalizing tokens with
  | _ n ih =>
    cases tokens with
    | nil => rfl
    | cons command rest =>
      rw [List.length_cons] at hn
      unfold clickSequence timedTokens
      by_cases hstick : isStick command = true
      · rw [if_pos hstick, if_pos hstick]
        cases rest with
        | nil => rfl
        | cons value rest =>
          rw [List.length_cons] at hn
          exact ih rest.length (by omega) rest rfl
      · have hrest := ih rest.length (by omega) rest rfl
        rw [if_neg hstick, if_neg hstick]
        by_cases hhold : isHold command = true
        · rw [if_pos hhold, if_pos hhold, hrest]
        · rw [if_neg hhold, if_neg hhold, List.map_cons, ← hrest, sleepMs]
          by_cases hwait : isWait command = true
          · rw [if_pos hwait, if_pos hwait]
          · rw [if_neg hwait, if_neg hwait]

namespace ExpandState

variable {state st' : ExpandState}

/-- What a token adds to the estimate. -/
theorem emitToken_estimate {tokenBegin : Nat} {token : List UInt8}
    (h : (state.emitToken tokenBegin token).toOption = some st') :
    st'.estimatedMs = state.estimatedMs + (state.tokenCostMs token).1 ∧
      st'.stickValueNext = (state.tokenCostMs token).2 ∧ st'.clickCostMs = state.clickCostMs := by
  simp only [emitToken, fail, length_separator, append_separator] at h
  split at h
  · cases h
  · split at h
    · cases h
    · rw [← Option.some.inj h]
      exact ⟨rfl, rfl, rfl⟩

theorem tokenCostMs_value (h : state.stickValueNext = true) (token : List UInt8) :
    state.tokenCostMs token = (0, false) := by
  rw [tokenCostMs, if_pos h]

theorem tokenCostMs_eq (h : state.stickValueNext = false) {token : List UInt8} :
    state.tokenCostMs token =
      if isStick token then (0, true)
      else if isHold token then (0, false)
      else (costMs state.clickCostMs token, false) := by
  rw [tokenCostMs, if_neg (by rw [h]; decide)]
  cases token with
  | nil => rfl
  | cons first rest =>
    have hw : ('W'.toUInt8 : UInt8) = 0x57 := rfl
    have hplus : ('+'.toUInt8 : UInt8) = 0x2B := rfl
    have hminus : ('-'.toUInt8 : UInt8) = 0x2D := rfl
    have hleft : ('%'.toUInt8 : UInt8) = 0x25 := rfl
    have hright : ('&'.toUInt8 : UInt8) = 0x26 := rfl
    simp only [List.head?_cons, isStick, isHold, costMs, isWait, waitMark, List.tail_cons, hw,
      hplus, hminus, hleft, hright, beq_iff_eq, Bool.or_eq_true, Option.some.injEq]
    by_cases hwait : first = 0x57
    · subst hwait
      rfl
    · by_cases hhold : first = 0x2B ∨ first = 0x2D
      · have hstick : ¬ (first = 0x25 ∨ first = 0x26) := by
          rcases hhold with rfl | rfl <;> decide
        rw [if_neg hwait, if_pos hhold, if_neg hstick, if_pos hhold]
      · rw [if_neg hwait, if_neg hhold, if_neg hhold, if_neg hwait]

/-- The estimate after some tokens. -/
theorem estimatedMs_of_emits {tokens : List (List UInt8)} (h : state.emits tokens = some st') :
    st'.estimatedMs = state.estimatedMs +
      ((timedTokens state.stickValueNext tokens).map (costMs state.clickCostMs)).sum := by
  induction tokens generalizing state with
  | nil =>
    obtain rfl : state = st' := Option.some.inj h
    cases hstick : state.stickValueNext <;> simp [timedTokens]
  | cons token tokens ih =>
    rw [emits_cons, ← toOption_emitToken state 0] at h
    obtain ⟨st1, hst1, hmore⟩ := Option.bind_eq_some_iff.1 h
    obtain ⟨hestimate, hnext, hclick⟩ := emitToken_estimate hst1
    rw [ih hmore, hestimate, hnext, hclick]
    cases hstick : state.stickValueNext with
    | true => rw [tokenCostMs_value hstick, UInt64.add_zero, timedTokens]
    | false =>
      rw [tokenCostMs_eq hstick, timedTokens]
      split_ifs
      · rw [UInt64.add_zero]
      · rw [UInt64.add_zero]
      · rw [List.map_cons, List.sum_cons, UInt64.add_assoc]

end ExpandState

/-! ## The two readings of a wait -/

/-- The number that digits continue. -/
def numberFrom (base value : Nat) (digits : List UInt8) : Nat :=
  digits.foldl (fun n d => n * base + (digitValue d).getD 0) value

/-- A number of the grammar. -/
def numeralValue (text : List UInt8) : Option Nat :=
  let (base, digits) := splitBase text
  if digits ≠ [] ∧ digits.all (isDigitOf base) then some (number base digits) else none

/-- Digits, behind an optional 0x, that do not fit, whatever follows them. -/
def tooBig (text : List UInt8) : Bool :=
  let (base, digits) := splitBase text
  2 ^ 64 ≤ number base (digits.takeWhile (isDigitOf base))

section Waits

variable {base value : Nat} {text : List UInt8}

theorem base_cases (text : List UInt8) : (splitBase text).1 = 10 ∨ (splitBase text).1 = 16 := by
  rcases splitBase_cases text with h | ⟨x, rest, -, -, h⟩
  · exact Or.inl (congrArg Prod.fst h)
  · exact Or.inr (congrArg Prod.fst h)

theorem waitDigit_eq (hbase : base = 10 ∨ base = 16) (b : UInt8) :
    ExpandState.waitDigit base b = if isDigitOf base b then digitValue b else none := by
  have hb := Bytes.forall_byte (p := fun b =>
      ExpandState.waitDigit 10 b = (if isDigitOf 10 b then digitValue b else none) ∧
      ExpandState.waitDigit 16 b = if isDigitOf 16 b then digitValue b else none)
    (by decide +kernel) b
  rcases hbase with rfl | rfl
  · exact hb.1
  · exact hb.2

theorem le_numberFrom (hbase : 0 < base) (digits : List UInt8) :
    value ≤ numberFrom base value digits := by
  induction digits generalizing value with
  | nil => exact Nat.le_refl _
  | cons d digits ih =>
    refine le_trans ?_ ih
    exact le_trans (Nat.le_mul_of_pos_right value hbase) (Nat.le_add_right _ _)

/-- The digit loop of `parseWaitMs` stops where the number does not fit, or at another character. -/
theorem waitDigits_eq (hbase : base = 10 ∨ base = 16) (hvalue : value < 2 ^ 64)
    (text : List UInt8) :
    ExpandState.waitDigits base value text =
      if 2 ^ 64 ≤ numberFrom base value (text.takeWhile (isDigitOf base)) then 2 ^ 64 - 1
      else if text.all (isDigitOf base) then numberFrom base value text else 0 := by
  have hpos : 0 < base := by omega
  induction text generalizing value with
  | nil =>
    rw [ExpandState.waitDigits, List.takeWhile_nil,
      if_neg (show ¬ 2 ^ 64 ≤ numberFrom base value [] from not_le.2 hvalue)]
    rfl
  | cons b text ih =>
    rw [ExpandState.waitDigits, waitDigit_eq hbase]
    by_cases hdigit : isDigitOf base b = true
    · obtain ⟨d, hd, hlt⟩ : ∃ d, digitValue b = some d ∧ d < base := by
        unfold isDigitOf at hdigit
        cases hb : digitValue b with
        | none => rw [hb] at hdigit; cases hdigit
        | some d => rw [hb] at hdigit; exact ⟨d, rfl, of_decide_eq_true hdigit⟩
      have hfrom (rest : List UInt8) : numberFrom base value (b :: rest) =
          numberFrom base (value * base + d) rest := by
        rw [numberFrom, List.foldl_cons, hd]
        rfl
      have hover : value > (2 ^ 64 - 1 - d) / base ↔ 2 ^ 64 ≤ value * base + d := by
        rw [gt_iff_lt, Nat.div_lt_iff_lt_mul hpos]
        omega
      rw [if_pos hdigit, hd]
      simp only
      rw [List.takeWhile_cons_of_pos hdigit, hfrom, List.all_cons, hdigit, Bool.true_and, hfrom]
      by_cases hbig : 2 ^ 64 ≤ value * base + d
      · rw [if_pos (hover.2 hbig), if_pos (le_trans hbig (le_numberFrom hpos _))]
      · rw [if_neg fun h => hbig (hover.1 h)]
        exact ih (not_le.1 hbig)
    · rw [if_neg hdigit, List.takeWhile_cons_of_neg hdigit, List.all_cons,
        Bool.eq_false_iff.2 hdigit, Bool.false_and]
      simp only
      rw [if_neg (show ¬ 2 ^ 64 ≤ numberFrom base value [] from not_le.2 hvalue)]
      rfl

/-- What the estimate has for a wait. -/
theorem parseWaitMs_eq (text : List UInt8) :
    (ExpandState.parseWaitMs text).toNat =
      if tooBig text then 2 ^ 64 - 1 else (numeralValue text).getD 0 := by
  have hsplit : ExpandState.parseWaitMs text =
      UInt64.ofNat (ExpandState.waitDigits (splitBase text).1 0 (splitBase text).2) := by
    unfold ExpandState.parseWaitMs
    split
    · rename_i zero x digits
      have hmark : (zero == '0'.toUInt8 && (x == 'x'.toUInt8 || x == 'X'.toUInt8)) =
          decide (zero = 0x30 ∧ isX x = true) := by
        have hzero : ('0'.toUInt8 : UInt8) = 0x30 := rfl
        have hx : ('x'.toUInt8 : UInt8) = 0x78 := rfl
        have hX : ('X'.toUInt8 : UInt8) = 0x58 := rfl
        exact Bool.eq_iff_iff.2 (by simp [hzero, hx, hX, isX])
      rw [hmark, splitBase]
      by_cases hprefix : zero = 0x30 ∧ isX x = true
      · rw [if_pos (decide_eq_true hprefix), if_pos hprefix]
      · rw [if_neg (by simpa using hprefix), if_neg hprefix]
    · rename_i hshort
      have hnone : splitBase text = (10, text) := by
        unfold splitBase
        split
        · exact absurd rfl (hshort _ _ _)
        · rfl
      rw [hnone]
  have hread := waitDigits_eq (base_cases text) (show 0 < 2 ^ 64 by decide) (splitBase text).2
  have hnumber (digits : List UInt8) :
      numberFrom (splitBase text).1 0 digits = number (splitBase text).1 digits := rfl
  rw [hnumber, hnumber] at hread
  rw [hsplit, hread]
  unfold tooBig numeralValue
  simp only [decide_eq_true_eq]
  by_cases hbig : 2 ^ 64 ≤
      number (splitBase text).1 ((splitBase text).2.takeWhile (isDigitOf (splitBase text).1))
  · rw [if_pos hbig, if_pos hbig]
    rfl
  · rw [if_neg hbig, if_neg hbig]
    by_cases hall : (splitBase text).2.all (isDigitOf (splitBase text).1) = true
    · have htake : (splitBase text).2.takeWhile (isDigitOf (splitBase text).1) =
          (splitBase text).2 := List.takeWhile_eq_self_iff.2 (List.all_eq_true.1 hall)
      rw [htake] at hbig
      rw [if_pos hall, UInt64.toNat_ofNat', Nat.mod_eq_of_lt (not_le.1 hbig)]
      by_cases hnil : (splitBase text).2 = []
      · rw [if_neg fun h => h.1 hnil, hnil]
        rfl
      · rw [if_pos ⟨hnil, hall⟩]
        rfl
    · rw [if_neg hall, if_neg fun h => hall h.2]
      rfl

theorem numeralValue_eq_some : numeralValue text = some value ↔ Numeral text value := by
  unfold numeralValue
  simp only [Option.ite_none_right_eq_some, Option.some.injEq]
  constructor
  · rintro ⟨⟨hnil, hall⟩, rfl⟩
    have hdigits := List.all_eq_true.1 hall
    rcases splitBase_cases text with hbase | ⟨x, rest, hx, htext, hbase⟩
    · rw [hbase] at hnil hdigits ⊢
      exact .decimal hnil hdigits
    · rw [hbase] at hnil hdigits ⊢
      rw [htext]
      exact .hexadecimal hx hnil hdigits
  · intro h
    cases h with
    | decimal nonempty all =>
      rw [splitBase_decimal all]
      exact ⟨⟨nonempty, List.all_eq_true.2 all⟩, rfl⟩
    | hexadecimal letter nonempty all =>
      rw [splitBase_hexadecimal letter]
      exact ⟨⟨nonempty, List.all_eq_true.2 all⟩, rfl⟩

/-- In front of a blank, a sign or a second 0x there is at most a zero. -/
theorem digits_of_spelled {blanks sign lead digits : List UInt8}
    (h : Spelled base text blanks sign lead digits)
    (hextra : blanks ≠ [] ∨ sign ≠ [] ∨ lead ≠ []) :
    text.takeWhile (isDigitOf base) = [] ∨ text.takeWhile (isDigitOf base) = [0x30] := by
  have hstop {c : UInt8} (rest : List UInt8)
      (hc : isBlank c = true ∨ c = 0x2D ∨ c = 0x2B ∨ isX c = true) :
      (c :: rest).takeWhile (isDigitOf base) = [] := by
    refine List.takeWhile_cons_of_neg fun hdigit => ?_
    obtain ⟨hblank, hminus, hplus, hx⟩ := digit_apart hdigit
    rcases hc with hc | hc | hc | hc
    · rw [hblank] at hc
      cases hc
    · exact hminus hc
    · exact hplus hc
    · rw [hx] at hc
      cases hc
  rw [h.text_eq]
  cases hblanks : blanks with
  | cons b blanks' =>
    exact Or.inl (hstop _ (Or.inl (h.blanks b (by rw [hblanks]; exact List.mem_cons_self))))
  | nil =>
    rcases h.sign with hsign | hsign | hsign
    · rcases h.lead with hlead | ⟨-, x, hx, hlead⟩
      · rcases hextra with hne | hne | hne
        · exact absurd hblanks hne
        · exact absurd hsign hne
        · exact absurd hlead hne
      · rw [hsign, hlead]
        show (0x30 :: x :: digits).takeWhile (isDigitOf base) = [] ∨ _
        by_cases hzero : isDigitOf base 0x30 = true
        · right
          show (0x30 :: x :: digits).takeWhile (isDigitOf base) = [0x30]
          rw [List.takeWhile_cons_of_pos hzero, hstop digits (Or.inr (Or.inr (Or.inr hx)))]
        · exact Or.inl (List.takeWhile_cons_of_neg hzero)
    · rw [hsign]
      exact Or.inl (hstop _ (Or.inr (Or.inl rfl)))
    · rw [hsign]
      exact Or.inl (hstop _ (Or.inr (Or.inr (Or.inl rfl))))

theorem not_tooBig_of_loosely (h : Loosely text value) : tooBig text = false := by
  obtain ⟨base', rest, blanks, sign, lead, digits, hbase, hspelled, hextra, -, -⟩ := h
  have hsplit : splitBase text = (base', rest) := by
    rcases hbase with ⟨rfl, rfl⟩ | ⟨rfl, x, hx, rfl⟩
    · obtain ⟨c, after, htext, hfront⟩ := front_of_spelled hspelled hextra
      rw [htext]
      exact splitBase_of_front (front_ne_zero (hfront.imp_right fun h => h.imp_left And.left))
    · exact splitBase_hexadecimal hx
  unfold tooBig
  rw [hsplit]
  simp only
  refine decide_eq_false (not_le.2 ?_)
  rcases digits_of_spelled hspelled hextra with hnone | hzero
  · rw [hnone]
    exact Nat.two_pow_pos 64
  · rw [hzero]
    show 0 * base' + 0 < 2 ^ 64
    rw [Nat.zero_mul]
    exact Nat.two_pow_pos 64

theorem numeral_lt {n : Nat} (hbig : tooBig text = false) (hvalue : numeralValue text = some n) :
    n < 2 ^ 64 := by
  unfold numeralValue at hvalue
  simp only [Option.ite_none_right_eq_some, Option.some.injEq] at hvalue
  have htake := List.takeWhile_eq_self_iff.2 (List.all_eq_true.1 hvalue.1.2)
  have hlt : ¬ 2 ^ 64 ≤ number (splitBase text).1
      ((splitBase text).2.takeWhile (isDigitOf (splitBase text).1)) := of_decide_eq_false hbig
  rw [htake, hvalue.2] at hlt
  exact not_le.1 hlt

/-- A number that does not fit is no number for the walker, whatever follows it. -/
theorem parseStringToInt_tooBig (h : tooBig text = true) : parseStringToInt text = 0 := by
  unfold parseStringToInt
  split_ifs with hnil
  · rfl
  cases hparsed : parseDigits text with
  | none => rfl
  | some n =>
    exfalso
    rcases parseDigits_eq_some.1 hparsed with ⟨hnumeral, hrange⟩ | hloosely
    · have hbig : 2 ^ 64 ≤ number (splitBase text).1
          ((splitBase text).2.takeWhile (isDigitOf (splitBase text).1)) := of_decide_eq_true h
      have hvalue := numeralValue_eq_some.2 hnumeral
      unfold numeralValue at hvalue
      simp only [Option.ite_none_right_eq_some, Option.some.injEq] at hvalue
      have htake := List.takeWhile_eq_self_iff.2 (List.all_eq_true.1 hvalue.1.2)
      rw [htake, hvalue.2] at hbig
      exact absurd hrange (not_lt.2 hbig)
    · rw [not_tooBig_of_loosely hloosely] at h
      cases h

/-- A number that fits is read alike. -/
theorem parseStringToInt_numeral {n : Nat} (hbig : tooBig text = false)
    (hvalue : numeralValue text = some n) : (parseStringToInt text).toNat = n := by
  have hnumeral := numeralValue_eq_some.1 hvalue
  have hrange := numeral_lt hbig hvalue
  rw [parseStringToInt, if_neg hnumeral.ne_nil,
    parseDigits_eq_some.2 (Or.inl ⟨hnumeral, hrange⟩)]
  show (UInt64.ofNat n).toNat = n
  rw [UInt64.toNat_ofNat', Nat.mod_eq_of_lt hrange]

end Waits

/-! ## The law -/

/-- What a wait or a click is read as: its milliseconds where both parsers agree, whether the
    estimate alone takes it for the largest number, and what the walker alone reads. -/
structure Reading where
  plain : Nat
  tooBig : Nat
  loose : Nat

def reading (clickCostMs : UInt64) (token : List UInt8) : Reading :=
  if isWait token then
    if tooBig token.tail then ⟨0, 1, 0⟩
    else
      match numeralValue token.tail with
      | some n => ⟨n, 0, 0⟩
      | none => ⟨0, 0, (parseStringToInt token.tail).toNat⟩
  else ⟨clickCostMs.toNat, 0, 0⟩

/-- The readings of the tokens that take time, added up. -/
def totalReading (clickCostMs : UInt64) (tokens : List (List UInt8)) : Reading :=
  let readings := (timedTokens false tokens).map (reading clickCostMs)
  ⟨(readings.map Reading.plain).sum, (readings.map Reading.tooBig).sum,
    (readings.map Reading.loose).sum⟩

/-- The errors of the estimate do not show: there is none, or they cancel out. -/
def Reading.Balanced (r : Reading) : Prop :=
  (r.plain + (2 ^ 64 - 1) * r.tooBig) % 2 ^ 64 = min (r.plain + r.loose) (2 ^ 64 - 1)

theorem Reading.balanced_of_plain {r : Reading} (hfits : r.plain < 2 ^ 64) (hbig : r.tooBig = 0)
    (hloose : r.loose = 0) : r.Balanced := by
  unfold Reading.Balanced
  rw [hbig, hloose, Nat.mul_zero, Nat.add_zero, Nat.mod_eq_of_lt hfits]
  omega

section Law

variable {clickCostMs : UInt64}

theorem costMs_reading (token : List UInt8) :
    (costMs clickCostMs token).toNat =
      (reading clickCostMs token).plain + (2 ^ 64 - 1) * (reading clickCostMs token).tooBig := by
  unfold costMs reading
  by_cases hwait : isWait token = true
  · rw [if_pos hwait, if_pos hwait, parseWaitMs_eq]
    by_cases hbig : tooBig token.tail = true
    · rw [if_pos hbig, if_pos hbig]
      exact ((Nat.zero_add _).trans (Nat.mul_one _)).symm
    · rw [if_neg hbig, if_neg hbig]
      cases numeralValue token.tail <;> rfl
  · rw [if_neg hwait, if_neg hwait]
    rfl

theorem sleepMs_reading (token : List UInt8) :
    (sleepMs clickCostMs token).toNat =
      (reading clickCostMs token).plain + (reading clickCostMs token).loose := by
  unfold sleepMs reading
  by_cases hwait : isWait token = true
  · rw [if_pos hwait, if_pos hwait]
    by_cases hbig : tooBig token.tail = true
    · rw [if_pos hbig, parseStringToInt_tooBig hbig]
      rfl
    · rw [if_neg hbig]
      cases hvalue : numeralValue token.tail with
      | none => exact (Nat.zero_add _).symm
      | some n => exact parseStringToInt_numeral (Bool.eq_false_iff.2 hbig) hvalue
  · rw [if_neg hwait, if_neg hwait]
    rfl

theorem toNat_sum (values : List UInt64) :
    values.sum.toNat = (values.map UInt64.toNat).sum % 2 ^ 64 := by
  induction values with
  | nil => rfl
  | cons value values ih =>
    rw [List.sum_cons, UInt64.toNat_add, ih, List.map_cons, List.sum_cons, Nat.add_mod_mod]

theorem sum_map_affine (k : Nat) (f g : List UInt8 → Nat) (tokens : List (List UInt8)) :
    (tokens.map fun token => f token + k * g token).sum =
      (tokens.map f).sum + k * (tokens.map g).sum := by
  induction tokens with
  | nil => rfl
  | cons token tokens ih =>
    simp only [List.map_cons, List.sum_cons, ih]
    ring

/-- The estimate of some tokens. -/
theorem estimate_eq (tokens : List (List UInt8)) :
    ((timedTokens false tokens).map (costMs clickCostMs)).sum.toNat =
      ((totalReading clickCostMs tokens).plain +
        (2 ^ 64 - 1) * (totalReading clickCostMs tokens).tooBig) % 2 ^ 64 := by
  rw [toNat_sum, List.map_map]
  simp only [Function.comp_def, costMs_reading, sum_map_affine, totalReading, List.map_map]

/-- The delays of some tokens. -/
theorem delays_eq (tokens : List (List UInt8)) :
    ((clickSequence clickCostMs tokens).map UInt64.toNat).sum =
      (totalReading clickCostMs tokens).plain + (totalReading clickCostMs tokens).loose := by
  have hone := sum_map_affine 1 (fun token => (reading clickCostMs token).plain)
    (fun token => (reading clickCostMs token).loose) (timedTokens false tokens)
  simp only [Nat.one_mul] at hone
  rw [clickSequence_eq, List.map_map]
  simp only [Function.comp_def, sleepMs_reading, totalReading, List.map_map]
  exact hone

end Law

/-- The estimate is right exactly when the readings of the tokens that the grammar derives balance:
    no wait is read differently and the sum fits, or the errors cancel out. -/
theorem estimate_exact_iff (sequence : CString) (buffer beyond : List UInt8)
    (clickCostMs : UInt64) :
    EstimateLaw sequence buffer beyond clickCostMs ↔
      ∀ tokens, Derives IsToken .items 0 sequence.bytes tokens → Fits buffer.length tokens →
        (totalReading clickCostMs tokens).Balanced := by
  have hexpands := sequenceExpand_expands sequence buffer beyond clickCostMs
  have hestimate : (sequenceExpand (some sequence) (some (buffer ++ beyond)) buffer.length
      clickCostMs).result = .ok → ∀ tokens, Derives IsToken .items 0 sequence.bytes tokens →
        (sequenceExpand (some sequence) (some (buffer ++ beyond)) buffer.length
          clickCostMs).info.estimatedMs =
            ((timedTokens false tokens).map (costMs clickCostMs)).sum := by
    intro hok tokens htokens
    cases buffer with
    | nil => cases hok
    | cons b buffer =>
      have houtcome := (holds_initial b buffer beyond clickCostMs).outcome_expandItems 0 0
        sequence.bytes
      have hemits := ExpandState.toOption_expandItems_of_derives
        (.start (copyTo (b :: buffer ++ beyond) 0 [0]) (buffer.length + 1) clickCostMs) htokens 0
      have hsize : (buffer.length + 1 == 0) = false := rfl
      simp only [sequenceExpand, List.length_cons, hsize, Bool.false_eq_true, if_false] at hok ⊢
      generalize hstart : ExpandState.start _ _ _ = state at *
      cases hrun : state.expandItems 0 0 sequence.bytes with
      | error e =>
        rw [hrun] at hok houtcome
        exact absurd hok houtcome.1
      | ok st =>
        rw [hrun] at hemits
        have h := ExpandState.estimatedMs_of_emits hemits.symm
        subst hstart
        exact h.trans (UInt64.zero_add _)
  unfold EstimateLaw Reading.Balanced
  simp only
  constructor
  · intro h tokens htokens hfits
    have hok := hexpands.ok_iff.2 ⟨tokens, htokens, hfits⟩
    have hlaw := h hok
    rwa [hestimate hok tokens htokens, (hexpands.output hok tokens htokens).2.2, estimate_eq,
      delays_eq] at hlaw
  · intro h hok
    obtain ⟨tokens, htokens, hfits⟩ := hexpands.ok_iff.1 hok
    rw [hestimate hok tokens htokens, (hexpands.output hok tokens htokens).2.2, estimate_eq,
      delays_eq]
    exact h tokens htokens hfits

/-- `W+5`, which the walker reads as 5 and the estimate as 0. -/
def signedWait : CString :=
  { bytes := [0x57, 0x2B, 0x35], noNul := by decide }

theorem signed_wait_not_estimated : ¬ EstimateLaw signedWait [0, 0, 0, 0] [] 0 := by
  rw [estimate_exact_iff]
  intro h
  have htoken : IsToken 0 [0x57, 0x2B, 0x35] :=
    { ne_nil := by decide
      plain := by unfold PlainByte; decide +kernel
      head := by decide
      inGroup := fun h => absurd rfl h }
  have hderives : Derives IsToken .items 0 signedWait.bytes [[0x57, 0x2B, 0x35]] :=
    derives_joinTokens fun token htoken' => ⟨0, (List.mem_singleton.1 htoken') ▸ htoken⟩
  have hbalanced := h _ hderives ⟨by decide, by decide⟩
  have hvalue : parseStringToInt [0x2B, 0x35] = 5 := by decide
  have hreading : reading 0 [0x57, 0x2B, 0x35] =
      ⟨0, 0, (parseStringToInt [0x2B, 0x35]).toNat⟩ := rfl
  have htotal : totalReading 0 [[0x57, 0x2B, 0x35]] = ⟨0, 0, 5⟩ := by
    have hone : totalReading 0 [[0x57, 0x2B, 0x35]] =
        ⟨(reading 0 [0x57, 0x2B, 0x35]).plain + 0,
          (reading 0 [0x57, 0x2B, 0x35]).tooBig + 0,
          (reading 0 [0x57, 0x2B, 0x35]).loose + 0⟩ := rfl
    rw [hone, hreading, hvalue]
    rfl
  rw [htotal] at hbalanced
  exact absurd hbalanced (by unfold Reading.Balanced; decide)

end SysAgent
