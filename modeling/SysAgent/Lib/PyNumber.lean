import Mathlib
import SysAgent.Lib.FieldLine

set_option autoImplicit false

/-! # Numbers as Python reads them

`int(text, base)` for ASCII text: blanks around the number, a sign, a prefix that names a base, single
underscores between the digits, and a limit on the number of digits of a base that is no power of two.
`int_digits` and `int_decimal` read plain digits back. -/

namespace PyNumber

/-- The value of a digit or a letter. -/
def digitValue (c : Char) : Option Nat :=
  if '0' ≤ c ∧ c ≤ '9' then some (c.toNat - 48)
  else if 'a' ≤ c ∧ c ≤ 'z' then some (c.toNat - 87)
  else if 'A' ≤ c ∧ c ≤ 'Z' then some (c.toNat - 55)
  else none

/-- `sys.get_int_max_str_digits()` -/
def maxStrDigits : Nat := 4300

def isPowerOfTwo (base : Nat) : Bool := base = 2 || base = 4 || base = 8 || base = 16 || base = 32

/-- A digit below the base. -/
def digitOf (base : Nat) (c : Char) : Option Nat :=
  (digitValue c).bind fun d => if d < base then some d else none

/-- The number of digits in groups between underscores. -/
def number (base : Nat) (text : List Char) : Option Nat :=
  if (text.splitOn '_').any List.isEmpty then none
  else
    match (text.splitOn '_').flatten.mapM (digitOf base) with
    | none => none
    | some digits =>
      if isPowerOfTwo base = false ∧ maxStrDigits < digits.length then none
      else some (digits.foldl (fun n d => n * base + d) 0)

/-- The base that a prefix names. -/
def prefixBase : List Char → Option Nat
  | '0' :: c :: _ =>
    if c = 'x' ∨ c = 'X' then some 16
    else if c = 'o' ∨ c = 'O' then some 8
    else if c = 'b' ∨ c = 'B' then some 2
    else none
  | _ => none

/-- An underscore may follow a prefix. -/
def afterPrefix (text : List Char) : List Char :=
  if (text.drop 2).head? = some '_' then text.drop 3 else text.drop 2

/-- A number without a sign; base 0 takes the base from the prefix, and no leading zeros without
    one. -/
def unsigned (base : Nat) (text : List Char) : Option Nat :=
  match prefixBase text with
  | some named =>
    if base = 0 ∨ base = named then number named (afterPrefix text) else number base text
  | none =>
    if base = 0 then
      (number 10 text).bind fun n => if text.head? = some '0' ∧ n ≠ 0 then none else some n
    else number base text

def stripLeft (text : List Char) : List Char := text.dropWhile FieldLine.isBlank

def strip (text : List Char) : List Char := (stripLeft (stripLeft text).reverse).reverse

/-- `int(text, base)`, `none` for a `ValueError`. -/
def int (base : Nat) (text : List Char) : Option Int :=
  match strip text with
  | '-' :: rest => (unsigned base rest).map fun n => -(n : Int)
  | '+' :: rest => (unsigned base rest).map fun n => (n : Int)
  | rest => (unsigned base rest).map fun n => (n : Int)

/-! ## Digits are read back -/

section Digits

variable {base : Nat} {text : List Char} {digits : List Nat}

/-- The text is these digits. -/
def AreDigits (base : Nat) (text : List Char) (digits : List Nat) : Prop :=
  text.map (digitOf base) = digits.map some

theorem AreDigits.mem (h : AreDigits base text digits) {c : Char} (hc : c ∈ text) :
    ∃ d, digitOf base c = some d := by
  have hmem : digitOf base c ∈ text.map (digitOf base) := List.mem_map_of_mem hc
  rw [h] at hmem
  obtain ⟨d, -, hd⟩ := List.mem_map.1 hmem
  exact ⟨d, hd.symm⟩

/-- A digit is no blank, no sign and no underscore. -/
theorem digit_apart {c : Char} {d : Nat} (h : digitValue c = some d) :
    FieldLine.isBlank c = false ∧ c ≠ '-' ∧ c ≠ '+' ∧ c ≠ '_' := by
  have hnat : 48 ≤ c.toNat ∧ c.toNat ≤ 122 ∧ c ≠ '_' := by
    unfold digitValue at h
    split_ifs at h with hdecimal hlower hupper
    · have h0 : 48 ≤ c.toNat := hdecimal.1
      have h9 : c.toNat ≤ 57 := hdecimal.2
      refine ⟨h0, by omega, ?_⟩
      rintro rfl
      exact absurd h9 (by decide)
    · have h0 : 97 ≤ c.toNat := hlower.1
      have h9 : c.toNat ≤ 122 := hlower.2
      refine ⟨by omega, h9, ?_⟩
      rintro rfl
      exact absurd h0 (by decide)
    · have h0 : 65 ≤ c.toNat := hupper.1
      have h9 : c.toNat ≤ 90 := hupper.2
      refine ⟨by omega, by omega, ?_⟩
      rintro rfl
      exact absurd h9 (by decide)
  obtain ⟨hlow, hhigh, hunderscore⟩ := hnat
  -- the signs and the space lie below the digits
  have hne : ∀ other : Char, other.toNat < 48 → c ≠ other := by
    rintro other hother rfl
    omega
  refine ⟨?_, hne _ (by decide), hne _ (by decide), hunderscore⟩
  unfold FieldLine.isBlank
  have hspace : c ≠ ' ' := hne _ (by decide)
  simp only [hspace, decide_false, Bool.false_or, Bool.or_eq_false_iff, Bool.and_eq_false_iff,
    decide_eq_false_iff_not]
  omega

theorem digitValue_of_digitOf {c : Char} {d : Nat} (h : digitOf base c = some d) :
    digitValue c = some d ∧ d < base := by
  obtain ⟨e, he, hlt⟩ := Option.bind_eq_some_iff.1 h
  split_ifs at hlt with hbase
  obtain rfl := Option.some.inj hlt
  exact ⟨he, hbase⟩

theorem AreDigits.apart (h : AreDigits base text digits) {c : Char} (hc : c ∈ text) :
    FieldLine.isBlank c = false ∧ c ≠ '-' ∧ c ≠ '+' ∧ c ≠ '_' := by
  obtain ⟨d, hd⟩ := h.mem hc
  exact digit_apart (digitValue_of_digitOf hd).1

theorem mapM_of_map {α β : Type} {f : α → Option β} {xs : List α} {ys : List β}
    (h : xs.map f = ys.map some) : xs.mapM f = some ys := by
  induction xs generalizing ys with
  | nil =>
    obtain rfl := List.map_eq_nil_iff.1 h.symm
    rfl
  | cons x xs ih =>
    cases ys with
    | nil => cases h
    | cons y ys =>
      obtain ⟨hx, hxs⟩ := List.cons_eq_cons.1 h
      rw [List.mapM_cons, hx, ih hxs]
      rfl

/-- Plain digits are their number. -/
theorem number_of_digits (h : AreDigits base text digits) (hne : text ≠ [])
    (hlimit : isPowerOfTwo base = true ∨ digits.length ≤ maxStrDigits) :
    number base text = some (digits.foldl (fun n d => n * base + d) 0) := by
  have hsplit : text.splitOn '_' = [text] := by
    refine List.splitOnP_eq_singleton ?_
    intro c hc
    exact beq_false_of_ne (h.apart hc).2.2.2
  have hgroups : ¬ (text.splitOn '_').any List.isEmpty = true := by
    rw [hsplit, List.any_cons, List.any_nil, Bool.or_false, List.isEmpty_iff]
    exact hne
  unfold number
  rw [if_neg hgroups, hsplit, List.flatten_singleton, mapM_of_map h]
  dsimp only
  rw [if_neg]
  rintro ⟨hpower, hlong⟩
  rcases hlimit with htwo | hshort
  · rw [htwo] at hpower
    cases hpower
  · omega

theorem stripLeft_of_first {c : Char} {rest : List Char} (h : FieldLine.isBlank c = false) :
    stripLeft (c :: rest) = c :: rest :=
  List.dropWhile_cons_of_neg (by rw [h]; exact Bool.false_ne_true)

theorem strip_of_noBlank (h : ∀ c ∈ text, FieldLine.isBlank c = false) : strip text = text := by
  have hleft : ∀ other : List Char, (∀ c ∈ other, FieldLine.isBlank c = false) →
      stripLeft other = other := by
    intro other hother
    cases other with
    | nil => rfl
    | cons c rest => exact stripLeft_of_first (hother c List.mem_cons_self)
  unfold strip
  rw [hleft text h, hleft text.reverse fun c hc => h c (List.mem_reverse.1 hc),
    List.reverse_reverse]

/-- Digits have no sign. -/
theorem int_of_digits (h : AreDigits base text digits) {named : Nat} :
    int named text = (unsigned named text).map fun n => (n : Int) := by
  unfold int
  rw [strip_of_noBlank fun c hc => (h.apart hc).1]
  split
  · exact absurd rfl (h.apart List.mem_cons_self).2.1
  · exact absurd rfl (h.apart List.mem_cons_self).2.2.1
  · rfl

/-- `int(text, base)` of the digits of a base. -/
theorem int_digits (hbase : base ≠ 0) (hpower : isPowerOfTwo base = true)
    (h : AreDigits base text digits) (hne : text ≠ []) (hplain : prefixBase text ≠ some base) :
    int base text = some ((digits.foldl (fun n d => n * base + d) 0 : Nat) : Int) := by
  have hunsigned : unsigned base text = number base text := by
    unfold unsigned
    split
    · rename_i named hnamed
      rw [if_neg]
      rintro (hzero | rfl)
      · exact hbase hzero
      · exact hplain hnamed
    · rw [if_neg hbase]
  rw [int_of_digits h, hunsigned, number_of_digits h hne (.inl hpower)]
  rfl

/-- `int(text, 0)` of decimal digits without a leading zero. -/
theorem int_decimal (h : AreDigits 10 text digits) (hne : text ≠ [])
    (hlimit : digits.length ≤ maxStrDigits)
    (hlead : text.head? = some '0' → digits.foldl (fun n d => n * 10 + d) 0 = 0) :
    int 0 text = some ((digits.foldl (fun n d => n * 10 + d) 0 : Nat) : Int) := by
  have hbase : prefixBase text = none := by
    unfold prefixBase
    split
    · rename_i c rest
      -- behind a leading zero a decimal text has a digit, never the letter of a prefix
      have hten : ∀ letter : Char, digitOf 10 letter = none → c ≠ letter := by
        rintro letter hletter rfl
        obtain ⟨d, hd⟩ := h.mem (List.mem_cons_of_mem '0' List.mem_cons_self)
        rw [hletter] at hd
        cases hd
      rw [if_neg, if_neg, if_neg]
      · rintro (rfl | rfl)
        · exact hten 'b' (by decide) rfl
        · exact hten 'B' (by decide) rfl
      · rintro (rfl | rfl)
        · exact hten 'o' (by decide) rfl
        · exact hten 'O' (by decide) rfl
      · rintro (rfl | rfl)
        · exact hten 'x' (by decide) rfl
        · exact hten 'X' (by decide) rfl
    · rfl
  have hnumber := number_of_digits h hne (.inr hlimit)
  have hunsigned : unsigned 0 text = some (digits.foldl (fun n d => n * 10 + d) 0) := by
    unfold unsigned
    rw [hbase]
    dsimp only
    rw [if_pos rfl, hnumber, Option.bind_some, if_neg]
    rintro ⟨hzero, hvalue⟩
    exact hvalue (hlead hzero)
  rw [int_of_digits h, hunsigned]
  rfl

/-- The letter of the prefix is no digit of its base. -/
theorem prefixBase_of_digits (h : AreDigits 16 text digits) : prefixBase text ≠ some 16 := by
  unfold prefixBase
  split
  · rename_i c rest
    have hx : ∀ letter : Char, digitOf 16 letter = none → c ≠ letter := by
      rintro letter hletter rfl
      obtain ⟨d, hd⟩ := h.mem (List.mem_cons_of_mem '0' List.mem_cons_self)
      rw [hletter] at hd
      cases hd
    rw [if_neg]
    · split
      · simp
      · split <;> simp
    · rintro (rfl | rfl)
      · exact hx 'x' (by decide) rfl
      · exact hx 'X' (by decide) rfl
  · simp

theorem foldl_digits (base n : Nat) :
    (Nat.digits base n).reverse.foldl (fun n d => n * base + d) 0 = n := by
  rw [List.foldl_reverse]
  have hfold : ∀ ds : List Nat, ds.foldr (fun d n => n * base + d) 0 = Nat.ofDigits base ds := by
    intro ds
    induction ds with
    | nil => rfl
    | cons d ds ih =>
      rw [List.foldr_cons, ih, Nat.ofDigits_cons]
      ring
  rw [hfold, Nat.ofDigits_digits]

theorem foldl_zeros (base k : Nat) :
    (List.replicate k 0).foldl (fun n d => n * base + d) 0 = 0 := by
  induction k with
  | zero => rfl
  | succ k ih => rw [List.replicate_succ, List.foldl_cons, Nat.zero_mul, Nat.zero_add, ih]

end Digits

end PyNumber
