import SysAgent.Lib.Checked
import SysAgent.Lib.CNumber
import SysAgent.Sequence.Token

set_option autoImplicit false

/-! # Bluetooth addresses in commands (`commands.c`)

`parseBluetoothAddress` walks a pointer over the text. Its inner loop leaves the pointer behind a
pair, and the outer loop moves it once more: a character behind each pair is never looked at, and
behind a pair that ends the text the pointer has left it. Here a read outside of the text and its
NUL ends the run without a result. -/

namespace SysAgent

open Checked CNumber

/-- `BtdrvAddress` -/
structure BtdrvAddress where
  address : List UInt8
  size : address.length = 6
  deriving DecidableEq

/-- A colon or a hyphen. -/
def isPairSeparator (c : UInt8) : Bool := c == 0x3A || c == 0x2D

def isHexDigit (c : UInt8) : Bool := (digitValue c).isSome

/-- The byte that two digits stand for. -/
def pairValue (hi lo : Nat) : UInt8 := UInt8.ofNat (hi <<< 4 ||| lo)

/-! ## The code -/

/-- One turn of the inner loop; `*p == 0` and a character that is no digit end it alike. -/
def parseNibble (memory : List UInt8) (p : Nat) : Checked Unit Nat := do
  let c ← access memory p
  match digitValue c with
  | none => throw ()
  | some value => pure value

/-- The inner loop. -/
def parsePair (memory : List UInt8) (p : Nat) : Checked Unit UInt8 := do
  let hi ← parseNibble memory p
  let lo ← parseNibble memory (p + 1)
  pure (pairValue hi lo)

/-- The outer loop and what follows it. -/
def parsePairs (memory : List UInt8) (p : Nat) (bytes : List UInt8) :
    Checked Unit BtdrvAddress :=
  if h : p < memory.length then
    if memory[p] ≠ 0 ∧ bytes.length < 6 then
      if isPairSeparator memory[p] then parsePairs memory (p + 1) bytes
      else do
        let byte ← parsePair memory p
        -- the inner loop has moved `p` by two, and this loop moves it by one
        parsePairs memory (p + 2 + 1) (bytes ++ [byte])
    else if hcount : bytes.length = 6 then pure ⟨bytes, hcount⟩
    else throw ()
  else fault
termination_by memory.length - p

/-- `parseBluetoothAddress` on a text that is followed by its NUL. -/
def parseBluetoothAddress (text : CString) : Checked Unit BtdrvAddress :=
  parsePairs (text.bytes ++ [0]) 0 []

/-! ## What it should read -/

/-- Pairs of digits for these bytes, with a text that `gap` allows between two of them. -/
inductive Written (gap : List UInt8 → Prop) : List UInt8 → List UInt8 → Prop
  | last {h l : UInt8} {hi lo : Nat} (hhi : digitValue h = some hi) (hlo : digitValue l = some lo) :
    Written gap [h, l] [pairValue hi lo]
  | more {h l : UInt8} {hi lo : Nat} {between text bytes : List UInt8}
    (hhi : digitValue h = some hi) (hlo : digitValue l = some lo) (hgap : gap between)
    (hmore : Written gap text bytes) :
    Written gap (h :: l :: between ++ text) (pairValue hi lo :: bytes)

/-- The two documented forms. -/
def Documented (text bytes : List UInt8) : Prop :=
  Written (fun between => ∃ c, isPairSeparator c = true ∧ between = [c]) text bytes ∨
    Written (· = []) text bytes

/-- The text begins with pairs, and there is nothing but separators before each of them. -/
inductive BeginsWithPairs : Nat → List UInt8 → Prop
  | none (text : List UInt8) : BeginsWithPairs 0 text
  | separator {n : Nat} {c : UInt8} {text : List UInt8} (hc : isPairSeparator c = true)
    (hmore : BeginsWithPairs n text) : BeginsWithPairs n (c :: text)
  | pair {n : Nat} {h l : UInt8} {text : List UInt8} (hh : isHexDigit h = true)
    (hl : isHexDigit l = true) (hmore : BeginsWithPairs n text) :
    BeginsWithPairs (n + 1) (h :: l :: text)

/-- The text and its NUL are not left, a documented form is read as it is meant, and a text without
    six pairs is refused. -/
structure AddressLaw (text : CString) : Prop where
  inside : (parseBluetoothAddress text).run ≠ none
  accepts : ∀ a : BtdrvAddress, Documented text.bytes a.address →
    (parseBluetoothAddress text).run = some (.ok a)
  refuses : ¬ BeginsWithPairs 6 text.bytes → ∀ a, (parseBluetoothAddress text).run ≠ some (.ok a)

/-! ## What it does read -/

/-- The code takes so many pairs off the text, each with the character behind it. -/
inductive Takes : Nat → List UInt8 → List UInt8 → Prop
  | none (text : List UInt8) : Takes 0 text text
  | separator {n : Nat} {c : UInt8} {text rest : List UInt8} (hc : isPairSeparator c = true)
    (hmore : Takes n text rest) : Takes n (c :: text) rest
  | pair {n : Nat} {h l behind : UInt8} {text rest : List UInt8} (hh : isHexDigit h = true)
    (hl : isHexDigit l = true) (hmore : Takes n text rest) :
    Takes (n + 1) (h :: l :: behind :: text) rest

/-- No pair that the code comes to ends the text, six pairs with a character behind each have only
    separators before them, and the text is not a documented one without separators. -/
structure AddressReadable (text : List UInt8) : Prop where
  notLast : ∀ n < 6, ∀ h l, Takes n text [h, l] → ¬ (isHexDigit h = true ∧ isHexDigit l = true)
  spaced : ∀ rest, Takes 6 text rest → BeginsWithPairs 6 text
  notBare : ¬ (text.length = 12 ∧ ∀ c ∈ text, isHexDigit c = true)

/-- The code over the characters that are left. -/
def readPairs : List UInt8 → List UInt8 → Checked Unit BtdrvAddress
  | [], bytes => if hcount : bytes.length = 6 then pure ⟨bytes, hcount⟩ else throw ()
  | c :: rest, bytes =>
    if bytes.length < 6 then
      if isPairSeparator c then readPairs rest bytes
      else
        match digitValue c, rest with
        | some hi, l :: behind =>
          match digitValue l, behind with
          | some lo, _ :: more => readPairs more (bytes ++ [pairValue hi lo])
          | some _, [] => fault
          | none, _ => throw ()
        | _, _ => throw ()
    else if hcount : bytes.length = 6 then pure ⟨bytes, hcount⟩
    else throw ()

/-- One turn over the characters that are left. -/
theorem readPairs_cons (c : UInt8) (rest bytes : List UInt8) :
    readPairs (c :: rest) bytes =
      if bytes.length < 6 then
        if isPairSeparator c then readPairs rest bytes
        else
          match digitValue c, rest with
          | some hi, l :: behind =>
            match digitValue l, behind with
            | some lo, _ :: more => readPairs more (bytes ++ [pairValue hi lo])
            | some _, [] => fault
            | none, _ => throw ()
          | _, _ => throw ()
      else if hcount : bytes.length = 6 then pure ⟨bytes, hcount⟩
      else throw () := by
  rw [readPairs.eq_def]

theorem parseNibble_append {before rest : List UInt8} {c : UInt8} {p : Nat}
    (hp : p = before.length) :
    parseNibble (before ++ c :: rest) p = match digitValue c with
      | none => throw ()
      | some value => pure value := by
  have hlt : p < (before ++ c :: rest).length := by simp [hp]
  have hget : (before ++ c :: rest)[p] = c := by simp [hp]
  rw [parseNibble, access_bind hlt, hget]

/-- The pointer is at `text`. -/
theorem parsePairs_eq (before text bytes : List UInt8) (hnul : 0 ∉ text) :
    parsePairs (before ++ (text ++ [0])) before.length bytes = readPairs text bytes := by
  induction hn : text.length using Nat.strong_induction_on generalizing before text bytes with
  | _ n ih =>
    subst hn
    have hlt : before.length < (before ++ (text ++ [0])).length := by simp
    rw [parsePairs, dif_pos hlt]
    cases text with
    | nil =>
      rw [if_neg (by simp)]
      rfl
    | cons c rest =>
      have hc : c ≠ 0 := fun h => hnul (h ▸ List.mem_cons_self)
      have hget : (before ++ (c :: rest ++ [0]))[before.length] = c := by simp
      rw [hget, readPairs_cons]
      by_cases hcount : bytes.length < 6
      · rw [if_pos ⟨hc, hcount⟩, if_pos hcount]
        by_cases hseparator : isPairSeparator c = true
        · rw [if_pos hseparator, if_pos hseparator]
          have hmore := ih rest.length (by simp) (before ++ [c]) rest bytes
            (fun h => hnul (List.mem_cons_of_mem _ h)) rfl
          simpa using hmore
        · rw [if_neg hseparator, if_neg hseparator, parsePair, List.cons_append,
            parseNibble_append rfl]
          have hnext : before.length + 1 = (before ++ [c]).length := by simp
          cases hhi : digitValue c with
          | none => rfl
          | some hi =>
            rw [pure_bind]
            cases rest with
            | nil =>
              rw [List.nil_append, List.append_cons, parseNibble_append hnext]
              rfl
            | cons l behind =>
              rw [List.cons_append, List.append_cons, parseNibble_append hnext]
              dsimp only
              cases hlo : digitValue l with
              | none => rfl
              | some lo =>
                rw [pure_bind, pure_bind]
                cases behind with
                | nil =>
                  -- the pointer is behind the NUL
                  rw [parsePairs, dif_neg (by simp)]
                | cons skipped more =>
                  have hshorter : more.length < (c :: l :: skipped :: more).length := by
                    simp only [List.length_cons]
                    omega
                  have hmore := ih more.length hshorter (before ++ [c, l, skipped]) more
                    (bytes ++ [pairValue hi lo]) (fun h => hnul (by simp [h])) rfl
                  simpa using hmore
      · rw [if_neg (fun h => hcount h.2), if_neg hcount]

theorem not_separator_of_hex {c : UInt8} (h : isHexDigit c = true) :
    ¬ isPairSeparator c = true := by
  have hrange := digit_range h
  simp [isPairSeparator, ← UInt8.toNat_inj]
  omega

theorem isHexDigit_of_some {c : UInt8} {value : Nat} (h : digitValue c = some value) :
    isHexDigit c = true := by
  rw [isHexDigit, h]
  rfl

theorem readPairs_six {text bytes : List UInt8} (hcount : bytes.length = 6) :
    readPairs text bytes = pure ⟨bytes, hcount⟩ := by
  cases text with
  | nil => exact dif_pos hcount
  | cons c rest => rw [readPairs_cons, if_neg (by omega), dif_pos hcount]

/-- The code goes over what is taken. -/
theorem Takes.readPairs_eq {n : Nat} {text rest : List UInt8} (h : Takes n text rest)
    (bytes : List UInt8) (hcount : n + bytes.length ≤ 6) :
    ∃ taken : List UInt8, taken.length = n ∧
      readPairs text bytes = readPairs rest (bytes ++ taken) := by
  induction h generalizing bytes with
  | none text => exact ⟨[], rfl, by rw [List.append_nil]⟩
  | @separator n c text rest hc hmore ih =>
    obtain ⟨taken, hlength, htaken⟩ := ih bytes hcount
    refine ⟨taken, hlength, ?_⟩
    by_cases hsix : bytes.length = 6
    · have hnone : (bytes ++ taken).length = 6 := by
        rw [List.length_append]
        omega
      rw [← htaken, readPairs_six hsix, readPairs_six hsix]
    · rw [readPairs_cons, if_pos (by omega), if_pos hc, htaken]
  | @pair n h l behind text rest hh hl hmore ih =>
    obtain ⟨hi, hhi⟩ := Option.isSome_iff_exists.1 hh
    obtain ⟨lo, hlo⟩ := Option.isSome_iff_exists.1 hl
    obtain ⟨taken, hlength, htaken⟩ := ih (bytes ++ [pairValue hi lo]) (by
      rw [List.length_append]
      simp only [List.length_singleton]
      omega)
    refine ⟨pairValue hi lo :: taken, congrArg Nat.succ hlength, ?_⟩
    rw [readPairs_cons, if_pos (by omega), if_neg (not_separator_of_hex hh), hhi]
    dsimp only
    rw [hlo]
    dsimp only
    rw [htaken, List.append_assoc, List.singleton_append]

/-- Where the code leaves the text. -/
theorem readPairs_eq_none {text bytes : List UInt8} (h : (readPairs text bytes).run = none) :
    ∃ n, n + bytes.length < 6 ∧ ∃ h l, Takes n text [h, l] ∧
      isHexDigit h = true ∧ isHexDigit l = true := by
  fun_induction readPairs text bytes with
  | case1 bytes hcount => cases h
  | case2 bytes hcount => cases h
  | case3 c rest bytes hcount hseparator ih =>
    obtain ⟨n, hn, hi, lo, htakes, hhex⟩ := ih h
    exact ⟨n, hn, hi, lo, .separator hseparator htakes, hhex⟩
  | case4 c bytes hcount hseparator hi l hhi lo behind more hlo ih =>
    obtain ⟨n, hn, hi, lo, htakes, hhex⟩ := ih h
    rw [List.length_append, List.length_singleton] at hn
    exact ⟨n + 1, by omega, hi, lo,
      .pair (isHexDigit_of_some hhi) (isHexDigit_of_some hlo) htakes, hhex⟩
  | case5 c bytes hcount hseparator hi l hhi lo hlo =>
    exact ⟨0, by omega, c, l, .none _, isHexDigit_of_some hhi, isHexDigit_of_some hlo⟩
  | case6 => cases h
  | case7 => cases h
  | case8 => cases h
  | case9 => cases h

theorem readPairs_eq_ok {text bytes : List UInt8} {a : BtdrvAddress}
    (h : (readPairs text bytes).run = some (.ok a)) :
    ∃ rest, Takes (6 - bytes.length) text rest := by
  fun_induction readPairs text bytes with
  | case1 bytes hcount =>
    rw [hcount]
    exact ⟨[], .none _⟩
  | case2 bytes hcount => cases h
  | case3 c rest bytes hcount hseparator ih =>
    obtain ⟨rest, htakes⟩ := ih h
    exact ⟨rest, .separator hseparator htakes⟩
  | case4 c bytes hcount hseparator hi l hhi lo behind more hlo ih =>
    obtain ⟨rest, htakes⟩ := ih h
    have hleft : 6 - bytes.length = 6 - (bytes ++ [pairValue hi lo]).length + 1 := by
      rw [List.length_append, List.length_singleton]
      omega
    rw [hleft]
    exact ⟨rest, .pair (isHexDigit_of_some hhi) (isHexDigit_of_some hlo) htakes⟩
  | case5 => cases h
  | case6 => cases h
  | case7 => cases h
  | case8 c rest bytes hcount hsix =>
    rw [hsix]
    exact ⟨_, .none _⟩
  | case9 => cases h

theorem parseBluetoothAddress_eq (text : CString) :
    parseBluetoothAddress text = readPairs text.bytes [] :=
  parsePairs_eq [] text.bytes [] text.noNul

/-- A pair at the end of the text sends the pointer behind the NUL. -/
theorem parseBluetoothAddress_leaves {text : CString} {n : Nat} {h l : UInt8} (hn : n < 6)
    (htakes : Takes n text.bytes [h, l]) (hh : isHexDigit h = true) (hl : isHexDigit l = true) :
    (parseBluetoothAddress text).run = none := by
  obtain ⟨taken, hlength, htaken⟩ := htakes.readPairs_eq [] (by simpa using hn.le)
  obtain ⟨hi, hhi⟩ := Option.isSome_iff_exists.1 hh
  obtain ⟨lo, hlo⟩ := Option.isSome_iff_exists.1 hl
  rw [parseBluetoothAddress_eq, htaken, List.nil_append, readPairs_cons, if_pos (hlength ▸ hn),
    if_neg (not_separator_of_hex hh), hhi]
  dsimp only
  rw [hlo]
  rfl

/-- Six pairs with a character behind each are accepted. -/
theorem parseBluetoothAddress_accepts {text : CString} {rest : List UInt8}
    (htakes : Takes 6 text.bytes rest) :
    ∃ a, (parseBluetoothAddress text).run = some (.ok a) := by
  obtain ⟨taken, hlength, htaken⟩ := htakes.readPairs_eq [] (by simp)
  rw [parseBluetoothAddress_eq, htaken, List.nil_append, readPairs_six hlength]
  exact ⟨_, rfl⟩

/-! ## The documented forms -/

theorem takes_of_written {text bytes : List UInt8}
    (h : Written (fun between => ∃ c, isPairSeparator c = true ∧ between = [c]) text bytes) :
    ∃ n, bytes.length = n + 1 ∧ ∃ h l, Takes n text [h, l] ∧
      isHexDigit h = true ∧ isHexDigit l = true := by
  induction h with
  | @last h l hi lo hhi hlo =>
    exact ⟨0, rfl, h, l, .none _, isHexDigit_of_some hhi, isHexDigit_of_some hlo⟩
  | more hhi hlo hgap hmore ih =>
    obtain ⟨c, -, rfl⟩ := hgap
    obtain ⟨n, hn, h, l, htakes, hhex⟩ := ih
    refine ⟨n + 1, congrArg Nat.succ hn, h, l, ?_, hhex⟩
    exact .pair (isHexDigit_of_some hhi) (isHexDigit_of_some hlo) htakes

theorem length_of_written {text bytes : List UInt8} (h : Written (· = []) text bytes) :
    text.length = 2 * bytes.length ∧ ∀ c ∈ text, isHexDigit c = true := by
  induction h with
  | last hhi hlo =>
    refine ⟨rfl, ?_⟩
    simp [isHexDigit_of_some hhi, isHexDigit_of_some hlo]
  | more hhi hlo hgap hmore ih =>
    subst hgap
    refine ⟨?_, ?_⟩
    · simp only [List.length_cons, List.cons_append, List.nil_append]
      omega
    · simpa [isHexDigit_of_some hhi, isHexDigit_of_some hlo] using ih.2

theorem Takes.length_le {n : Nat} {text rest : List UInt8} (h : Takes n text rest) :
    rest.length + 3 * n ≤ text.length := by
  induction h with
  | none text => exact le_rfl
  | separator hc hmore ih =>
    rw [List.length_cons]
    omega
  | pair hh hl hmore ih =>
    simp only [List.length_cons]
    omega

theorem written_of_digits (text : List UInt8) (hhex : ∀ c ∈ text, isHexDigit c = true) {n : Nat}
    (hlength : text.length = 2 * (n + 1)) :
    ∃ bytes : List UInt8, bytes.length = n + 1 ∧ Written (· = []) text bytes := by
  induction n generalizing text with
  | zero =>
    obtain ⟨h, l, rfl⟩ := List.length_eq_two.1 hlength
    obtain ⟨hi, hhi⟩ := Option.isSome_iff_exists.1 (hhex h (by simp))
    obtain ⟨lo, hlo⟩ := Option.isSome_iff_exists.1 (hhex l (by simp))
    exact ⟨_, rfl, .last hhi hlo⟩
  | succ n ih =>
    match text, hlength with
    | h :: l :: rest, hlength =>
      simp only [List.length_cons] at hlength
      obtain ⟨bytes, hbytes, hwritten⟩ := ih rest
        (fun c hc => hhex c (List.mem_cons_of_mem _ (List.mem_cons_of_mem _ hc))) (by omega)
      obtain ⟨hi, hhi⟩ := Option.isSome_iff_exists.1 (hhex h (by simp))
      obtain ⟨lo, hlo⟩ := Option.isSome_iff_exists.1 (hhex l (by simp))
      exact ⟨pairValue hi lo :: bytes, by rw [List.length_cons, hbytes],
        @Written.more _ h l hi lo [] rest bytes hhi hlo rfl hwritten⟩

/-- The law holds exactly for the texts that the code reads as it should. -/
theorem bluetooth_address_iff (text : CString) :
    AddressLaw text ↔ AddressReadable text.bytes := by
  constructor
  · intro hlaw
    refine ⟨?_, ?_, ?_⟩
    · intro n hn h l htakes hhex
      exact hlaw.inside (parseBluetoothAddress_leaves hn htakes hhex.1 hhex.2)
    · intro rest htakes
      by_contra hfew
      obtain ⟨a, ha⟩ := parseBluetoothAddress_accepts htakes
      exact hlaw.refuses hfew a ha
    · rintro ⟨hlength, hhex⟩
      obtain ⟨bytes, hbytes, hwritten⟩ := written_of_digits text.bytes hhex (n := 5) hlength
      have hok := hlaw.accepts ⟨bytes, hbytes⟩ (Or.inr hwritten)
      rw [parseBluetoothAddress_eq] at hok
      -- six pairs and the characters behind them do not fit
      obtain ⟨rest, htakes⟩ := readPairs_eq_ok hok
      have hroom := htakes.length_le
      rw [List.length_nil] at hroom
      omega
  · rintro ⟨hlast, hspaced, hbare⟩
    refine ⟨?_, ?_, ?_⟩
    · intro hnone
      rw [parseBluetoothAddress_eq] at hnone
      obtain ⟨n, hn, h, l, htakes, hhex⟩ := readPairs_eq_none hnone
      exact hlast n hn h l htakes hhex
    · rintro a (hwritten | hwritten)
      · obtain ⟨n, hn, h, l, htakes, hhex⟩ := takes_of_written hwritten
        have hsize := a.size
        exact absurd hhex (hlast n (by omega) h l htakes)
      · obtain ⟨hlength, hhex⟩ := length_of_written hwritten
        rw [a.size] at hlength
        exact absurd ⟨hlength, hhex⟩ hbare
    · intro hfew a hok
      rw [parseBluetoothAddress_eq] at hok
      obtain ⟨rest, htakes⟩ := readPairs_eq_ok hok
      exact hfew (hspaced rest htakes)

/-- The documented address `AA:BB:CC:DD:EE:FF` is read beyond its NUL. -/
theorem colon_form_is_left : ¬ AddressLaw
    { bytes := [0x41, 0x41, 0x3A, 0x42, 0x42, 0x3A, 0x43, 0x43, 0x3A, 0x44, 0x44, 0x3A, 0x45, 0x45,
        0x3A, 0x46, 0x46]
      noNul := by decide } := by
  intro hlaw
  have htakes : Takes 5 [0x41, 0x41, 0x3A, 0x42, 0x42, 0x3A, 0x43, 0x43, 0x3A, 0x44, 0x44, 0x3A,
      0x45, 0x45, 0x3A, 0x46, 0x46] [0x46, 0x46] :=
    .pair rfl rfl (.pair rfl rfl (.pair rfl rfl (.pair rfl rfl (.pair rfl rfl (.none _)))))
  exact hlaw.inside (parseBluetoothAddress_leaves (by decide) htakes rfl rfl)

end SysAgent
