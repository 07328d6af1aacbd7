import SysAgent.Lib.Bytes
import SysAgent.Lib.Checked
import SysAgent.Lib.Labels
import SysAgent.Sequence.Token

set_option autoImplicit false

/-! # Host names (`system_commands.c`, `sysagent.py`)

The client splits a name into labels and looks at each; the console walks over the bytes and counts
how long the label is so far, so that it can look back to its first byte. Both are compared with
what a host name is. -/

namespace SysAgent

open Bytes Checked Labels

/-! ## What a host name is -/

def dnsDot : UInt8 := 0x2E

def dnsHyphen : UInt8 := 0x2D

/-- A letter, a digit or a hyphen. -/
def isDnsByte (c : UInt8) : Bool :=
  (0x61 ≤ c && c ≤ 0x7A) || (0x41 ≤ c && c ≤ 0x5A) || (0x30 ≤ c && c ≤ 0x39) || c == dnsHyphen

/-- 1 to 63 letters, digits and hyphens that neither begin nor end with a hyphen. -/
def isDnsLabel (label : List UInt8) : Bool :=
  label.length != 0 && decide (label.length ≤ 63) && label.all isDnsByte &&
    label.head? != some dnsHyphen && label.getLast? != some dnsHyphen

/-- Labels with dots between them, 253 bytes at most, and perhaps a dot behind. -/
def IsDnsHostname (text : List UInt8) : Prop :=
  ∃ name : List UInt8, Joined dnsDot isDnsLabel name ∧ name.length ≤ 253 ∧
    (text = name ∨ text = name ++ [dnsDot])

/-! ## The console -/

/-- `text[i - back]` -/
def accessBack (text : List UInt8) (i back : Nat) : Checked Unit UInt8 := do
  require (back ≤ i)
  access text (i - back)

/-- The label that ends before `i` begins or ends with a hyphen. -/
def labelHyphen (text : List UInt8) (i labelLength : Nat) : Checked Unit Bool := do
  let first ← accessBack text i labelLength
  if first = dnsHyphen then pure true
  else
    let last ← accessBack text i 1
    pure (last == dnsHyphen)

/-- The loop, and what follows it. -/
def hostnameLoop (hostname : List UInt8) (length i labelLength : Nat) : Checked Unit Bool :=
  if i < length then do
    let c ← access hostname i
    if c = dnsDot then
      if labelLength = 0 ∨ 63 < labelLength then pure false
      else
        let hyphen ← labelHyphen hostname i labelLength
        if hyphen then pure false else hostnameLoop hostname length (i + 1) 0
    else if isDnsByte c then hostnameLoop hostname length (i + 1) (labelLength + 1)
    else pure false
  else if labelLength = 0 ∨ 63 < labelLength then pure false
  else do
    let hyphen ← labelHyphen hostname length labelLength
    pure (!hyphen)
termination_by length - i

/-- `validDnsHostname`; `none` is `NULL`. -/
def validDnsHostname : Option CString → Checked Unit Bool
  | none => pure false
  | some text => do
    let hostname := text.bytes ++ [0]
    let first ← access hostname 0
    if first = 0 then pure false
    else
      let last ← accessBack hostname text.bytes.length 1
      let length := if last = dnsDot then text.bytes.length - 1 else text.bytes.length
      if length = 0 ∨ 253 < length then pure false else hostnameLoop hostname length 0 0

/-! ## The client -/

/-- The checks of one label. -/
def checkDnsLabel (label : List Char) : Except String Unit :=
  if ¬ (1 ≤ label.length ∧ label.length ≤ 63) then
    .error "each hostname label must contain 1..63 characters"
  else if label.head? = some '-' ∨ label.getLast? = some '-' then
    .error "hostname labels must not start or end with '-'"
  -- the text is ASCII here, where `isalnum` is true of the letters and digits
  else if label.any fun character => !(character.isAlphanum || character == '-') then
    .error "hostname must not contain URL syntax or other punctuation"
  else .ok ()

/-- `validate_dns_hostname` -/
def validateDnsHostname (hostname : String) : Except String String :=
  let text := hostname.toList
  if text = [] then .error "hostname must not be empty"
  else if text.any fun character => decide (0x80 ≤ character.toNat) then
    .error "hostname must contain ASCII characters only"
  else
    let name := if text.getLast? = some '.' then text.dropLast else text
    if name = [] ∨ 253 < name.length then
      .error "hostname must contain 1..253 ASCII characters"
    else do
      (name.splitOn '.').forM checkDnsLabel
      .ok hostname

/-- The UTF-8 bytes of a string. -/
def utf8Bytes (text : String) : List UInt8 := text.toList.flatMap String.utf8EncodeChar

/-! ## The walk over the bytes -/

theorem isDnsLabel_iff (label : List UInt8) : isDnsLabel label = true ↔
    label.length ≠ 0 ∧ label.length ≤ 63 ∧ (∀ c ∈ label, isDnsByte c = true) ∧
      label.head? ≠ some dnsHyphen ∧ label.getLast? ≠ some dnsHyphen := by
  simp only [isDnsLabel, Bool.and_eq_true, bne_iff_ne, decide_eq_true_eq, List.all_eq_true,
    and_assoc]

theorem dot_not_mem_label {label : List UInt8} (h : isDnsLabel label = true) : dnsDot ∉ label := by
  intro hdot
  have hbyte := ((isDnsLabel_iff label).1 h).2.2.1 dnsDot hdot
  exact absurd hbyte (by decide)

theorem accessBack_append {before rest : List UInt8} {c : UInt8} {i back : Nat}
    (hi : i = before.length + back) : accessBack (before ++ c :: rest) i back = pure c := by
  have hlt : i - back < (before ++ c :: rest).length := by simp; omega
  have hget : (before ++ c :: rest)[i - back] = c := by
    have hindex : i - back = before.length := by omega
    simp [hindex]
  rw [accessBack, require, if_pos (by omega), pure_bind, ← bind_pure (access _ _), access_bind hlt,
    hget]

theorem accessBack_getLast (before rest : List UInt8) {label : List UInt8} (hlabel : label ≠ []) :
    accessBack (before ++ label ++ rest) (before.length + label.length) 1 =
      pure (label.getLast hlabel) := by
  have hsplit : before ++ label ++ rest =
      (before ++ label.dropLast) ++ label.getLast hlabel :: rest := by
    rw [List.append_cons, List.append_assoc before label.dropLast, List.dropLast_append_getLast]
  have hpos := List.length_pos_of_ne_nil hlabel
  rw [hsplit]
  refine accessBack_append ?_
  rw [List.length_append, List.length_dropLast]
  omega

/-- The walk looks at the first and the last byte of a label that is not empty. -/
theorem labelHyphen_eq {before label rest : List UInt8} (hlabel : label ≠ []) :
    labelHyphen (before ++ label ++ rest) (before.length + label.length) label.length =
      pure (label.head? == some dnsHyphen || label.getLast? == some dnsHyphen) := by
  have hfirst : accessBack (before ++ label ++ rest) (before.length + label.length) label.length =
      pure (label.head hlabel) := by
    obtain ⟨c, more, rfl⟩ := List.exists_cons_of_ne_nil hlabel
    rw [List.append_assoc, List.cons_append]
    exact accessBack_append rfl
  rw [labelHyphen, hfirst, accessBack_getLast before rest hlabel, pure_bind, pure_bind,
    List.head?_eq_some_head hlabel, List.getLast?_eq_some_getLast hlabel]
  by_cases hhyphen : label.head hlabel = dnsHyphen
  · rw [if_pos hhyphen, hhyphen]
    rfl
  · rw [if_neg hhyphen, show (some (label.head hlabel) == some dnsHyphen) = false by simpa,
      Bool.false_or]
    rfl

/-- What is decided at the end of a label of letters, digits and hyphens. -/
theorem isDnsLabel_eq {label : List UInt8} (hbytes : ∀ c ∈ label, isDnsByte c = true)
    (hlength : ¬ (label.length = 0 ∨ 63 < label.length)) :
    isDnsLabel label =
      !(label.head? == some dnsHyphen || label.getLast? == some dnsHyphen) := by
  have hall : label.all isDnsByte = true := List.all_eq_true.2 hbytes
  have hzero : (label.length != 0) = true := by simpa using fun h => hlength (Or.inl h)
  have hmax : decide (label.length ≤ 63) = true := decide_eq_true (by omega)
  rw [isDnsLabel, hall, hzero, hmax, Bool.not_or]
  rfl

theorem not_isDnsLabel {label : List UInt8} (hlength : label.length = 0 ∨ 63 < label.length) :
    isDnsLabel label = false := by
  rw [← Bool.not_eq_true, isDnsLabel_iff]
  rintro ⟨hzero, hmax, -⟩
  omega

/-- The loop behind the bytes of a label: the labels that follow are read one after the other. -/
theorem hostnameLoop_eq (before label rest behind : List UInt8)
    (hlabel : ∀ c ∈ label, isDnsByte c = true) :
    hostnameLoop (before ++ label ++ rest ++ behind) (before ++ label ++ rest).length
        (before.length + label.length) label.length =
      pure (scan dnsDot isDnsLabel label rest) := by
  induction rest generalizing before label with
  | nil =>
    rw [hostnameLoop, if_neg (by simp), scan]
    by_cases hlength : label.length = 0 ∨ 63 < label.length
    · rw [if_pos hlength, not_isDnsLabel hlength]
    · have hne : label ≠ [] := fun h => hlength (Or.inl (by rw [h]; rfl))
      have hend : (before ++ label ++ []).length = before.length + label.length := by simp
      rw [if_neg hlength, isDnsLabel_eq hlabel hlength, hend, List.append_nil, labelHyphen_eq hne,
        pure_bind]
  | cons c rest ih =>
    have hlt : before.length + label.length < (before ++ label ++ c :: rest).length := by simp
    have hmemory : before ++ label ++ c :: rest ++ behind =
        (before ++ label) ++ c :: (rest ++ behind) := by simp
    have haccess : access (before ++ label ++ c :: rest ++ behind)
        (before.length + label.length) = (pure c : Checked Unit UInt8) := by
      rw [← bind_pure (access _ _), access_bind (by simp)]
      simp
    rw [hostnameLoop, if_pos hlt, haccess, pure_bind, scan]
    by_cases hdot : c = dnsDot
    · rw [if_pos hdot, if_pos hdot]
      by_cases hlength : label.length = 0 ∨ 63 < label.length
      · rw [if_pos hlength, not_isDnsLabel hlength, Bool.false_and]
      · have hne : label ≠ [] := fun h => hlength (Or.inl (by rw [h]; rfl))
        rw [if_neg hlength, isDnsLabel_eq hlabel hlength, hmemory, labelHyphen_eq hne, pure_bind]
        cases label.head? == some dnsHyphen || label.getLast? == some dnsHyphen with
        | true => rfl
        | false =>
          have hnext := ih (before ++ label ++ [c]) [] (by simp)
          simpa [Nat.add_assoc] using hnext
    · rw [if_neg hdot, if_neg hdot]
      by_cases hbyte : isDnsByte c = true
      · have hnext := ih before (label ++ [c]) (by
          intro d hd
          rcases List.mem_append.1 hd with hd | hd
          · exact hlabel d hd
          · rw [List.mem_singleton.1 hd]
            exact hbyte)
        rw [if_pos hbyte]
        simpa [Nat.add_assoc] using hnext
      · have hbad : ∀ more, isDnsLabel (label ++ [c] ++ more) = false := by
          intro more
          rw [← Bool.not_eq_true, isDnsLabel_iff]
          rintro ⟨-, -, hall, -⟩
          exact hbyte (hall c (by simp))
        rw [if_neg hbyte, scan_eq_false hbad]

/-! ## The console accepts host names -/

/-- The name without a dot behind it. -/
def withoutDot (text : List UInt8) : List UInt8 :=
  if text.getLast? = some dnsDot then text.dropLast else text

theorem withoutDot_cases (text : List UInt8) :
    (text.getLast? = some dnsDot ∧ text = withoutDot text ++ [dnsDot]) ∨
      (text.getLast? ≠ some dnsDot ∧ text = withoutDot text) := by
  unfold withoutDot
  by_cases hdot : text.getLast? = some dnsDot
  · rw [if_pos hdot]
    exact Or.inl ⟨hdot, (List.dropLast_append_getLast? dnsDot hdot).symm⟩
  · rw [if_neg hdot]
    exact Or.inr ⟨hdot, rfl⟩

theorem getLast_ne_dot {name : List UInt8} (h : (name.splitOn dnsDot).all isDnsLabel = true) :
    name ≠ [] ∧ name.getLast? ≠ some dnsDot := by
  have hempty : isDnsLabel [] = false := rfl
  constructor
  · rintro rfl
    simp [hempty] at h
  · intro hdot
    rw [← List.dropLast_append_getLast? dnsDot hdot, List.splitOn_append_cons_self,
      List.all_append] at h
    simp [hempty] at h

theorem isDnsHostname_iff (text : List UInt8) : IsDnsHostname text ↔
    withoutDot text ≠ [] ∧ (withoutDot text).length ≤ 253 ∧
      ((withoutDot text).splitOn dnsDot).all isDnsLabel = true := by
  have hsplit : ∀ name : List UInt8, (name.splitOn dnsDot).all isDnsLabel = true ↔
      Joined dnsDot isDnsLabel name := all_splitOn_iff fun _ => dot_not_mem_label
  constructor
  · rintro ⟨name, hname, hlength, htext⟩
    obtain ⟨hne, hdot⟩ := getLast_ne_dot ((hsplit name).2 hname)
    have hwithout : withoutDot text = name := by
      rcases htext with rfl | rfl
      · exact if_neg hdot
      · simp [withoutDot]
    rw [hwithout]
    exact ⟨hne, hlength, (hsplit name).2 hname⟩
  · rintro ⟨-, hlength, hlabels⟩
    refine ⟨withoutDot text, (hsplit _).1 hlabels, hlength, ?_⟩
    rcases withoutDot_cases text with ⟨-, h⟩ | ⟨-, h⟩
    · exact Or.inr h
    · exact Or.inl h

/-- The bytes of the name stand in front of what is left of the text and its NUL. -/
theorem withoutDot_prefix (text : List UInt8) :
    ∃ behind : List UInt8, text ++ [0] = withoutDot text ++ behind := by
  rcases withoutDot_cases text with ⟨-, h⟩ | ⟨-, h⟩
  · exact ⟨[dnsDot, 0], by rw [h]; simp [withoutDot]⟩
  · exact ⟨[0], by rw [← h]⟩

theorem length_withoutDot {text : List UInt8} (htext : text ≠ []) :
    (withoutDot text).length =
      if text.getLast htext = dnsDot then text.length - 1 else text.length := by
  simp only [withoutDot, List.getLast?_eq_some_getLast htext, Option.some.injEq]
  split_ifs
  · exact List.length_dropLast
  · rfl

/-- The console runs inside of the text and accepts exactly the host names. -/
theorem validDnsHostname_spec (text : CString) :
    ∃ accepted, (validDnsHostname (some text)).run = some (.ok accepted) ∧
      (accepted = true ↔ IsDnsHostname text.bytes) := by
  rw [isDnsHostname_iff]
  by_cases hempty : text.bytes = []
  · refine ⟨false, ?_, by simp [hempty, withoutDot]⟩
    rw [validDnsHostname, hempty]
    rfl
  · obtain ⟨c, more, hbytes⟩ := List.exists_cons_of_ne_nil hempty
    have hfirst : access (text.bytes ++ [0]) 0 = (pure c : Checked Unit UInt8) := by
      rw [hbytes]
      rfl
    have hc : c ≠ 0 := fun h => text.noNul (by rw [hbytes, h]; exact List.mem_cons_self)
    have hlast : accessBack (text.bytes ++ [0]) text.bytes.length 1 =
        pure (text.bytes.getLast hempty) := by
      have hget := accessBack_getLast [] [0] hempty
      rwa [List.nil_append, List.length_nil, Nat.zero_add] at hget
    obtain ⟨behind, hbehind⟩ := withoutDot_prefix text.bytes
    have hloop := hostnameLoop_eq [] [] (withoutDot text.bytes) behind (by simp)
    rw [scan_eq_all [] _ List.not_mem_nil] at hloop
    simp only [List.nil_append, List.length_nil, Nat.add_zero] at hloop
    rw [validDnsHostname, hfirst, pure_bind]
    dsimp only
    rw [if_neg hc, hlast, pure_bind, ← length_withoutDot hempty]
    by_cases hlength : (withoutDot text.bytes).length = 0 ∨ 253 < (withoutDot text.bytes).length
    · refine ⟨false, by rw [if_pos hlength]; rfl, ?_⟩
      refine iff_of_false Bool.false_ne_true ?_
      rintro ⟨hne, hmax, -⟩
      rcases hlength with hzero | hlong
      · exact hne (List.length_eq_zero_iff.1 hzero)
      · omega
    · refine ⟨_, by rw [if_neg hlength, hbehind, hloop]; rfl, ?_⟩
      rw [not_or, not_lt, List.length_eq_zero_iff] at hlength
      exact ⟨fun h => ⟨hlength.1, hlength.2, h⟩, fun h => h.2.2⟩

/-! ## The client accepts host names -/

/-- An ASCII byte as a character. -/
def asciiChar (b : UInt8) : Char := Char.ofNat b.toNat

theorem asciiChar_spec (b : UInt8) : (asciiChar b = '.' ↔ b = dnsDot) ∧
    (asciiChar b = '-' ↔ b = dnsHyphen) ∧
      ((asciiChar b).isAlphanum || asciiChar b == '-') = isDnsByte b ∧
        (b.toNat < 0x80 → String.utf8EncodeChar (asciiChar b) = [b]) :=
  forall_byte (p := fun b => (asciiChar b = '.' ↔ b = dnsDot) ∧
    (asciiChar b = '-' ↔ b = dnsHyphen) ∧
      ((asciiChar b).isAlphanum || asciiChar b == '-') = isDnsByte b ∧
        (b.toNat < 0x80 → String.utf8EncodeChar (asciiChar b) = [b])) (by decide +kernel) b

theorem asciiChar_eq_dot (b : UInt8) : asciiChar b = '.' ↔ b = dnsDot :=
  (asciiChar_spec b).1

theorem checkDnsLabel_iff (label : List UInt8) :
    checkDnsLabel (label.map asciiChar) = .ok () ↔ isDnsLabel label = true := by
  have hhyphen : ∀ b : Option UInt8, b.map asciiChar = some '-' ↔ b = some dnsHyphen := by
    intro b
    cases b with
    | none => simp
    | some b => simp [(asciiChar_spec b).2.1]
  have hbytes : (label.map asciiChar).any (fun c => !(c.isAlphanum || c == '-')) = true ↔
      ¬ ∀ c ∈ label, isDnsByte c = true := by
    simp only [List.any_map, List.any_eq_true, Function.comp_apply, (asciiChar_spec _).2.2.1,
      Bool.not_eq_true', not_forall, Bool.not_eq_true, exists_prop]
  rw [isDnsLabel_iff]
  simp only [checkDnsLabel, List.length_map, List.head?_map, List.getLast?_map, hhyphen, hbytes]
  split_ifs with hlength hends hall
  · exact iff_of_false (by simp) fun h => hends.elim h.2.2.2.1 h.2.2.2.2
  · rw [not_or] at hends
    exact iff_of_true rfl ⟨Nat.one_le_iff_ne_zero.1 hlength.1, hlength.2, hall, hends⟩
  · exact iff_of_false (by simp) fun h => hall h.2.2.1
  · exact iff_of_false (by simp) fun h => hlength ⟨Nat.one_le_iff_ne_zero.2 h.1, h.2.1⟩

theorem forM_ok_iff {α : Type} (check : α → Except String Unit) (xs : List α) :
    xs.forM check = .ok () ↔ ∀ x ∈ xs, check x = .ok () := by
  induction xs with
  | nil => exact iff_of_true rfl (by simp)
  | cons x xs ih =>
    rw [List.forall_mem_cons, ← ih]
    show (check x >>= fun _ => xs.forM check) = .ok () ↔ _
    cases check x with
    | error e => exact iff_of_false (fun h => by cases h) fun h => by cases h.1
    | ok u => exact ⟨fun h => ⟨rfl, h⟩, fun h => h.2⟩

theorem forM_checkDnsLabel_iff (name : List UInt8) :
    ((name.map asciiChar).splitOn '.').forM checkDnsLabel = .ok () ↔
      (name.splitOn dnsDot).all isDnsLabel = true := by
  rw [forM_ok_iff, splitOn_map asciiChar_eq_dot, List.all_eq_true]
  simp only [List.forall_mem_map, checkDnsLabel_iff]

theorem asciiChar_ofNat {c : Char} (hc : c.toNat < 0x80) : asciiChar (UInt8.ofNat c.toNat) = c := by
  rw [asciiChar, UInt8.toNat_ofNat_of_lt' (lt_trans hc (by decide)), Char.ofNat_toNat]

theorem utf8_ascii {c : Char} (hc : c.toNat < 0x80) :
    String.utf8EncodeChar c = [UInt8.ofNat c.toNat] := by
  have hbyte := (asciiChar_spec (UInt8.ofNat c.toNat)).2.2.2
  rw [asciiChar_ofNat hc, UInt8.toNat_ofNat_of_lt' (lt_trans hc (by decide))] at hbyte
  exact hbyte hc

/-- A text of ASCII characters and its bytes. -/
theorem map_asciiChar_utf8 {text : List Char} (hascii : ∀ c ∈ text, c.toNat < 0x80) :
    (text.flatMap String.utf8EncodeChar).map asciiChar = text := by
  induction text with
  | nil => rfl
  | cons c text ih =>
    have hc := hascii c List.mem_cons_self
    rw [List.flatMap_cons, utf8_ascii hc, List.map_append,
      ih fun d hd => hascii d (List.mem_cons_of_mem c hd), List.map_singleton, asciiChar_ofNat hc,
      List.singleton_append]

/-- The bytes of every other character are ones that no ASCII character has. -/
theorem utf8_high {c : Char} (hc : 0x80 ≤ c.toNat) :
    ∀ b ∈ String.utf8EncodeChar c, 0x80 ≤ b.toNat := by
  have hval : c.val.toNat = c.toNat := rfl
  have hbyte : ∀ n : Nat, 0x80 ≤ n % 256 → 0x80 ≤ (UInt8.ofNat n).toNat := by
    intro n hn
    rwa [UInt8.toNat_ofNat']
  unfold String.utf8EncodeChar
  dsimp only
  rw [hval]
  split_ifs
  · omega
  · simp only [List.forall_mem_cons]
    exact ⟨hbyte _ (by omega), hbyte _ (by omega), by simp⟩
  · simp only [List.forall_mem_cons]
    exact ⟨hbyte _ (by omega), hbyte _ (by omega), hbyte _ (by omega), by simp⟩
  · simp only [List.forall_mem_cons]
    exact ⟨hbyte _ (by omega), hbyte _ (by omega), hbyte _ (by omega), hbyte _ (by omega), by simp⟩

theorem byte_of_hostname {text : List UInt8} (h : IsDnsHostname text) :
    ∀ b ∈ text, b.toNat < 0x80 := by
  have hdnsByte : ∀ b, isDnsByte b = true → b.toNat < 0x80 := by
    intro b hb
    simp [isDnsByte, dnsHyphen, UInt8.le_iff_toNat_le, ← UInt8.toNat_inj] at hb
    omega
  obtain ⟨name, hname, -, htext⟩ := h
  have hbyte : ∀ b ∈ name, b.toNat < 0x80 := by
    intro b hb
    rcases mem_joined hname hb with rfl | ⟨label, hlabel, hmem⟩
    · decide
    · exact hdnsByte b (((isDnsLabel_iff label).1 hlabel).2.2.1 b hmem)
  rcases htext with rfl | rfl
  · exact hbyte
  · intro b hb
    rcases List.mem_append.1 hb with hb | hb
    · exact hbyte b hb
    · rw [List.mem_singleton.1 hb]
      decide

/-- The client accepts exactly the host names. -/
theorem validateDnsHostname_iff (hostname : String) :
    validateDnsHostname hostname = .ok hostname ↔ IsDnsHostname (utf8Bytes hostname) := by
  by_cases hascii : ∀ c ∈ hostname.toList, c.toNat < 0x80
  · have hchars : hostname.toList = (utf8Bytes hostname).map asciiChar :=
      (map_asciiChar_utf8 hascii).symm
    have hany : ¬ hostname.toList.any (fun c => decide (0x80 ≤ c.toNat)) = true := by
      simpa using hascii
    have hdot : ∀ b : Option UInt8, b.map asciiChar = some '.' ↔ b = some dnsDot := by
      intro b
      cases b with
      | none => simp
      | some b => simp [asciiChar_eq_dot]
    have hname : (if hostname.toList.getLast? = some '.' then hostname.toList.dropLast
        else hostname.toList) = (withoutDot (utf8Bytes hostname)).map asciiChar := by
      rw [hchars, withoutDot]
      simp only [List.getLast?_map, hdot]
      split_ifs
      · rw [List.map_dropLast]
      · rfl
    rw [isDnsHostname_iff, ← forM_checkDnsLabel_iff, validateDnsHostname]
    dsimp only
    rw [if_neg hany, hname]
    by_cases hempty : hostname.toList = []
    · rw [if_pos hempty]
      refine iff_of_false (by simp) ?_
      rintro ⟨hne, -⟩
      refine hne ?_
      rw [utf8Bytes, hempty]
      rfl
    · rw [if_neg hempty]
      simp only [List.map_eq_nil_iff, List.length_map]
      by_cases hlength : withoutDot (utf8Bytes hostname) = [] ∨
          253 < (withoutDot (utf8Bytes hostname)).length
      · rw [if_pos hlength]
        refine iff_of_false (by simp) ?_
        rintro ⟨hne, hmax, -⟩
        rcases hlength with h | h
        · exact hne h
        · omega
      · rw [if_neg hlength]
        rw [not_or, not_lt] at hlength
        generalize withoutDot (utf8Bytes hostname) = name at hlength ⊢
        cases ((name.map asciiChar).splitOn '.').forM checkDnsLabel with
        | error e => exact iff_of_false (fun h => by cases h) fun h => by cases h.2.2
        | ok u => exact iff_of_true rfl ⟨hlength.1, hlength.2, rfl⟩
  · have hany : hostname.toList.any (fun c => decide (0x80 ≤ c.toNat)) = true := by
      simpa using hascii
    push Not at hascii
    obtain ⟨c, hc, hhigh⟩ := hascii
    have hne : hostname.toList ≠ [] := List.ne_nil_of_mem hc
    rw [validateDnsHostname]
    dsimp only
    rw [if_neg hne, if_pos hany]
    refine iff_of_false (by simp) ?_
    intro hname
    obtain ⟨b, hb⟩ := List.exists_mem_of_ne_nil _ (String.utf8EncodeChar_ne_nil (c := c))
    have hbig := utf8_high hhigh b hb
    have hsmall := byte_of_hostname hname b (List.mem_flatMap.2 ⟨c, hc, hb⟩)
    omega

/-! ## The two agree -/

theorem zero_not_mem_utf8 {hostname : String} (hnul : '\x00' ∉ hostname.toList) :
    0 ∉ utf8Bytes hostname := by
  intro hzero
  obtain ⟨c, hc, hbyte⟩ := List.mem_flatMap.1 hzero
  by_cases hascii : c.toNat < 0x80
  · rw [utf8_ascii hascii, List.mem_singleton] at hbyte
    have hchar : c = '\x00' := by
      rw [← asciiChar_ofNat hascii, ← hbyte]
      decide
    exact hnul (hchar ▸ hc)
  · exact absurd (utf8_high (not_lt.1 hascii) 0 hbyte) (by decide)

/-- A string without `NUL` as the console gets it. -/
def utf8Text (hostname : String) (hnul : '\x00' ∉ hostname.toList) : CString where
  bytes := utf8Bytes hostname
  noNul := zero_not_mem_utf8 hnul

/-- Both accept the host names and nothing else, and the walk of the console stays inside of every
    text. -/
theorem host_name_validators_agree :
    (∀ text : CString, ∃ accepted, (validDnsHostname (some text)).run = some (.ok accepted) ∧
        (accepted = true ↔ IsDnsHostname text.bytes)) ∧
      ∀ (hostname : String) (hnul : '\x00' ∉ hostname.toList),
        (validateDnsHostname hostname = .ok hostname ↔
            (validDnsHostname (some (utf8Text hostname hnul))).run = some (.ok true)) ∧
          (validateDnsHostname hostname = .ok hostname ↔ IsDnsHostname (utf8Bytes hostname)) := by
  refine ⟨validDnsHostname_spec, ?_⟩
  intro hostname hnul
  refine ⟨?_, validateDnsHostname_iff hostname⟩
  obtain ⟨accepted, hrun, haccepted⟩ := validDnsHostname_spec (utf8Text hostname hnul)
  rw [validateDnsHostname_iff hostname, hrun]
  show _ ↔ some (Except.ok accepted) = some (Except.ok true)
  rw [Option.some.injEq, Except.ok.injEq]
  exact haccepted.symm

/-- A name with a dot behind it. -/
theorem host_name_validators_agree_local :
    validateDnsHostname "switch.local." = .ok "switch.local." ↔
      (validDnsHostname (some (utf8Text "switch.local." (by decide)))).run = some (.ok true) :=
  (host_name_validators_agree.2 "switch.local." (by decide)).1

end SysAgent
