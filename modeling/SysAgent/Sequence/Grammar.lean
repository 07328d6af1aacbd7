import Mathlib
import SysAgent.Sequence.Output

set_option autoImplicit false

/-! # The grammar of sequences

What a sequence means, apart from the code: a derivation relates a text to the list of tokens it
expands to. The expander follows it in both directions. A text the expander walks to its end has a
derivation, and on a derivable text the expander does what emitting the derived tokens one after
the other does. -/

namespace SysAgent

/-! ## Derivations -/

/-- The number that `digits` denote after digits of the given value. -/
def decimalFrom (value : Nat) (digits : List UInt8) : Nat :=
  digits.foldl (fun value c => value * 10 + (c.toNat - '0'.toNat)) value

def decimal (digits : List UInt8) : Nat :=
  decimalFrom 0 digits

/-- The optional repeat of an item: nothing, or `*N`. -/
inductive Times : List UInt8 → Nat → Prop
  | once : Times [] 1
  | counted {digits : List UInt8} : digits ≠ [] → (∀ c ∈ digits, isDigit c = true) →
      1 ≤ decimal digits → decimal digits ≤ SEQUENCE_REPEAT_MAX_COUNT →
      Times (star :: digits) (decimal digits)

inductive Symbol
  | item
  | items

/-- `Derives Token symbol depth text tokens`: inside `depth` groups, `text` is derivable from
    `symbol` and expands to `tokens`. `Token` is the token language at each depth. -/
inductive Derives (Token : Nat → List UInt8 → Prop) :
    Symbol → Nat → List UInt8 → List (List UInt8) → Prop
  | empty {depth : Nat} : Derives Token .item depth [] []
  | token {depth n : Nat} {token times : List UInt8} : Token depth token → Times times n →
      Derives Token .item depth (token ++ times) (List.replicate n token)
  | group {depth n : Nat} {body times : List UInt8} {tokens : List (List UInt8)} :
      depth + 1 ≤ SEQUENCE_REPEAT_MAX_DEPTH → Derives Token .items (depth + 1) body tokens →
      tokens ≠ [] → Times times n →
      Derives Token .item depth (openParen :: (body ++ closeParen :: times))
        (List.replicate n tokens).flatten
  | single {depth : Nat} {text : List UInt8} {tokens : List (List UInt8)} :
      Derives Token .item depth text tokens → Derives Token .items depth text tokens
  | comma {depth : Nat} {text rest : List UInt8} {tokens more : List (List UInt8)} :
      Derives Token .item depth text tokens → Derives Token .items depth rest more →
      Derives Token .items depth (text ++ comma :: rest) (tokens ++ more)

/-- A byte a token may hold. -/
def PlainByte (c : UInt8) : Prop :=
  c ≠ comma ∧ c ≠ star ∧ c ≠ closeParen ∧ isControlByte c = false

/-- The tokens of the source. The search for the end of a group counts every `'('`, so that a token
    inside a group cannot hold one. -/
structure IsToken (depth : Nat) (token : List UInt8) : Prop where
  ne_nil : token ≠ []
  plain : ∀ c ∈ token, PlainByte c
  head : token.head? ≠ some openParen
  inGroup : depth ≠ 0 → openParen ∉ token

/-! ## The pieces of an item -/

/-- What may follow an item. -/
def Ends (rest : List UInt8) : Prop :=
  rest = [] ∨ ∃ more, rest = comma :: more

/-- Where a token scan stops. -/
def Stops (rest : List UInt8) : Prop :=
  ∀ c more, rest = c :: more → c = comma ∨ c = star ∨ c = closeParen

theorem Ends.stops {rest : List UInt8} (h : Ends rest) : Stops rest := by
  rintro c more rfl
  rcases h with h | ⟨more', h⟩
  · cases h
  · exact Or.inl (List.cons.inj h).1

theorem Times.stops {times rest : List UInt8} {n : Nat} (h : Times times n) (hrest : Ends rest) :
    Stops (times ++ rest) := by
  cases h with
  | once => exact hrest.stops
  | counted hne hdigits hone hmax =>
    intro c more heq
    exact Or.inr (Or.inl (List.cons.inj heq).1.symm)

theorem Times.one_le {times : List UInt8} {n : Nat} (h : Times times n) : 1 ≤ n := by
  cases h with
  | once => exact Nat.le_refl 1
  | counted hne hdigits hone hmax => exact hone

theorem Times.noControl {times : List UInt8} {n : Nat} (h : Times times n) :
    ∀ c ∈ times, isControlByte c = false := by
  intro c hc
  cases h with
  | once => cases hc
  | counted hne hdigits hone hmax =>
    rcases List.mem_cons.1 hc with rfl | hc
    · decide
    · have hdigit := hdigits c hc
      simp only [isDigit, Bool.and_eq_true, decide_eq_true_eq] at hdigit
      have hlow : '0'.toUInt8.toNat ≤ c.toNat := UInt8.le_iff_toNat_le.1 hdigit.1
      have hhigh : c.toNat ≤ '9'.toUInt8.toNat := UInt8.le_iff_toNat_le.1 hdigit.2
      have h0 : '0'.toUInt8.toNat = 48 := by decide
      have h9 : '9'.toUInt8.toNat = 57 := by decide
      simp only [isControlByte, Bool.or_eq_false_iff, decide_eq_false_iff_not,
        UInt8.lt_iff_toNat_lt, beq_eq_false_iff_ne, ne_eq, ← UInt8.toNat_inj]
      simp only [UInt8.reduceToNat]
      omega

/-- A repeat has neither parentheses nor commas in it. -/
theorem Times.not_mem {times : List UInt8} {n : Nat} (h : Times times n) {c : UInt8}
    (hc : isDigit c = false) (hstar : c ≠ star) : c ∉ times := by
  cases h with
  | once => exact List.not_mem_nil
  | counted hne hdigits hone hmax =>
    intro hmem
    rcases List.mem_cons.1 hmem with heq | hmem
    · exact hstar heq
    · rw [hdigits c hmem] at hc
      cases hc

/-- An item, and a derivation of what follows its comma, if any. -/
theorem Derives.followed {Token : Nat → List UInt8 → Prop} {depth : Nat} {text rest : List UInt8}
    {tokens more : List (List UInt8)} (hitem : Derives Token .item depth text tokens)
    (hrest : Ends rest) (hmore : Derives Token .items depth rest.tail more) :
    ∃ tokens', Derives Token .items depth (text ++ rest) tokens' := by
  rcases hrest with rfl | ⟨more', rfl⟩
  · exact ⟨tokens, by simpa using hitem.single⟩
  · exact ⟨tokens ++ more, hitem.comma hmore⟩

/-- A derivable text has no control byte. -/
theorem Derives.noControl {symbol : Symbol} {depth : Nat} {text : List UInt8}
    {tokens : List (List UInt8)} (h : Derives IsToken symbol depth text tokens) :
    ∀ c ∈ text, isControlByte c = false := by
  induction h with
  | empty => simp
  | token htoken htimes =>
    intro c hc
    rcases List.mem_append.1 hc with hc | hc
    · exact (htoken.plain c hc).2.2.2
    · exact htimes.noControl c hc
  | group hdepth hbody htokens htimes ih =>
    intro c hc
    rcases List.mem_cons.1 hc with rfl | hc
    · decide
    rcases List.mem_append.1 hc with hc | hc
    · exact ih c hc
    rcases List.mem_cons.1 hc with rfl | hc
    · decide
    · exact htimes.noControl c hc
  | single hitem ih => exact ih
  | comma hitem hitems ih ihs =>
    intro c hc
    rcases List.mem_append.1 hc with hc | hc
    · exact ih c hc
    rcases List.mem_cons.1 hc with rfl | hc
    · decide
    · exact ihs c hc

/-- Every token of an expansion is a token of the source at some depth. -/
theorem Derives.isToken {symbol : Symbol} {depth : Nat} {text : List UInt8}
    {tokens : List (List UInt8)} (h : Derives IsToken symbol depth text tokens) :
    ∀ token ∈ tokens, ∃ depth', IsToken depth' token := by
  induction h with
  | empty => simp
  | token htoken htimes =>
    intro token hmem
    exact ⟨_, (List.eq_of_mem_replicate hmem) ▸ htoken⟩
  | group hdepth hbody htokens htimes ih =>
    intro token hmem
    obtain ⟨round, hround, hmem⟩ := List.mem_flatten.1 hmem
    rw [List.eq_of_mem_replicate hround] at hmem
    exact ih token hmem
  | single hitem ih => exact ih
  | comma hitem hitems ih ihs =>
    intro token hmem
    rcases List.mem_append.1 hmem with hmem | hmem
    · exact ih token hmem
    · exact ihs token hmem

/-- Joined tokens derive themselves. -/
theorem derives_joinTokens {tokens : List (List UInt8)}
    (h : ∀ token ∈ tokens, ∃ depth, IsToken depth token) :
    Derives IsToken .items 0 (joinTokens tokens) tokens := by
  induction tokens with
  | nil => exact .single .empty
  | cons token tokens ih =>
    obtain ⟨depth, htoken⟩ := h token List.mem_cons_self
    have hitem : Derives IsToken .item 0 token [token] := by
      have htop : IsToken 0 token := { htoken with inGroup := fun h => absurd rfl h }
      simpa using Derives.token htop .once
    by_cases hnil : tokens = []
    · subst hnil
      simpa using hitem.single
    · rw [joinTokens_cons hnil]
      exact hitem.comma (ih fun t ht => h t (List.mem_cons_of_mem _ ht))

namespace ExpandState

variable {state : ExpandState}

theorem scanToken_append (state : ExpandState) {token rest : List UInt8} (htoken : ∀ c ∈ token, PlainByte c)
    (hrest : Stops rest) (pos : Nat) : scanToken state pos (token ++ rest) = .ok (token, rest) := by
  induction token generalizing pos with
  | nil =>
    cases rest with
    | nil => rfl
    | cons c more =>
      have hstop := hrest c more rfl
      have hcond : (c != comma && c != star && c != closeParen) = false := by
        rcases hstop with rfl | rfl | rfl <;> rfl
      simp [scanToken, hcond]
  | cons c token ih =>
    obtain ⟨hcomma, hstar, hclose, hcontrol⟩ := htoken c List.mem_cons_self
    have hscan := ih (fun c hc => htoken c (List.mem_cons_of_mem _ hc)) (pos + 1)
    simp [scanToken, hcomma, hstar, hclose, hcontrol, hscan, bind, Except.bind]

theorem scanToken_ok {pos : Nat} {s token rest : List UInt8}
    (h : scanToken state pos s = .ok (token, rest)) :
    s = token ++ rest ∧ (∀ c ∈ token, PlainByte c) ∧ Stops rest := by
  induction s generalizing pos token with
  | nil =>
    obtain ⟨rfl, rfl⟩ := Prod.mk.inj (Except.ok.inj h)
    exact ⟨rfl, by simp, by rintro c more ⟨⟩⟩
  | cons c s ih =>
    simp only [scanToken] at h
    split at h
    · rename_i hplain
      split at h
      · cases h
      · rename_i hcontrol
        cases hscan : scanToken state (pos + 1) s with
        | error e => rw [hscan] at h; cases h
        | ok found =>
          obtain ⟨token', rest'⟩ := found
          rw [hscan] at h
          obtain ⟨rfl, rfl⟩ : c :: token' = token ∧ rest' = rest := Prod.mk.inj (Except.ok.inj h)
          obtain ⟨rfl, hall, hstops⟩ := ih hscan
          refine ⟨rfl, ?_, hstops⟩
          intro b hb
          rcases List.mem_cons.1 hb with rfl | hb
          · simp only [Bool.and_eq_true, bne_iff_ne] at hplain
            exact ⟨hplain.1.1, hplain.1.2, hplain.2, by simpa using hcontrol⟩
          · exact hall b hb
    · rename_i hstop
      obtain ⟨rfl, rfl⟩ : [] = token ∧ c :: s = rest := Prod.mk.inj (Except.ok.inj h)
      refine ⟨rfl, by simp, ?_⟩
      intro b more heq
      obtain ⟨rfl, -⟩ := List.cons.inj heq
      simp only [Bool.and_eq_true, bne_iff_ne, not_and_or, not_not] at hstop
      tauto

/-! ### Repeat counts -/

/-- More digits do not make the number smaller. -/
theorem le_decimalFrom (value : Nat) (digits : List UInt8) :
    value ≤ decimalFrom value digits := by
  induction digits generalizing value with
  | nil => exact Nat.le_refl _
  | cons c digits ih =>
    have hstep : value ≤ value * 10 + (c.toNat - '0'.toNat) := by omega
    exact le_trans hstep (ih _)

theorem countDigits_append (state : ExpandState) {digits rest : List UInt8}
    (hdigits : ∀ c ∈ digits, isDigit c = true)
    (hrest : Ends rest) (starIndex value count pos : Nat)
    (hmax : decimalFrom value digits ≤ SEQUENCE_REPEAT_MAX_COUNT) :
    countDigits state starIndex value count pos (digits ++ rest) =
      .ok (decimalFrom value digits, count + digits.length, pos + digits.length, rest) := by
  induction digits generalizing value count pos with
  | nil =>
    rcases hrest with rfl | ⟨more, rfl⟩
    · rfl
    · have hcomma : isDigit comma = false := by decide
      simp [countDigits, hcomma, decimalFrom]
  | cons c digits ih =>
    have hc := hdigits c List.mem_cons_self
    have hle := le_trans (le_decimalFrom _ digits) hmax
    have hnext := ih (fun c hc => hdigits c (List.mem_cons_of_mem _ hc))
      (value * 10 + (c.toNat - '0'.toNat)) (count + 1) (pos + 1) hmax
    simp only [List.cons_append, countDigits, hc, if_true, if_neg (Nat.not_lt.2 hle), gt_iff_lt,
      hnext, List.length_cons]
    simp only [Nat.add_assoc, Nat.add_comm 1]
    rfl

theorem countDigits_ok {s : List UInt8} {starIndex value count pos value' count' pos' : Nat}
    {rest : List UInt8}
    (h : countDigits state starIndex value count pos s = .ok (value', count', pos', rest)) :
    ∃ digits, s = digits ++ rest ∧ (∀ c ∈ digits, isDigit c = true) ∧
      value' = decimalFrom value digits ∧ count' = count + digits.length ∧
      (value ≤ SEQUENCE_REPEAT_MAX_COUNT → value' ≤ SEQUENCE_REPEAT_MAX_COUNT) := by
  induction s generalizing value count pos with
  | nil =>
    obtain ⟨rfl, rfl, -, rfl⟩ : value = value' ∧ count = count' ∧ pos = pos' ∧ [] = rest := by
      simpa [countDigits] using h
    exact ⟨[], rfl, by simp, rfl, rfl, id⟩
  | cons c s ih =>
    simp only [countDigits] at h
    split at h
    · rename_i hc
      split at h
      · cases h
      · rename_i hmax
        obtain ⟨digits, rfl, hdigits, hvalue, hcount, hle⟩ := ih h
        refine ⟨c :: digits, rfl, ?_, hvalue, ?_, fun _ => hle (Nat.not_lt.1 hmax)⟩
        · intro b hb
          rcases List.mem_cons.1 hb with rfl | hb
          · exact hc
          · exact hdigits b hb
        · rw [hcount, List.length_cons]
          omega
    · obtain ⟨rfl, rfl, -, rfl⟩ :
          value = value' ∧ count = count' ∧ pos = pos' ∧ c :: s = rest := by simpa using h
      exact ⟨[], rfl, by simp, rfl, rfl, id⟩

theorem itemCount_append (state : ExpandState) {times rest : List UInt8} {n : Nat}
    (h : Times times n) (hrest : Ends rest) (itemStart pos : Nat) (empty : Bool)
    (hempty : empty = true → times = []) :
    ∃ pos', itemCount state itemStart empty pos (times ++ rest) = .ok (n, pos', rest) := by
  cases h with
  | once =>
    rcases hrest with rfl | ⟨more, rfl⟩
    · exact ⟨pos, rfl⟩
    · have hcomma : (comma == star) = false := by decide
      exact ⟨pos, by simp [itemCount, hcomma]⟩
  | counted hne hdigits hone hmax =>
    rename_i digits
    cases empty with
    | true => cases hempty rfl
    | false =>
      have hcount := countDigits_append state hdigits hrest pos 0 0 (pos + 1) hmax
      have hlen : (0 + digits.length == 0) = false := by simpa using hne
      have hzero : (decimal digits == 0) = false := by
        simpa using Nat.ne_of_gt hone
      refine ⟨pos + 1 + digits.length, ?_⟩
      simp only [List.cons_append, itemCount, beq_self_eq_true, if_true, parseCount, hcount, bind,
        Except.bind, hlen, Bool.false_eq_true, if_false]
      rw [← decimal, hzero]
      rfl

theorem itemCount_ok {itemStart pos n pos' : Nat} {empty : Bool} {s rest : List UInt8}
    (h : itemCount state itemStart empty pos s = .ok (n, pos', rest)) :
    ∃ times, Times times n ∧ s = times ++ rest ∧ (empty = true → times = []) := by
  cases s with
  | nil =>
    obtain ⟨rfl, -, rfl⟩ : 1 = n ∧ pos = pos' ∧ [] = rest := by simpa [itemCount] using h
    exact ⟨[], .once, rfl, fun _ => rfl⟩
  | cons c s =>
    simp only [itemCount] at h
    split at h
    · rename_i hstar
      obtain rfl : c = star := by simpa using hstar
      simp only [parseCount] at h
      cases hdigits : countDigits state pos 0 0 (pos + 1) s with
      | error e => rw [hdigits] at h; cases h
      | ok found =>
        obtain ⟨value, count, pos'', rest'⟩ := found
        rw [hdigits] at h
        simp only [bind, Except.bind] at h
        obtain ⟨digits, rfl, hall, hvalue, hcount, hle⟩ := countDigits_ok hdigits
        by_cases hnone : (count == 0) = true
        · rw [if_pos hnone] at h; cases h
        by_cases hzero : (value == 0) = true
        · rw [if_neg hnone, if_pos hzero] at h; cases h
        rw [if_neg hnone, if_neg hzero] at h
        cases empty with
        | true => cases h
        | false =>
          obtain ⟨rfl, -, rfl⟩ : value = n ∧ pos'' = pos' ∧ rest' = rest := by simpa using h
          have hne : digits ≠ [] := by
            rintro rfl
            simp [hcount] at hnone
          have hone : 1 ≤ value := Nat.one_le_iff_ne_zero.2 (by simpa using hzero)
          have htimes : Times (star :: digits) (decimal digits) := by
            refine .counted hne hall ?_ ?_
            · rwa [decimal, ← hvalue]
            · rw [decimal, ← hvalue]
              exact hle (Nat.zero_le _)
          refine ⟨star :: digits, ?_, rfl, fun hempty => absurd hempty Bool.false_ne_true⟩
          rwa [decimal, ← hvalue] at htimes
    · obtain ⟨rfl, -, rfl⟩ : 1 = n ∧ pos = pos' ∧ c :: s = rest := by simpa using h
      exact ⟨[], .once, rfl, fun _ => rfl⟩

theorem skipComma_of_ends {rest : List UInt8} (h : Ends rest) (pos : Nat) :
    ∃ pos', ∀ state : ExpandState, skipComma state pos rest = .ok (pos', rest.tail) := by
  rcases h with rfl | ⟨more, rfl⟩
  · exact ⟨pos, fun _ => rfl⟩
  · exact ⟨pos + 1, fun _ => by simp [skipComma]⟩

theorem skipComma_ok {pos pos' : Nat} {s rest : List UInt8}
    (h : skipComma state pos s = .ok (pos', rest)) : Ends s ∧ rest = s.tail := by
  cases s with
  | nil =>
    obtain ⟨-, rfl⟩ : pos = pos' ∧ [] = rest := by simpa [skipComma] using h
    exact ⟨Or.inl rfl, rfl⟩
  | cons c s =>
    simp only [skipComma] at h
    split at h
    · cases h
    · rename_i hcomma
      obtain ⟨-, rfl⟩ : pos + 1 = pos' ∧ s = rest := by simpa using h
      obtain rfl : c = comma := by simpa using hcomma
      exact ⟨Or.inr ⟨s, rfl⟩, rfl⟩

end ExpandState

end SysAgent
