import Mathlib
import SysAgent.Sequence.Token

set_option autoImplicit false

/-! # Expanding the repeat syntax (`sequence_repeat.c`)

A range `input[begin, end)` is the list of its bytes; `pos` is the offset of the first
of them, which only error reports need. A function that returns `false` in the source returns
`Except.error` with the state as `fail` left it. Memory from `out` on is a list of bytes, longer
than `outSize` where more memory follows: copying past `outSize` would change what follows. -/

namespace SysAgent

def SEQUENCE_REPEAT_MAX_COUNT : Nat := 1000
def SEQUENCE_REPEAT_MAX_DEPTH : Nat := 4
def SEQUENCE_REPEAT_MAX_TOKENS : Nat := 1024

inductive SequenceExpandResult
  | ok
  | badSyntax
  | countRange
  | tooDeep
  | tooManyTokens
  | tooLong
  deriving DecidableEq, Repr

structure SequenceExpandInfo where
  errorIndex : Nat
  tokenCount : Nat
  estimatedMs : UInt64
  deriving DecidableEq, Repr

structure ExpandState where
  out : List UInt8
  /-- Bytes available including the terminating NUL. -/
  outSize : Nat
  outLen : Nat
  tokens : Nat
  clickCostMs : UInt64
  estimatedMs : UInt64
  /-- The token after `%x`/`&x` is that stick's y value. -/
  stickValueNext : Bool
  result : SequenceExpandResult
  errorIndex : Nat
  deriving DecidableEq, Repr

def star : UInt8 := '*'.toUInt8
def openParen : UInt8 := '('.toUInt8
def closeParen : UInt8 := ')'.toUInt8

def isDigit (value : UInt8) : Bool :=
  '0'.toUInt8 ≤ value && value ≤ '9'.toUInt8

def isControlByte (value : UInt8) : Bool :=
  value < 0x20 || value == 0x7F

/-- `memcpy(out + at, bytes, …)`. -/
def copyTo (out : List UInt8) (position : Nat) (bytes : List UInt8) : List UInt8 :=
  out.take position ++ bytes ++ out.drop (position + bytes.length)

namespace ExpandState

def fail {α : Type} (state : ExpandState) (result : SequenceExpandResult) (errorIndex : Nat) :
    Except ExpandState α :=
  .error { state with result := result, errorIndex := errorIndex }

/-! ## The runtime estimate -/

/-- The value of one digit of a `W` token, `none` for a byte that is no digit. -/
def waitDigit (base : Nat) (byte : UInt8) : Option Nat :=
  if '0'.toUInt8 ≤ byte && byte ≤ '9'.toUInt8 then some (byte.toNat - '0'.toNat)
  else if base == 16 && 'a'.toUInt8 ≤ byte && byte ≤ 'f'.toUInt8 then
    some (byte.toNat - 'a'.toNat + 10)
  else if base == 16 && 'A'.toUInt8 ≤ byte && byte ≤ 'F'.toUInt8 then
    some (byte.toNat - 'A'.toNat + 10)
  else none

/-- The digit loop of `parseWaitMs`. -/
def waitDigits (base : Nat) (value : Nat) : List UInt8 → Nat
  | [] => value
  | byte :: rest =>
    match waitDigit base byte with
    | none => 0
    | some digit =>
      if value > (2 ^ 64 - 1 - digit) / base then 2 ^ 64 - 1
      else waitDigits base (value * base + digit) rest

def parseWaitMs : List UInt8 → UInt64
  | zero :: x :: digits =>
    if zero == '0'.toUInt8 && (x == 'x'.toUInt8 || x == 'X'.toUInt8) then
      UInt64.ofNat (waitDigits 16 0 digits)
    else UInt64.ofNat (waitDigits 10 0 (zero :: x :: digits))
  | digits => UInt64.ofNat (waitDigits 10 0 digits)

/-- `tokenCostMs`: the cost of a token and the new `stickValueNext`. -/
def tokenCostMs (state : ExpandState) (token : List UInt8) : UInt64 × Bool :=
  if state.stickValueNext then (0, false)
  else
    match token.head? with
    | none => (state.clickCostMs, false)
    | some first =>
      if first == 'W'.toUInt8 then (parseWaitMs token.tail, false)
      else if first == '+'.toUInt8 || first == '-'.toUInt8 then (0, false)
      else if first == '%'.toUInt8 || first == '&'.toUInt8 then (0, true)
      else (state.clickCostMs, false)

/-! ## The pieces of an item -/

/-- Copy bytes to the end of the output. -/
def append (state : ExpandState) (bytes : List UInt8) : ExpandState :=
  { state with
    out := copyTo state.out state.outLen bytes
    outLen := state.outLen + bytes.length }

/-- `emitToken` for the token `input[begin, end)`. -/
def emitToken (state : ExpandState) (tokenBegin : Nat) (token : List UInt8) :
    Except ExpandState ExpandState :=
  if state.tokens + 1 > SEQUENCE_REPEAT_MAX_TOKENS then state.fail .tooManyTokens tokenBegin
  else
    let needed := token.length + (if state.tokens != 0 then 1 else 0) + 1
    if state.outLen + needed > state.outSize then state.fail .tooLong tokenBegin
    else
      let written := (if state.tokens != 0 then state.append [comma] else state).append token
      .ok { written with
            out := copyTo written.out written.outLen [0]
            estimatedMs := state.estimatedMs + (state.tokenCostMs token).1
            stickValueNext := (state.tokenCostMs token).2
            tokens := state.tokens + 1 }

/-- The digit loop of `parseCount`: the value, the number of digits, and where they end. -/
def countDigits (state : ExpandState) (starIndex : Nat) (value digits pos : Nat) :
    List UInt8 → Except ExpandState (Nat × Nat × Nat × List UInt8)
  | [] => .ok (value, digits, pos, [])
  | c :: rest =>
    if isDigit c then
      let value := value * 10 + (c.toNat - '0'.toNat)
      if value > SEQUENCE_REPEAT_MAX_COUNT then state.fail .countRange starIndex
      else countDigits state starIndex value (digits + 1) (pos + 1) rest
    else .ok (value, digits, pos, c :: rest)

/-- `parseCount`; `rest` starts after the `'*'` at `starIndex`. -/
def parseCount (state : ExpandState) (starIndex : Nat) (rest : List UInt8) :
    Except ExpandState (Nat × Nat × List UInt8) := do
  let (value, digits, pos, rest) ← countDigits state starIndex 0 0 (starIndex + 1) rest
  if digits == 0 then state.fail .badSyntax starIndex
  else if value == 0 then state.fail .countRange starIndex
  else .ok (value, pos, rest)

/-- The nesting level after one byte of a group. -/
def nestingAfter (nesting : Nat) (value : UInt8) : Nat :=
  if value == openParen then nesting + 1
  else if value == closeParen then nesting - 1
  else nesting

/-- The search for the `')'` that closes the group opened at `itemStart`: the group's body and what
    follows the `')'`. -/
def closeGroup (state : ExpandState) (itemStart nesting cursor : Nat) :
    List UInt8 → Except ExpandState (List UInt8 × List UInt8)
  | [] => state.fail .badSyntax itemStart
  | value :: rest =>
    if isControlByte value then state.fail .badSyntax cursor
    else if nestingAfter nesting value != 0 then do
      let (body, after) ←
        closeGroup state itemStart (nestingAfter nesting value) (cursor + 1) rest
      .ok (value :: body, after)
    else .ok ([], rest)

/-- The token scan: the token and what follows it. -/
def scanToken (state : ExpandState) (pos : Nat) :
    List UInt8 → Except ExpandState (List UInt8 × List UInt8)
  | [] => .ok ([], [])
  | c :: rest =>
    if c != comma && c != star && c != closeParen then
      if isControlByte c then state.fail .badSyntax pos
      else do
        let (token, after) ← scanToken state (pos + 1) rest
        .ok (c :: token, after)
    else .ok ([], c :: rest)

/-- The optional `'*N'` of the item that starts at `itemStart`: the count and where it ends.
    `empty` says that there is nothing to repeat. -/
def itemCount (state : ExpandState) (itemStart : Nat) (empty : Bool) (pos : Nat) :
    List UInt8 → Except ExpandState (Nat × Nat × List UInt8)
  | [] => .ok (1, pos, [])
  | c :: rest =>
    if c == star then do
      let (count, pos, rest) ← parseCount state pos rest
      if empty then state.fail .badSyntax itemStart
      else .ok (count, pos, rest)
    else .ok (1, pos, c :: rest)

/-- What must follow an item: the end of the range or a comma, which is skipped. -/
def skipComma (state : ExpandState) (pos : Nat) :
    List UInt8 → Except ExpandState (Nat × List UInt8)
  | [] => .ok (pos, [])
  | c :: rest => if c != comma then state.fail .badSyntax pos else .ok (pos + 1, rest)

/-- The loop that emits a token `count` times; an empty element is skipped. -/
def repeatToken (state : ExpandState) (tokenBegin : Nat) (token : List UInt8) (count : Nat) :
    Except ExpandState ExpandState :=
  if token.isEmpty then .ok state
  else (List.range count).foldlM (fun st _ => st.emitToken tokenBegin token) state

/-- The loop that expands a group's body `count` times; the first round must emit a token. -/
def repeatGroup (expandBody : ExpandState → Except ExpandState ExpandState)
    (state : ExpandState) (itemStart count : Nat) : Except ExpandState ExpandState :=
  (List.range count).foldlM (fun st i => do
    let st' ← expandBody st
    if i == 0 && st'.tokens == state.tokens then st'.fail .badSyntax itemStart
    else .ok st') state

/-! ### Every piece consumes input -/

theorem closeGroup_length {state : ExpandState} {itemStart nesting cursor : Nat}
    {s body rest : List UInt8} (h : closeGroup state itemStart nesting cursor s = .ok (body, rest)) :
    body.length + rest.length < s.length := by
  induction s generalizing nesting cursor body with
  | nil => simp [closeGroup, fail] at h
  | cons value s ih =>
    simp only [closeGroup] at h
    split at h
    · simp [fail] at h
    · split at h
      · cases hclose : closeGroup state itemStart (nestingAfter nesting value) (cursor + 1) s with
        | error e => rw [hclose] at h; cases h
        | ok found =>
          obtain ⟨body', rest'⟩ := found
          rw [hclose] at h
          obtain ⟨rfl, rfl⟩ : value :: body' = body ∧ rest' = rest := Prod.mk.inj (Except.ok.inj h)
          have := ih hclose
          simp only [List.length_cons]
          omega
      · obtain ⟨rfl, rfl⟩ := Prod.mk.inj (Except.ok.inj h)
        simp

theorem scanToken_length {state : ExpandState} {pos : Nat} {s token rest : List UInt8}
    (h : scanToken state pos s = .ok (token, rest)) : rest.length ≤ s.length := by
  induction s generalizing pos token with
  | nil =>
    obtain ⟨-, rfl⟩ := Prod.mk.inj (Except.ok.inj h)
    exact Nat.le_refl _
  | cons c s ih =>
    simp only [scanToken] at h
    split at h
    · split at h
      · simp [fail] at h
      · cases hscan : scanToken state (pos + 1) s with
        | error e => rw [hscan] at h; cases h
        | ok found =>
          obtain ⟨token', rest'⟩ := found
          rw [hscan] at h
          obtain ⟨rfl, rfl⟩ := Prod.mk.inj (Except.ok.inj h)
          exact Nat.le_succ_of_le (ih hscan)
    · obtain ⟨rfl, rfl⟩ := Prod.mk.inj (Except.ok.inj h)
      exact Nat.le_refl _

theorem countDigits_length {state : ExpandState} {starIndex value digits pos : Nat}
    {s : List UInt8} {found : Nat × Nat × Nat × List UInt8}
    (h : countDigits state starIndex value digits pos s = .ok found) :
    found.2.2.2.length ≤ s.length := by
  induction s generalizing value digits pos with
  | nil =>
    rw [← Except.ok.inj h]
  | cons c s ih =>
    simp only [countDigits] at h
    split at h
    · split at h
      · simp [fail] at h
      · exact Nat.le_succ_of_le (ih h)
    · rw [← Except.ok.inj h]

theorem parseCount_length {state : ExpandState} {starIndex count pos : Nat} {s rest : List UInt8}
    (h : parseCount state starIndex s = .ok (count, pos, rest)) : rest.length ≤ s.length := by
  simp only [parseCount] at h
  cases hdigits : countDigits state starIndex 0 0 (starIndex + 1) s with
  | error e => rw [hdigits] at h; cases h
  | ok found =>
    have hlen := countDigits_length hdigits
    obtain ⟨value, digits, pos', rest'⟩ := found
    rw [hdigits] at h
    simp only [bind, Except.bind] at h
    split at h
    · simp [fail] at h
    · split at h
      · simp [fail] at h
      · obtain ⟨rfl, rfl, rfl⟩ : value = count ∧ pos' = pos ∧ rest' = rest := by
          simpa using h
        exact hlen

theorem itemCount_length {state : ExpandState} {itemStart pos count pos' : Nat} {empty : Bool}
    {s rest : List UInt8} (h : itemCount state itemStart empty pos s = .ok (count, pos', rest)) :
    rest.length ≤ s.length := by
  cases s with
  | nil =>
    obtain ⟨rfl, rfl, rfl⟩ : 1 = count ∧ pos = pos' ∧ [] = rest := by simpa [itemCount] using h
    exact Nat.le_refl _
  | cons c s =>
    simp only [itemCount] at h
    split at h
    · cases hcount : parseCount state pos s with
      | error e => rw [hcount] at h; cases h
      | ok found =>
        obtain ⟨count', pos'', rest'⟩ := found
        have hlen := parseCount_length hcount
        rw [hcount] at h
        simp only [bind, Except.bind] at h
        split at h
        · simp [fail] at h
        · obtain ⟨rfl, rfl, rfl⟩ : count' = count ∧ pos'' = pos' ∧ rest' = rest := by
            simpa using h
          exact Nat.le_succ_of_le hlen
    · obtain ⟨rfl, rfl, rfl⟩ : 1 = count ∧ pos = pos' ∧ c :: s = rest := by simpa using h
      exact Nat.le_refl _

theorem skipComma_length {state : ExpandState} {pos pos' : Nat} {s rest : List UInt8}
    (h : skipComma state pos s = .ok (pos', rest)) : rest.length ≤ s.length - 1 := by
  cases s with
  | nil =>
    obtain ⟨-, rfl⟩ : pos = pos' ∧ [] = rest := by simpa [skipComma] using h
    exact Nat.le_refl _
  | cons c s =>
    simp only [skipComma] at h
    split at h
    · simp [fail] at h
    · obtain ⟨-, rfl⟩ : pos + 1 = pos' ∧ s = rest := by simpa using h
      exact Nat.le_refl _

/-! ## The expander -/

/-- `expandItems`: walks the items of the range and emits their tokens. `depth` is the group
    nesting level of the range. -/
def expandItems (state : ExpandState) (depth pos : Nat) (s : List UInt8) :
    Except ExpandState ExpandState :=
  match s with
  | [] => .ok state
  | c :: tail =>
    if c == openParen then
      if depth + 1 > SEQUENCE_REPEAT_MAX_DEPTH then state.fail .tooDeep pos
      else
        match _hclose : closeGroup state pos 1 (pos + 1) tail with
        | .error state => .error state
        | .ok (body, after) =>
          match _hcount : itemCount state pos false (pos + body.length + 2) after with
          | .error state => .error state
          | .ok (count, posAfter, after') =>
            match repeatGroup (fun st => expandItems st (depth + 1) (pos + 1) body) state pos
                count with
            | .error state => .error state
            | .ok state' =>
              match _hcomma : skipComma state' posAfter after' with
              | .error state => .error state
              | .ok (posNext, rest) => expandItems state' depth posNext rest
    else if c == closeParen then state.fail .badSyntax pos
    else
      match _hscan : scanToken state pos (c :: tail) with
      | .error state => .error state
      | .ok (token, after) =>
        match _hcount : itemCount state pos token.isEmpty (pos + token.length) after with
        | .error state => .error state
        | .ok (count, posAfter, after') =>
          match state.repeatToken pos token count with
          | .error state => .error state
          | .ok state' =>
            match _hcomma : skipComma state' posAfter after' with
            | .error state => .error state
            | .ok (posNext, rest) => expandItems state' depth posNext rest
termination_by s.length
decreasing_by
  · have := closeGroup_length _hclose
    simp only [List.length_cons]
    omega
  · have := closeGroup_length _hclose
    have := itemCount_length _hcount
    have := skipComma_length _hcomma
    simp only [List.length_cons]
    omega
  · have := scanToken_length _hscan
    have := itemCount_length _hcount
    have := skipComma_length _hcomma
    simp only [List.length_cons] at *
    omega

/-- The state before the first item. -/
def start (out : List UInt8) (outSize : Nat) (clickCostMs : UInt64) : ExpandState :=
  { out := out, outSize := outSize, outLen := 0, tokens := 0, clickCostMs := clickCostMs,
    estimatedMs := 0, stickValueNext := false, result := .ok, errorIndex := 0 }

end ExpandState

/-- What `sequenceExpand` leaves behind: its return value, `info` and the memory from `out` on. -/
structure SequenceExpansion where
  result : SequenceExpandResult
  info : SequenceExpandInfo
  out : List UInt8
  deriving DecidableEq, Repr

/-- `sequenceExpand`; `none` stands for a `NULL` argument. -/
def sequenceExpand (sequence : Option CString) (out : Option (List UInt8)) (outSize : Nat)
    (clickCostMs : UInt64) : SequenceExpansion :=
  match out with
  | none => { result := .tooLong, info := ⟨0, 0, 0⟩, out := [] }
  | some out =>
    if outSize == 0 then { result := .tooLong, info := ⟨0, 0, 0⟩, out := out }
    else
      let out := copyTo out 0 [0]
      match sequence with
      | none => { result := .ok, info := ⟨0, 0, 0⟩, out := out }
      | some sequence =>
        match (ExpandState.start out outSize clickCostMs).expandItems 0 0 sequence.bytes with
        | .error state =>
          { result := state.result
            info := { errorIndex := state.errorIndex, tokenCount := state.tokens, estimatedMs := 0 }
            out := copyTo state.out 0 [0] }
        | .ok state =>
          { result := .ok
            info := { errorIndex := 0, tokenCount := state.tokens,
                      estimatedMs := state.estimatedMs }
            out := state.out }

end SysAgent
