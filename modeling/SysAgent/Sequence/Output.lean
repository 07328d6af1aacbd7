import Mathlib
import SysAgent.Sequence.Repeat

set_option autoImplicit false

/-! # The expander's output buffer

What one `emitToken` does to the buffer, and what a run of them does: the buffer holds the tokens
emitted so far, joined by commas and ended by a NUL, and the memory behind it keeps its content. A
failed call leaves all of it as it was. -/

namespace SysAgent

/-- The limits on an expansion: the token cap, and the buffer with the NUL. -/
def Fits (outSize : Nat) (tokens : List (List UInt8)) : Prop :=
  tokens.length ≤ SEQUENCE_REPEAT_MAX_TOKENS ∧ (joinTokens tokens).length + 1 ≤ outSize

namespace ExpandState

/-- `e` is `state` with an error recorded in it. -/
def Failed (state e : ExpandState) : Prop :=
  ∃ result errorIndex, result ≠ .ok ∧
    e = { state with result := result, errorIndex := errorIndex }

theorem fail_error {α : Type} {state e : ExpandState} {result : SequenceExpandResult}
    {errorIndex : Nat} (hresult : result ≠ .ok)
    (h : (state.fail result errorIndex : Except ExpandState α) = .error e) : Failed state e :=
  ⟨result, errorIndex, hresult, (Except.error.inj h).symm⟩

/-! ## What a failing piece leaves behind -/

theorem closeGroup_error {state e : ExpandState} {itemStart nesting cursor : Nat}
    {s : List UInt8} (h : closeGroup state itemStart nesting cursor s = .error e) :
    Failed state e := by
  induction s generalizing nesting cursor with
  | nil => exact fail_error (by decide) h
  | cons value s ih =>
    simp only [closeGroup] at h
    split at h
    · exact fail_error (by decide) h
    · split at h
      · cases hclose : closeGroup state itemStart (nestingAfter nesting value) (cursor + 1) s with
        | error e' =>
          rw [hclose] at h
          exact ih (hclose.trans h)
        | ok found => rw [hclose] at h; cases h
      · cases h

theorem scanToken_error {state e : ExpandState} {pos : Nat} {s : List UInt8}
    (h : scanToken state pos s = .error e) : Failed state e := by
  induction s generalizing pos with
  | nil => cases h
  | cons c s ih =>
    simp only [scanToken] at h
    split at h
    · split at h
      · exact fail_error (by decide) h
      · cases hscan : scanToken state (pos + 1) s with
        | error e' =>
          rw [hscan] at h
          exact ih (hscan.trans h)
        | ok found => rw [hscan] at h; cases h
    · cases h

theorem countDigits_error {state e : ExpandState} {starIndex value digits pos : Nat}
    {s : List UInt8} (h : countDigits state starIndex value digits pos s = .error e) :
    Failed state e := by
  induction s generalizing value digits pos with
  | nil => cases h
  | cons c s ih =>
    simp only [countDigits] at h
    split at h
    · split at h
      · exact fail_error (by decide) h
      · exact ih h
    · cases h

theorem parseCount_error {state e : ExpandState} {starIndex : Nat} {s : List UInt8}
    (h : parseCount state starIndex s = .error e) : Failed state e := by
  simp only [parseCount] at h
  cases hdigits : countDigits state starIndex 0 0 (starIndex + 1) s with
  | error e' =>
    rw [hdigits] at h
    cases h
    exact countDigits_error hdigits
  | ok found =>
    rw [hdigits] at h
    simp only [bind, Except.bind] at h
    split at h
    · exact fail_error (by decide) h
    · split at h
      · exact fail_error (by decide) h
      · cases h

theorem itemCount_error {state e : ExpandState} {itemStart pos : Nat} {empty : Bool}
    {s : List UInt8} (h : itemCount state itemStart empty pos s = .error e) : Failed state e := by
  cases s with
  | nil => cases h
  | cons c s =>
    simp only [itemCount] at h
    split at h
    · cases hcount : parseCount state pos s with
      | error e' =>
        rw [hcount] at h
        exact parseCount_error (hcount.trans h)
      | ok found =>
        rw [hcount] at h
        simp only [bind, Except.bind] at h
        split at h
        · exact fail_error (by decide) h
        · cases h
    · cases h

theorem skipComma_error {state e : ExpandState} {pos : Nat} {s : List UInt8}
    (h : skipComma state pos s = .error e) : Failed state e := by
  cases s with
  | nil => cases h
  | cons c s =>
    simp only [skipComma] at h
    split at h
    · exact fail_error (by decide) h
    · cases h

/-! ## The buffer -/

/-- The state after `tokens` were emitted into a buffer of `outSize` bytes that `beyond` follows
    in memory. -/
structure Holds (outSize : Nat) (beyond : List UInt8) (tokens : List (List UInt8))
    (state : ExpandState) : Prop where
  size : state.outSize = outSize
  count : state.tokens = tokens.length
  length : state.outLen = (joinTokens tokens).length
  fits : Fits outSize tokens
  layout : ∃ free, state.out = joinTokens tokens ++ 0 :: (free ++ beyond) ∧
    (joinTokens tokens).length + 1 + free.length = outSize

variable {outSize : Nat} {beyond : List UInt8} {tokens : List (List UInt8)}
  {state e : ExpandState}

/-- The comma that `emitToken` puts before every token but the first. -/
def separator (state : ExpandState) : List UInt8 :=
  if state.tokens != 0 then [comma] else []

/-- A recorded error is not part of the buffer. -/
theorem Holds.failed (h : Holds outSize beyond tokens state) (hfail : Failed state e) :
    Holds outSize beyond tokens e := by
  obtain ⟨result, errorIndex, -, rfl⟩ := hfail
  exact { h with }

theorem Holds.joinTokens_append (h : Holds outSize beyond tokens state) (token : List UInt8) :
    joinTokens (tokens ++ [token]) = joinTokens tokens ++ state.separator ++ token := by
  by_cases hnil : tokens = []
  · subst hnil
    simp [separator, h.count]
  · have hlen : tokens.length ≠ 0 := by simpa using hnil
    rw [joinTokens_append_singleton hnil]
    simp [separator, h.count, hlen]

/-- Copying to the end of the text overwrites what follows it. -/
theorem copyTo_length (text old bytes : List UInt8) :
    copyTo (text ++ old) text.length bytes = text ++ bytes ++ old.drop bytes.length := by
  simp [copyTo, List.drop_append]

theorem append_separator (state : ExpandState) :
    (if state.tokens != 0 then state.append [comma] else state) =
      state.append state.separator := by
  unfold separator
  split
  · rfl
  · simp [append, copyTo]

theorem length_separator (state : ExpandState) :
    (if state.tokens != 0 then 1 else 0) = state.separator.length := by
  unfold separator
  split <;> rfl

/-- The separator, the token and the NUL, written one after the other. -/
theorem emitToken_eq (state : ExpandState) (tokenBegin : Nat) (token : List UInt8)
    (hcap : state.tokens + 1 ≤ SEQUENCE_REPEAT_MAX_TOKENS)
    (hroom : state.outLen + (state.separator ++ token).length + 1 ≤ state.outSize) :
    ∃ st', state.emitToken tokenBegin token = .ok st' ∧ st'.outSize = state.outSize ∧
      st'.tokens = state.tokens + 1 ∧
      st'.outLen = state.outLen + (state.separator ++ token).length ∧
      ∀ text old, state.out = text ++ old → state.outLen = text.length →
        st'.out = text ++ (state.separator ++ token) ++
          0 :: old.drop ((state.separator ++ token).length + 1) := by
  have hcap' : ¬ state.tokens + 1 > SEQUENCE_REPEAT_MAX_TOKENS := Nat.not_lt.2 hcap
  have hroom' : ¬ state.outLen + (token.length + state.separator.length + 1) > state.outSize := by
    rw [List.length_append] at hroom
    omega
  simp only [emitToken, append_separator, length_separator, if_neg hcap', if_neg hroom']
  refine ⟨_, rfl, rfl, rfl, ?_, fun text old hout hlen => ?_⟩
  · simp only [append, List.length_append]
    omega
  · have hsep : state.outLen + state.separator.length = (text ++ state.separator).length := by
      rw [hlen, List.length_append]
    have htoken : (text ++ state.separator).length + token.length =
        (text ++ state.separator ++ token).length := by
      simp only [List.length_append]
    simp only [append]
    rw [hsep, htoken, hout, hlen, copyTo_length, copyTo_length, copyTo_length]
    simp [Nat.add_left_comm, Nat.add_comm]

/-- A token that fits goes to the end of the text. -/
theorem Holds.emitToken_ok (h : Holds outSize beyond tokens state) {token : List UInt8}
    (hfits : Fits outSize (tokens ++ [token])) (tokenBegin : Nat) :
    ∃ st', state.emitToken tokenBegin token = .ok st' ∧
      Holds outSize beyond (tokens ++ [token]) st' := by
  have hjoin := h.joinTokens_append token
  obtain ⟨hcap, hlen⟩ := hfits
  obtain ⟨free, hout, hfree⟩ := h.layout
  rw [hjoin, List.append_assoc, List.length_append] at hlen
  obtain ⟨st', hst', hsize, htokens, houtLen, hmem⟩ := emitToken_eq state tokenBegin token
    (by simpa [h.count] using hcap) (by rw [h.length, h.size]; exact hlen)
  refine ⟨st', hst', hsize.trans h.size, ?_, ?_, ⟨hcap, ?_⟩, ?_⟩
  · simp [htokens, h.count]
  · simp only [houtLen, h.length, hjoin, List.length_append]
    omega
  · rw [hjoin, List.append_assoc, List.length_append]
    exact hlen
  · refine ⟨free.drop (state.separator ++ token).length, ?_, ?_⟩
    · rw [hmem _ _ hout h.length, hjoin, List.drop_succ_cons,
        List.drop_append_of_le_length (by omega)]
      simp only [List.append_assoc]
    · rw [hjoin, List.append_assoc, List.length_append, List.length_drop]
      omega

/-- A token that does not fit is refused. -/
theorem Holds.emitToken_error (h : Holds outSize beyond tokens state) {token : List UInt8}
    (hfits : ¬ Fits outSize (tokens ++ [token])) (tokenBegin : Nat) :
    ∃ e, state.emitToken tokenBegin token = .error e ∧ Failed state e := by
  by_cases hcap : state.tokens + 1 > SEQUENCE_REPEAT_MAX_TOKENS
  · simp only [emitToken, if_pos hcap]
    exact ⟨_, rfl, _, _, by decide, rfl⟩
  · have hroom : state.outLen + (token.length + state.separator.length + 1) > state.outSize := by
      refine Nat.lt_of_not_le fun hle => hfits ⟨?_, ?_⟩
      · have hlen : (tokens ++ [token]).length = state.tokens + 1 := by simp [h.count]
        omega
      · rw [h.joinTokens_append, List.append_assoc, List.length_append, List.length_append,
          ← h.length, ← h.size]
        omega
    simp only [emitToken, length_separator, if_neg hcap, if_pos hroom]
    exact ⟨_, rfl, _, _, by decide, rfl⟩

/-! ## Emitting a list of tokens -/

/-- Emit the tokens one after the other, without a report where it fails. -/
def emits (state : ExpandState) (tokens : List (List UInt8)) : Option ExpandState :=
  tokens.foldlM (fun st token => (st.emitToken 0 token).toOption) state

@[simp] theorem emits_nil (state : ExpandState) : state.emits [] = some state :=
  rfl

theorem emits_append (state : ExpandState) (tokens more : List (List UInt8)) :
    state.emits (tokens ++ more) = (state.emits tokens).bind (·.emits more) := by
  simp only [emits, List.foldlM_append]
  rfl

/-- The offset is in the report only. -/
theorem toOption_emitToken (state : ExpandState) (tokenBegin : Nat) (token : List UInt8) :
    (state.emitToken tokenBegin token).toOption = state.emits [token] := by
  have hsame : (state.emitToken tokenBegin token).toOption = (state.emitToken 0 token).toOption := by
    simp only [emitToken, fail, length_separator]
    split
    · rfl
    · split <;> rfl
  rw [hsame]
  simp [emits]

theorem emits_cons (state : ExpandState) (token : List UInt8) (more : List (List UInt8)) :
    state.emits (token :: more) = (state.emits [token]).bind (·.emits more) :=
  emits_append state [token] more

/-- Tokens that fit are emitted. -/
theorem Holds.emits_of_fits {more : List (List UInt8)} (h : Holds outSize beyond tokens state)
    (hfits : Fits outSize (tokens ++ more)) :
    ∃ st', state.emits more = some st' ∧ Holds outSize beyond (tokens ++ more) st' := by
  induction more generalizing tokens state with
  | nil => exact ⟨state, rfl, by simpa using h⟩
  | cons token more ih =>
    have hassoc : tokens ++ token :: more = (tokens ++ [token]) ++ more := by simp
    rw [hassoc] at hfits ⊢
    have hfirst : Fits outSize (tokens ++ [token]) := by
      obtain ⟨hcap, hlen⟩ := hfits
      refine ⟨le_trans (by simp) hcap, ?_⟩
      by_cases hnil : more = []
      · subst hnil
        simpa using hlen
      · refine le_trans (Nat.succ_le_succ ?_) hlen
        exact joinTokens_length_le _ _
    obtain ⟨st', hst', hholds⟩ := h.emitToken_ok hfirst 0
    obtain ⟨st'', hst'', hholds'⟩ := ih hholds hfits
    refine ⟨st'', ?_, hholds'⟩
    rw [emits_cons, ← toOption_emitToken state 0, hst']
    exact hst''

/-- Tokens that were emitted fitted. -/
theorem Holds.of_emits {more : List (List UInt8)} {st' : ExpandState}
    (h : Holds outSize beyond tokens state) (hemits : state.emits more = some st') :
    Holds outSize beyond (tokens ++ more) st' := by
  induction more generalizing tokens state with
  | nil =>
    obtain rfl : state = st' := Option.some.inj hemits
    simpa using h
  | cons token more ih =>
    rw [emits_cons, ← toOption_emitToken state 0] at hemits
    by_cases hfits : Fits outSize (tokens ++ [token])
    · obtain ⟨st1, hst1, hholds⟩ := h.emitToken_ok hfits 0
      rw [hst1] at hemits
      have hmore := ih hholds hemits
      rwa [List.append_assoc] at hmore
    · obtain ⟨e, he, -⟩ := h.emitToken_error hfits 0
      rw [he] at hemits
      cases hemits

/-- Emitting counts the tokens. -/
theorem tokens_of_emits {more : List (List UInt8)} {st' : ExpandState}
    (hemits : state.emits more = some st') : st'.tokens = state.tokens + more.length := by
  induction more generalizing state with
  | nil =>
    obtain rfl : state = st' := Option.some.inj hemits
    rfl
  | cons token more ih =>
    rw [emits_cons, ← toOption_emitToken state 0] at hemits
    obtain ⟨st1, hst1, hmore⟩ := Option.bind_eq_some_iff.1 hemits
    have hone : st1.tokens = state.tokens + 1 := by
      simp only [emitToken, fail, length_separator, append_separator] at hst1
      split at hst1
      · cases hst1
      · split at hst1
        · cases hst1
        · rw [← Option.some.inj hst1]
    rw [ih hmore, hone, List.length_cons]
    omega

end ExpandState

end SysAgent
