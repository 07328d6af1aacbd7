import Mathlib

set_option autoImplicit false

/-! # The tokens of a sequence (`sequence_token.c`)

A click sequence is a C string of comma-separated tokens. `sequenceTokenNext` takes the next token
off the string its cursor points at; the worker calls it until it returns `NULL`. -/

namespace SysAgent

/-- A C string: the bytes before its NUL. -/
structure CString where
  bytes : List UInt8
  noNul : 0 ∉ bytes

/-- The C string that starts at the beginning of `memory`. -/
def CString.at (memory : List UInt8) : CString :=
  { bytes := memory.takeWhile (· != 0)
    noNul := fun h => by simpa using List.mem_takeWhile_imp h }

/-- Memory that holds a text and its NUL holds that C string. -/
theorem CString.at_append_nul {text : List UInt8} (htext : 0 ∉ text) (rest : List UInt8) :
    (CString.at (text ++ 0 :: rest)).bytes = text := by
  show (text ++ 0 :: rest).takeWhile (· != 0) = text
  rw [List.takeWhile_append_of_pos]
  · simp
  · intro b hb
    have hne : b ≠ 0 := fun h => htext (h ▸ hb)
    simpa using hne

def comma : UInt8 := ','.toUInt8

/-! ## The walker -/

/-- `sequenceTokenNext`: the token returned (`none` for `NULL`) and the cursor left behind. The
    cursor is the rest of the string; the NUL put over the comma ends the returned token. -/
def sequenceTokenNext (cursor : Option (List UInt8)) :
    Option (List UInt8) × Option (List UInt8) :=
  match cursor with
  | none => (none, none)
  | some s =>
    match s.dropWhile (· == comma) with
    | [] => (none, none)
    | c :: s =>
      match (c :: s).dropWhile (· != comma) with
      | [] => (some ((c :: s).takeWhile (· != comma)), none)
      | _ :: rest => (some ((c :: s).takeWhile (· != comma)), some rest)

/-- How much of the sequence a cursor still has to go. -/
def cursorLength (cursor : Option (List UInt8)) : Nat :=
  cursor.elim 0 (·.length + 1)

theorem cursorLength_lt {cursor rest : Option (List UInt8)} {token : List UInt8}
    (h : sequenceTokenNext cursor = (some token, rest)) :
    cursorLength rest < cursorLength cursor := by
  cases cursor with
  | none => simp [sequenceTokenNext] at h
  | some s =>
    have hskip : (s.dropWhile (· == comma)).length ≤ s.length :=
      (List.dropWhile_sublist _).length_le
    simp only [sequenceTokenNext] at h
    split at h
    · simp at h
    · rename_i c s' hs
      have htoken : ((c :: s').dropWhile (· != comma)).length ≤ (c :: s').length :=
        (List.dropWhile_sublist _).length_le
      split at h
      · obtain ⟨-, rfl⟩ := Prod.mk.inj h
        simp [cursorLength]
      · rename_i rest' hrest
        obtain ⟨-, rfl⟩ := Prod.mk.inj h
        rw [hs] at hskip
        rw [hrest] at htoken
        simp only [cursorLength, Option.elim_some, List.length_cons] at htoken hskip ⊢
        omega

/-- The tokens a walk with `sequenceTokenNext` yields before `NULL`. -/
def sequenceTokens (cursor : Option (List UInt8)) : List (List UInt8) :=
  match _h : sequenceTokenNext cursor with
  | (none, _) => []
  | (some token, rest) => token :: sequenceTokens rest
termination_by cursorLength cursor
decreasing_by exact cursorLength_lt _h

/-! ## Joined tokens -/

/-- Tokens joined by single commas. -/
def joinTokens (tokens : List (List UInt8)) : List UInt8 :=
  [comma].intercalate tokens

@[simp] theorem joinTokens_nil : joinTokens [] = [] :=
  rfl

@[simp] theorem joinTokens_singleton (token : List UInt8) : joinTokens [token] = token := by
  simp [joinTokens]

theorem joinTokens_cons {tokens : List (List UInt8)} (htokens : tokens ≠ [])
    (token : List UInt8) : joinTokens (token :: tokens) = token ++ comma :: joinTokens tokens := by
  obtain ⟨next, tokens, rfl⟩ := List.exists_cons_of_ne_nil htokens
  simp [joinTokens]

/-- The joined text grows by a comma, unless it is empty, and the token. -/
theorem joinTokens_append_singleton {tokens : List (List UInt8)} (htokens : tokens ≠ [])
    (token : List UInt8) :
    joinTokens (tokens ++ [token]) = joinTokens tokens ++ comma :: token := by
  induction tokens with
  | nil => exact absurd rfl htokens
  | cons first tokens ih =>
    by_cases hnil : tokens = []
    · subst hnil
      simp [joinTokens]
    · rw [List.cons_append, joinTokens_cons (by simp), ih hnil, joinTokens_cons hnil,
        List.append_assoc, List.cons_append]

/-- More tokens make the joined text no shorter. -/
theorem joinTokens_length_le (tokens more : List (List UInt8)) :
    (joinTokens tokens).length ≤ (joinTokens (tokens ++ more)).length := by
  induction tokens with
  | nil => simp
  | cons token tokens ih =>
    by_cases hmore : tokens ++ more = []
    · obtain ⟨rfl, rfl⟩ := List.append_eq_nil_iff.1 hmore
      simp
    · rw [List.cons_append, joinTokens_cons hmore]
      by_cases hnil : tokens = []
      · simp [hnil]
      · rw [joinTokens_cons hnil]
        simpa using ih

/-- What a walk can return: no commas, and not empty. -/
def Walkable (token : List UInt8) : Prop :=
  token ≠ [] ∧ comma ∉ token

theorem Walkable.takeWhile_append {token : List UInt8} (h : Walkable token) (rest : List UInt8) :
    (token ++ rest).takeWhile (· != comma) = token ++ rest.takeWhile (· != comma) :=
  List.takeWhile_append_of_pos fun b hb => by
    have hne : b ≠ comma := fun heq => h.2 (heq ▸ hb)
    simpa using hne

theorem Walkable.dropWhile_append {token : List UInt8} (h : Walkable token) (rest : List UInt8) :
    (token ++ rest).dropWhile (· != comma) = rest.dropWhile (· != comma) :=
  List.dropWhile_append_of_pos fun b hb => by
    have hne : b ≠ comma := fun heq => h.2 (heq ▸ hb)
    simpa using hne

theorem Walkable.not_skipped {token : List UInt8} (h : Walkable token) (rest : List UInt8) :
    (token ++ rest).dropWhile (· == comma) = token ++ rest := by
  obtain ⟨hne, hcomma⟩ := h
  obtain ⟨c, token, rfl⟩ := List.exists_cons_of_ne_nil hne
  have hc : c ≠ comma := fun heq => hcomma (heq ▸ List.mem_cons_self)
  simp [hc]

/-- The last token of a sequence. -/
theorem sequenceTokenNext_last {token : List UInt8} (h : Walkable token) :
    sequenceTokenNext (some token) = (some token, none) := by
  have hskip := h.not_skipped []
  have htake := h.takeWhile_append []
  have hdrop := h.dropWhile_append []
  obtain ⟨c, token, rfl⟩ := List.exists_cons_of_ne_nil h.1
  simp only [List.append_nil, List.takeWhile_nil, List.dropWhile_nil] at hskip htake hdrop
  simp only [sequenceTokenNext, hskip, htake, hdrop]

theorem sequenceTokenNext_cons {token : List UInt8} (h : Walkable token) (rest : List UInt8) :
    sequenceTokenNext (some (token ++ comma :: rest)) = (some token, some rest) := by
  have hskip := h.not_skipped (comma :: rest)
  have htake := h.takeWhile_append (comma :: rest)
  have hdrop := h.dropWhile_append (comma :: rest)
  obtain ⟨c, token, rfl⟩ := List.exists_cons_of_ne_nil h.1
  simp only [bne_self_eq_false, Bool.false_eq_true, not_false_eq_true, List.takeWhile_cons_of_neg,
    List.append_nil, List.dropWhile_cons_of_neg, List.cons_append] at hskip htake hdrop
  simp only [sequenceTokenNext, List.cons_append, hskip, htake, hdrop]

/-- Walking joined tokens gives the tokens back. -/
theorem sequenceTokens_joinTokens {tokens : List (List UInt8)}
    (h : ∀ token ∈ tokens, Walkable token) :
    sequenceTokens (some (joinTokens tokens)) = tokens := by
  induction tokens with
  | nil =>
    rw [sequenceTokens]
    simp [sequenceTokenNext]
  | cons token tokens ih =>
    have htoken := h token List.mem_cons_self
    have hrest := ih fun t ht => h t (List.mem_cons_of_mem _ ht)
    rw [sequenceTokens]
    by_cases hnil : tokens = []
    · subst hnil
      rw [joinTokens_singleton, sequenceTokenNext_last htoken]
      show token :: sequenceTokens none = [token]
      rw [sequenceTokens]
      rfl
    · rw [joinTokens_cons hnil, sequenceTokenNext_cons htoken]
      show token :: sequenceTokens (some (joinTokens tokens)) = token :: tokens
      rw [hrest]

end SysAgent
