import Mathlib
import SysAgent.Sequence.Grammar

set_option autoImplicit false

/-! # What `sequenceExpand` computes

The expander against the grammar, item by item, and then the whole call: which texts it accepts,
what it writes, and that walking or expanding its output again gives the same tokens. -/

namespace SysAgent

namespace ExpandState

variable {state : ExpandState}

/-! ## The two loops -/

theorem toOption_bind {α β : Type} (r : Except ExpandState α) (f : α → Except ExpandState β) :
    (r >>= f).toOption = r.toOption.bind fun a => (f a).toOption := by
  cases r <;> rfl

theorem toOption_foldlM_emitToken (tokenBegin : Nat) (token : List UInt8) (rounds : List Nat)
    (state : ExpandState) :
    (rounds.foldlM (fun (st : ExpandState) _ => st.emitToken tokenBegin token) state).toOption =
      state.emits (List.replicate rounds.length token) := by
  induction rounds generalizing state with
  | nil => rfl
  | cons i rounds ih =>
    rw [List.foldlM_cons, toOption_bind, toOption_emitToken, List.length_cons,
      List.replicate_succ, emits_cons state token (List.replicate _ _)]
    simp only [ih]

/-- The tokens one item emits. -/
def tokenItem (token : List UInt8) (n : Nat) : List (List UInt8) :=
  if token = [] then [] else List.replicate n token

theorem toOption_repeatToken (tokenBegin : Nat) (token : List UInt8) (n : Nat) :
    (state.repeatToken tokenBegin token n).toOption = state.emits (tokenItem token n) := by
  unfold repeatToken tokenItem
  by_cases hnil : token = []
  · simp [hnil, Except.toOption]
  · have hempty : token.isEmpty = false := by simpa using hnil
    rw [hempty, if_neg hnil, if_neg Bool.false_ne_true]
    have hloop := toOption_foldlM_emitToken tokenBegin token (List.range n) state
    rwa [List.length_range] at hloop

/-- A body that emits something passes the check of the first round, and every round emits it
    again. -/
theorem toOption_repeatGroup {expandBody : ExpandState → Except ExpandState ExpandState}
    {tokens : List (List UInt8)} (htokens : tokens ≠ [])
    (hbody : ∀ st, (expandBody st).toOption = st.emits tokens) (itemStart n : Nat) :
    (repeatGroup expandBody state itemStart n).toOption =
      state.emits (List.replicate n tokens).flatten := by
  have hpos : 0 < tokens.length := List.length_pos_iff.2 htokens
  have hloop : ∀ (rounds : List Nat) (st : ExpandState), state.tokens ≤ st.tokens →
      (rounds.foldlM (fun st i => do
        let st' ← expandBody st
        if i == 0 && st'.tokens == state.tokens then st'.fail .badSyntax itemStart
        else .ok st') st).toOption = st.emits (List.replicate rounds.length tokens).flatten := by
    intro rounds
    induction rounds with
    | nil =>
      intro st _
      rfl
    | cons i rounds ih =>
      intro st hle
      rw [List.foldlM_cons, toOption_bind, toOption_bind, hbody, List.length_cons,
        List.replicate_succ, List.flatten_cons, emits_append, Option.bind_assoc]
      cases hemits : st.emits tokens with
      | none => rfl
      | some st' =>
        have hcount := tokens_of_emits hemits
        have hmore : (i == 0 && st'.tokens == state.tokens) = false := by
          have hne : st'.tokens ≠ state.tokens := by omega
          simp [hne]
        simp only [Option.bind_some, hmore, Bool.false_eq_true, if_false]
        exact ih st' (by omega)
  have hrun := hloop (List.range n) state (Nat.le_refl _)
  rwa [List.length_range] at hrun

/-- The body of a group that was expanded emitted something in the first round. -/
theorem repeatGroup_ok {expandBody : ExpandState → Except ExpandState ExpandState}
    {itemStart n : Nat} {st' : ExpandState} (hn : 1 ≤ n)
    (h : repeatGroup expandBody state itemStart n = .ok st') :
    ∃ st1, expandBody state = .ok st1 ∧ st1.tokens ≠ state.tokens := by
  obtain ⟨m, rfl⟩ : ∃ m, n = m + 1 := ⟨n - 1, by omega⟩
  rw [repeatGroup, List.range_succ_eq_map, List.foldlM_cons] at h
  cases hbody : expandBody state with
  | error e => rw [hbody] at h; cases h
  | ok st1 =>
    refine ⟨st1, rfl, fun heq => ?_⟩
    rw [hbody] at h
    simp [bind, Except.bind, heq, fail] at h

/-! ## One item, and the rest of the range -/

/-- The group search walks over `text` at any nesting level. -/
def Transparent (text : List UInt8) : Prop :=
  ∀ (state : ExpandState) (itemStart nesting cursor : Nat) (body rest after : List UInt8),
    1 ≤ nesting →
    (∀ cursor', closeGroup state itemStart nesting cursor' after = .ok (body, rest)) →
    closeGroup state itemStart nesting cursor (text ++ after) = .ok (text ++ body, rest)

theorem transparent_nil : Transparent [] :=
  fun _ _ _ cursor _ _ _ _ h => h cursor

theorem Transparent.append {s t : List UInt8} (hs : Transparent s) (ht : Transparent t) :
    Transparent (s ++ t) := by
  intro state itemStart nesting cursor body rest after hn h
  rw [List.append_assoc, List.append_assoc]
  exact hs _ _ _ _ _ _ _ hn fun cursor' => ht _ _ _ _ _ _ _ hn h

theorem transparent_byte {c : UInt8} (hopen : c ≠ openParen) (hclose : c ≠ closeParen)
    (hcontrol : isControlByte c = false) : Transparent [c] := by
  intro state itemStart nesting cursor body rest after hn h
  have hnest : nestingAfter nesting c = nesting := by simp [nestingAfter, hopen, hclose]
  have hne : (nesting != 0) = true := by simpa using Nat.ne_of_gt hn
  simp [closeGroup, hcontrol, hnest, hne, h, bind, Except.bind]

theorem transparent_of_bytes {text : List UInt8}
    (h : ∀ c ∈ text, c ≠ openParen ∧ c ≠ closeParen ∧ isControlByte c = false) :
    Transparent text := by
  induction text with
  | nil => exact transparent_nil
  | cons c text ih =>
    obtain ⟨hopen, hclose, hcontrol⟩ := h c List.mem_cons_self
    exact (transparent_byte hopen hclose hcontrol).append
      (ih fun b hb => h b (List.mem_cons_of_mem _ hb))

/-- The search finds the parenthesis that closes a transparent body. -/
theorem Transparent.closeGroup_eq {body : List UInt8} (h : Transparent body)
    (state : ExpandState) (itemStart cursor : Nat) (rest : List UInt8) :
    closeGroup state itemStart 1 cursor (body ++ closeParen :: rest) = .ok (body, rest) := by
  have hclose := h state itemStart 1 cursor [] rest (closeParen :: rest) (Nat.le_refl 1)
    (fun cursor' => by
      have hcontrol : isControlByte closeParen = false := by decide
      have hnest : nestingAfter 1 closeParen = 0 := by decide
      simp [closeGroup, hcontrol, hnest])
  rwa [List.append_nil] at hclose

theorem Transparent.group {body : List UInt8} (h : Transparent body) :
    Transparent (openParen :: (body ++ [closeParen])) := by
  intro state itemStart nesting cursor found rest after hn hafter
  have hopen : nestingAfter nesting openParen = nesting + 1 := by simp [nestingAfter]
  have hcontrol : isControlByte openParen = false := by decide
  have hcontrol' : isControlByte closeParen = false := by decide
  have hclose : nestingAfter (nesting + 1) closeParen = nesting := by
    have hne : (closeParen == openParen) = false := by decide
    simp [nestingAfter, hne]
  have hne : (nesting != 0) = true := by simpa using Nat.ne_of_gt hn
  have hbody := h state itemStart (nesting + 1) (cursor + 1) (closeParen :: found) rest
    (closeParen :: after) (by omega)
    (fun cursor' => by simp [closeGroup, hcontrol', hclose, hne, hafter, bind, Except.bind])
  simp only [List.cons_append, List.append_assoc, List.nil_append] at hbody ⊢
  simp [closeGroup, hcontrol, hopen, hbody, bind, Except.bind]

theorem Times.transparent {times : List UInt8} {n : Nat} (h : Times times n) :
    Transparent times := by
  refine transparent_of_bytes fun c hc => ⟨?_, ?_, ?_⟩
  · rintro rfl
    exact h.not_mem (by decide) (by decide) hc
  · rintro rfl
    exact h.not_mem (by decide) (by decide) hc
  · exact h.noControl c hc

/-- Inside a group every derivable text is transparent. -/
theorem transparent_of_derives {symbol : Symbol} {depth : Nat} {text : List UInt8}
    {tokens : List (List UInt8)} (h : Derives IsToken symbol depth text tokens)
    (hdepth : depth ≠ 0) : Transparent text := by
  induction h with
  | empty => exact transparent_nil
  | token htoken htimes =>
    refine Transparent.append (transparent_of_bytes fun c hc => ?_) (Times.transparent htimes)
    obtain ⟨-, -, hclose, hcontrol⟩ := htoken.plain c hc
    exact ⟨fun heq => htoken.inGroup hdepth (heq ▸ hc), hclose, hcontrol⟩
  | group hmax hbody htokens htimes ih =>
    have hgroup := (ih (Nat.succ_ne_zero _)).group.append (Times.transparent htimes)
    simpa only [List.cons_append, List.append_assoc, List.nil_append] using hgroup
  | single hitem ih => exact ih hdepth
  | comma hitem hitems ih ihs =>
    exact (ih hdepth).append
      ((transparent_byte (by decide) (by decide) (by decide)).append (ihs hdepth))

/-- The token branch, once the pieces are known. -/
theorem expandItems_tokenItem {depth pos count posAfter posNext : Nat} {c : UInt8}
    {tail token after after' rest : List UInt8} (hopen : c ≠ openParen) (hclose : c ≠ closeParen)
    (hscan : scanToken state pos (c :: tail) = .ok (token, after))
    (hcount : itemCount state pos token.isEmpty (pos + token.length) after =
      .ok (count, posAfter, after'))
    (hcomma : ∀ st, skipComma st posAfter after' = .ok (posNext, rest)) :
    state.expandItems depth pos (c :: tail) =
      (state.repeatToken pos token count).bind fun st => st.expandItems depth posNext rest := by
  rw [expandItems, if_neg (by simpa using hopen), if_neg (by simpa using hclose)]
  split
  · rename_i e he
    cases hscan.symm.trans he
  rename_i token' after1 hscan'
  cases hscan.symm.trans hscan'
  split
  · rename_i e he
    cases hcount.symm.trans he
  rename_i count' pos1 after2 hcount'
  cases hcount.symm.trans hcount'
  cases state.repeatToken pos token count with
  | error e => rfl
  | ok st =>
    dsimp only [Except.bind]
    split
    · rename_i e he
      cases (hcomma st).symm.trans he
    · rename_i pos2 rest' hcomma'
      cases (hcomma st).symm.trans hcomma'
      rfl

/-- The group branch, once the pieces are known. -/
theorem expandItems_groupItem {depth pos count posAfter posNext : Nat}
    {tail body after after' rest : List UInt8} (hdepth : depth + 1 ≤ SEQUENCE_REPEAT_MAX_DEPTH)
    (hclose : closeGroup state pos 1 (pos + 1) tail = .ok (body, after))
    (hcount : itemCount state pos false (pos + body.length + 2) after =
      .ok (count, posAfter, after'))
    (hcomma : ∀ st, skipComma st posAfter after' = .ok (posNext, rest)) :
    state.expandItems depth pos (openParen :: tail) =
      (repeatGroup (fun st => st.expandItems (depth + 1) (pos + 1) body) state pos count).bind
        fun st => st.expandItems depth posNext rest := by
  rw [expandItems, if_pos (by decide), if_neg (Nat.not_lt.2 hdepth)]
  split
  · rename_i e he
    cases hclose.symm.trans he
  rename_i body' after1 hclose'
  cases hclose.symm.trans hclose'
  split
  · rename_i e he
    cases hcount.symm.trans he
  rename_i count' pos1 after2 hcount'
  cases hcount.symm.trans hcount'
  cases repeatGroup (fun st => st.expandItems (depth + 1) (pos + 1) body) state pos count with
  | error e => rfl
  | ok st =>
    dsimp only [Except.bind]
    split
    · rename_i e he
      cases (hcomma st).symm.trans he
    · rename_i pos2 rest' hcomma'
      cases (hcomma st).symm.trans hcomma'
      rfl

/-- A token, possibly empty, and its repeat at the start of the range. -/
theorem toOption_expandItems_token (state : ExpandState) {token times rest : List UInt8} {n : Nat}
    (hplain : ∀ c ∈ token, PlainByte c) (hhead : token.head? ≠ some openParen)
    (htimes : Times times n) (hempty : token = [] → times = []) (hrest : Ends rest)
    (depth pos : Nat) :
    ∃ pos', (state.expandItems depth pos (token ++ (times ++ rest))).toOption =
      (state.emits (tokenItem token n)).bind fun st =>
        (st.expandItems depth pos' rest.tail).toOption := by
  obtain ⟨posAfter, hcount⟩ := itemCount_append state htimes hrest pos
    (pos + token.length) token.isEmpty (fun h => hempty (by simpa using h))
  obtain ⟨posNext, hcomma⟩ := skipComma_of_ends hrest posAfter
  have hscan := scanToken_append state hplain (htimes.stops hrest) pos
  refine ⟨posNext, ?_⟩
  rw [← toOption_repeatToken pos]
  cases htext : token ++ (times ++ rest) with
  | nil =>
    obtain ⟨htoken, hnil⟩ := List.append_eq_nil_iff.1 htext
    obtain ⟨-, hrest'⟩ := List.append_eq_nil_iff.1 hnil
    simp [htoken, hrest', expandItems, repeatToken, Except.toOption]
  | cons c tail =>
    have hfirst : c ≠ openParen ∧ c ≠ closeParen := by
      cases token with
      | nil =>
        rw [hempty rfl] at htext
        rcases hrest with rfl | ⟨more, rfl⟩
        · cases htext
        · obtain ⟨rfl, -⟩ := List.cons.inj htext
          decide
      | cons b token =>
        obtain ⟨rfl, -⟩ := List.cons.inj htext
        exact ⟨fun heq => hhead (by simp [heq]), (hplain b List.mem_cons_self).2.2.1⟩
    rw [htext] at hscan
    rw [expandItems_tokenItem hfirst.1 hfirst.2 hscan hcount hcomma]
    exact toOption_bind _ _

theorem toOption_expandItems_group (state : ExpandState) {body times rest : List UInt8}
    {n depth : Nat} {tokens : List (List UInt8)} (hdepth : depth + 1 ≤ SEQUENCE_REPEAT_MAX_DEPTH)
    (htransparent : Transparent body) (htokens : tokens ≠ []) (htimes : Times times n)
    (hrest : Ends rest) (pos : Nat)
    (hbody : ∀ st : ExpandState,
      (st.expandItems (depth + 1) (pos + 1) body).toOption = st.emits tokens) :
    ∃ pos', (state.expandItems depth pos
        (openParen :: (body ++ closeParen :: (times ++ rest)))).toOption =
      (state.emits (List.replicate n tokens).flatten).bind fun st =>
        (st.expandItems depth pos' rest.tail).toOption := by
  obtain ⟨posAfter, hcount⟩ := itemCount_append state htimes hrest pos
    (pos + body.length + 2) false (fun h => absurd h Bool.false_ne_true)
  obtain ⟨posNext, hcomma⟩ := skipComma_of_ends hrest posAfter
  have hclose := htransparent.closeGroup_eq state pos (pos + 1) (times ++ rest)
  refine ⟨posNext, ?_⟩
  rw [expandItems_groupItem hdepth hclose hcount hcomma, ← toOption_repeatGroup htokens hbody pos]
  exact toOption_bind _ _

/-- What the expander does on a text derived from each symbol: an item is followed by the rest of
    its range. -/
def Simulates : Symbol → Nat → List UInt8 → List (List UInt8) → Prop
  | .item, depth, text, tokens => ∀ (state : ExpandState) (pos : Nat) (rest : List UInt8),
      Ends rest → ∃ pos', (state.expandItems depth pos (text ++ rest)).toOption =
        (state.emits tokens).bind fun st => (st.expandItems depth pos' rest.tail).toOption
  | .items, depth, text, tokens => ∀ (state : ExpandState) (pos : Nat),
      (state.expandItems depth pos text).toOption = state.emits tokens

theorem simulates_of_derives {symbol : Symbol} {depth : Nat} {text : List UInt8}
    {tokens : List (List UInt8)} (h : Derives IsToken symbol depth text tokens) :
    Simulates symbol depth text tokens := by
  induction h with
  | empty =>
    intro state pos rest hrest
    have hplain : ∀ c ∈ ([] : List UInt8), PlainByte c := by simp
    exact toOption_expandItems_token state hplain (by simp) .once (fun _ => rfl) hrest _ pos
  | token htoken htimes =>
    intro state pos rest hrest
    obtain ⟨pos', h⟩ := toOption_expandItems_token state htoken.plain htoken.head htimes
      (fun hnil => absurd hnil htoken.ne_nil) hrest _ pos
    rw [tokenItem, if_neg htoken.ne_nil] at h
    exact ⟨pos', by rwa [List.append_assoc]⟩
  | group hdepth hbody htokens htimes ih =>
    intro state pos rest hrest
    obtain ⟨pos', h⟩ := toOption_expandItems_group state hdepth
      (transparent_of_derives hbody (Nat.succ_ne_zero _)) htokens htimes hrest pos
      (fun st => ih st (pos + 1))
    refine ⟨pos', ?_⟩
    simpa only [List.cons_append, List.append_assoc] using h
  | single hitem ih =>
    intro state pos
    obtain ⟨pos', h⟩ := ih state pos [] (Or.inl rfl)
    rw [List.append_nil] at h
    rw [h]
    simp [expandItems, Except.toOption]
  | comma hitem hitems ih ihs =>
    intro state pos
    obtain ⟨pos', h⟩ := ih state pos (comma :: _) (Or.inr ⟨_, rfl⟩)
    rw [h, emits_append]
    exact congrArg _ (funext fun st => ihs st pos')

/-- On a derivable text the expander emits the derived tokens. -/
theorem toOption_expandItems_of_derives (state : ExpandState) {depth : Nat} {text : List UInt8}
    {tokens : List (List UInt8)} (h : Derives IsToken .items depth text tokens) (pos : Nat) :
    (state.expandItems depth pos text).toOption = state.emits tokens :=
  simulates_of_derives h state pos

/-! ## What the expander walks has a derivation -/

/-- The body that the group search finds: its parentheses match. -/
theorem closeGroup_ok {itemStart nesting cursor : Nat} {s body rest : List UInt8}
    (hn : 1 ≤ nesting) (h : closeGroup state itemStart nesting cursor s = .ok (body, rest)) :
    s = body ++ closeParen :: rest ∧
      body.count openParen + nesting = body.count closeParen + 1 := by
  induction s generalizing nesting cursor body with
  | nil => cases h
  | cons value s ih =>
    simp only [closeGroup] at h
    split at h
    · cases h
    · split at h
      · rename_i hmore
        cases hclose : closeGroup state itemStart (nestingAfter nesting value) (cursor + 1) s with
        | error e => rw [hclose] at h; cases h
        | ok found =>
          obtain ⟨body', rest'⟩ := found
          rw [hclose] at h
          obtain ⟨rfl, rfl⟩ : value :: body' = body ∧ rest' = rest := Prod.mk.inj (Except.ok.inj h)
          have hpos : 1 ≤ nestingAfter nesting value :=
            Nat.one_le_iff_ne_zero.2 (by simpa using hmore)
          obtain ⟨rfl, hcount⟩ := ih hpos hclose
          refine ⟨rfl, ?_⟩
          rw [List.count_cons, List.count_cons]
          by_cases hopen : value = openParen
          · have hne : (openParen == closeParen) = false := by decide
            simp only [nestingAfter, hopen, beq_self_eq_true, if_true, hne] at hcount ⊢
            simp only [Bool.false_eq_true, if_false]
            omega
          · by_cases hcl : value = closeParen
            · have hne : (closeParen == openParen) = false := by decide
              simp only [nestingAfter, hcl, beq_self_eq_true, if_true, hne, Bool.false_eq_true,
                if_false] at hcount ⊢
              omega
            · have hne : (value == openParen) = false := by simpa using hopen
              have hne' : (value == closeParen) = false := by simpa using hcl
              simp only [nestingAfter, hne, hne', Bool.false_eq_true, if_false] at hcount ⊢
              omega
      · rename_i hdone
        obtain ⟨rfl, rfl⟩ : [] = body ∧ s = rest := Prod.mk.inj (Except.ok.inj h)
        have hzero : nestingAfter nesting value = 0 := by simpa using hdone
        simp only [nestingAfter] at hzero
        split at hzero
        · omega
        · split at hzero
          · rename_i hcl
            obtain rfl : value = closeParen := by simpa using hcl
            refine ⟨rfl, ?_⟩
            simp only [List.count_nil]
            omega
          · omega

/-- A comma and a repeat hold no parenthesis. -/
theorem count_after_item {times rest : List UInt8} {n : Nat} (h : Times times n) (hrest : Ends rest)
    {c : UInt8} (hc : c = openParen ∨ c = closeParen) :
    (times ++ rest).count c = rest.tail.count c := by
  have htimes : times.count c = 0 := by
    refine List.count_eq_zero.2 (h.not_mem ?_ ?_) <;> rcases hc with rfl | rfl <;> decide
  rw [List.count_append, htimes, Nat.zero_add]
  rcases hrest with rfl | ⟨more, rfl⟩
  · rfl
  · have hcomma : (comma == c) = false := by rcases hc with rfl | rfl <;> decide
    rw [List.count_cons, hcomma]
    simp

/-- What the expander walks to its end is derivable. Inside a group this rests on the parentheses
    of the body matching: each group takes as many of either kind, so none is left for a token. -/
theorem derives_of_expandItems {state st' : ExpandState} {depth pos : Nat} {s : List UInt8}
    (h : state.expandItems depth pos s = .ok st') :
    s.count closeParen ≤ s.count openParen ∧
      ((depth ≠ 0 → s.count openParen = s.count closeParen) →
        ∃ tokens, Derives IsToken .items depth s tokens) := by
  revert h
  fun_induction expandItems state depth pos s generalizing st' with
  | case1 state depth pos => exact fun _ => ⟨Nat.le_refl _, fun _ => ⟨[], .single .empty⟩⟩
  | case2 | case3 | case4 | case5 | case6 | case8 | case9 | case10 | case11 | case12 =>
    intro h
    cases h
  | case7 state depth pos c tail hopen hdepth body after hclose count posAfter after' hcount
      state' hgroup posNext rest hcomma ihbody ihrest =>
    intro h
    obtain rfl : c = openParen := by simpa using hopen
    obtain ⟨rfl, hbalanced⟩ := closeGroup_ok (Nat.le_refl 1) hclose
    obtain ⟨times, htimes, rfl, -⟩ := itemCount_ok hcount
    obtain ⟨hends, rfl⟩ := skipComma_ok hcomma
    obtain ⟨st1, hst1, hemitted⟩ := repeatGroup_ok htimes.one_le hgroup
    obtain ⟨-, hbody⟩ := ihbody state hst1
    obtain ⟨bodyTokens, hbodyTokens⟩ := hbody fun _ => by omega
    obtain ⟨hle, hmore⟩ := ihrest h
    have hne : bodyTokens ≠ [] := by
      rintro rfl
      have hsame := toOption_expandItems_of_derives state hbodyTokens (pos + 1)
      rw [hst1] at hsame
      exact hemitted (congrArg ExpandState.tokens (Option.some.inj hsame))
    have hcounts : ∀ c, c = openParen ∨ c = closeParen →
        (openParen :: (body ++ closeParen :: (times ++ after'))).count c =
          body.count c + 1 + after'.tail.count c := by
      intro c hc
      have hafter := count_after_item htimes hends hc
      rw [List.count_cons, List.count_append, List.count_cons, hafter]
      rcases hc with rfl | rfl
      · have hne : (closeParen == openParen) = false := by decide
        simp only [hne, beq_self_eq_true, if_true, Bool.false_eq_true, if_false]
        omega
      · have hne : (openParen == closeParen) = false := by decide
        simp only [hne, beq_self_eq_true, if_true, Bool.false_eq_true, if_false]
        omega
    rw [hcounts _ (Or.inl rfl), hcounts _ (Or.inr rfl)]
    refine ⟨by omega, fun hall => ?_⟩
    obtain ⟨more, hmore⟩ := hmore fun hd => by
      have := hall hd
      omega
    have hitem := Derives.group (Nat.not_lt.1 hdepth) hbodyTokens hne htimes
    obtain ⟨tokens, htokens⟩ := hitem.followed hends hmore
    exact ⟨tokens, by simpa only [List.cons_append, List.append_assoc] using htokens⟩
  | case13 state depth pos c tail hopen hclose token after hscan count posAfter after' hcount
      state' htoken posNext rest hcomma ihrest =>
    intro h
    obtain ⟨htext, hplain, hstops⟩ := scanToken_ok hscan
    obtain ⟨times, htimes, rfl, hempty⟩ := itemCount_ok hcount
    obtain ⟨hends, rfl⟩ := skipComma_ok hcomma
    obtain ⟨hle, hmore⟩ := ihrest h
    have hclosed : token.count closeParen = 0 :=
      List.count_eq_zero.2 fun hmem => (hplain _ hmem).2.2.1 rfl
    have hcounts : ∀ c, c = openParen ∨ c = closeParen →
        (token ++ (times ++ after')).count c = token.count c + after'.tail.count c := by
      intro c hc
      rw [List.count_append, count_after_item htimes hends hc]
    rw [htext, hcounts _ (Or.inl rfl), hcounts _ (Or.inr rfl)]
    refine ⟨by omega, fun hall => ?_⟩
    obtain ⟨more, hmore⟩ := hmore fun hd => by
      have := hall hd
      omega
    by_cases hnil : token = []
    · obtain rfl := hnil
      obtain rfl := hempty rfl
      exact Derives.empty.followed hends hmore
    · have hhead : token.head? ≠ some openParen := by
        obtain ⟨b, token, rfl⟩ := List.exists_cons_of_ne_nil hnil
        obtain ⟨rfl, -⟩ := List.cons.inj htext
        simpa using hopen
      have htoken : IsToken depth token :=
        { ne_nil := hnil, plain := hplain, head := hhead
          inGroup := fun hd => List.count_eq_zero.1 (by have := hall hd; omega) }
      obtain ⟨tokens, htokens⟩ := (Derives.token htoken htimes).followed hends hmore
      exact ⟨tokens, by rwa [List.append_assoc] at htokens⟩

/-! ## What any run leaves behind -/

/-- The output buffer is in order, and an error is reported as one. -/
def Outcome (outSize : Nat) (beyond : List UInt8) : Except ExpandState ExpandState → Prop
  | .ok st => ∃ tokens, Holds outSize beyond tokens st
  | .error e => e.result ≠ .ok ∧ ∃ tokens, Holds outSize beyond tokens e

section Outcome

variable {outSize : Nat} {beyond : List UInt8} {tokens : List (List UInt8)} {e : ExpandState}

theorem Holds.outcome_error (h : Holds outSize beyond tokens state) (he : Failed state e) :
    Outcome outSize beyond (.error e) := by
  have hholds := h.failed he
  obtain ⟨result, errorIndex, hresult, rfl⟩ := he
  exact ⟨hresult, tokens, hholds⟩

theorem Holds.outcome_emitToken (h : Holds outSize beyond tokens state) (tokenBegin : Nat)
    (token : List UInt8) : Outcome outSize beyond (state.emitToken tokenBegin token) := by
  by_cases hfits : Fits outSize (tokens ++ [token])
  · obtain ⟨st', hst', hholds⟩ := h.emitToken_ok hfits tokenBegin
    rw [hst']
    exact ⟨_, hholds⟩
  · obtain ⟨e, he, hfail⟩ := h.emitToken_error hfits tokenBegin
    rw [he]
    exact h.outcome_error hfail

theorem Outcome.bind {r : Except ExpandState ExpandState}
    {f : ExpandState → Except ExpandState ExpandState} (hr : Outcome outSize beyond r)
    (hf : ∀ st tokens, Holds outSize beyond tokens st → Outcome outSize beyond (f st)) :
    Outcome outSize beyond (r >>= f) := by
  cases r with
  | error e => exact hr
  | ok st =>
    obtain ⟨tokens, hholds⟩ := hr
    exact hf st tokens hholds

theorem Holds.outcome_foldlM {f : ExpandState → Nat → Except ExpandState ExpandState}
    (hf : ∀ st tokens i, Holds outSize beyond tokens st → Outcome outSize beyond (f st i))
    (rounds : List Nat) (h : Holds outSize beyond tokens state) :
    Outcome outSize beyond (rounds.foldlM f state) := by
  induction rounds generalizing state tokens with
  | nil => exact ⟨tokens, h⟩
  | cons i rounds ih =>
    rw [List.foldlM_cons]
    exact (hf state tokens i h).bind fun st tokens' hst => ih hst

theorem Holds.outcome_repeatToken (h : Holds outSize beyond tokens state) (tokenBegin : Nat)
    (token : List UInt8) (count : Nat) :
    Outcome outSize beyond (state.repeatToken tokenBegin token count) := by
  unfold repeatToken
  split
  · exact ⟨tokens, h⟩
  · exact h.outcome_foldlM (fun st tokens' _ hst => hst.outcome_emitToken tokenBegin token) _

theorem Holds.outcome_repeatGroup {expandBody : ExpandState → Except ExpandState ExpandState}
    (hbody : ∀ st tokens, Holds outSize beyond tokens st → Outcome outSize beyond (expandBody st))
    (h : Holds outSize beyond tokens state) (itemStart count : Nat) :
    Outcome outSize beyond (repeatGroup expandBody state itemStart count) := by
  refine h.outcome_foldlM (fun st tokens' i hst => ?_) _
  refine (hbody st tokens' hst).bind fun st' tokens'' hst' => ?_
  split
  · exact hst'.outcome_error ⟨_, _, by decide, rfl⟩
  · exact ⟨tokens'', hst'⟩

theorem Holds.outcome_expandItems (h : Holds outSize beyond tokens state) (depth pos : Nat)
    (s : List UInt8) : Outcome outSize beyond (state.expandItems depth pos s) := by
  fun_induction expandItems state depth pos s generalizing tokens with
  | case1 => exact ⟨tokens, h⟩
  | case2 | case8 => exact h.outcome_error ⟨_, _, by decide, rfl⟩
  | case3 _ _ _ _ _ _ _ e he => exact h.outcome_error (closeGroup_error he)
  | case4 _ _ _ _ _ _ _ _ _ _ e he => exact h.outcome_error (itemCount_error he)
  | case5 _ _ pos _ _ _ _ _ _ _ count _ _ _ e he ihbody =>
    have hloop := h.outcome_repeatGroup (fun st _ hst => ihbody st hst) pos count
    rwa [he] at hloop
  | case6 _ _ pos _ _ _ _ _ _ _ count _ _ _ st' hst' e he ihbody =>
    have hloop := h.outcome_repeatGroup (fun st _ hst => ihbody st hst) pos count
    rw [hst'] at hloop
    obtain ⟨_, hholds⟩ := hloop
    exact hholds.outcome_error (skipComma_error he)
  | case7 _ _ pos _ _ _ _ _ _ _ count _ _ _ st' hst' _ _ _ ihbody ihrest =>
    have hloop := h.outcome_repeatGroup (fun st _ hst => ihbody st hst) pos count
    rw [hst'] at hloop
    obtain ⟨_, hholds⟩ := hloop
    exact ihrest hholds
  | case9 _ _ _ _ _ _ _ e he => exact h.outcome_error (scanToken_error he)
  | case10 _ _ _ _ _ _ _ _ _ _ e he => exact h.outcome_error (itemCount_error he)
  | case11 _ _ pos _ _ _ _ token _ _ count _ _ _ e he =>
    have hloop := h.outcome_repeatToken pos token count
    rwa [he] at hloop
  | case12 _ _ pos _ _ _ _ token _ _ count _ _ _ st' hst' e he =>
    have hloop := h.outcome_repeatToken pos token count
    rw [hst'] at hloop
    obtain ⟨_, hholds⟩ := hloop
    exact hholds.outcome_error (skipComma_error he)
  | case13 _ _ pos _ _ _ _ token _ _ count _ _ _ st' hst' _ _ _ ihrest =>
    have hloop := h.outcome_repeatToken pos token count
    rw [hst'] at hloop
    obtain ⟨_, hholds⟩ := hloop
    exact ihrest hholds

end Outcome

end ExpandState

/-! ## The whole call -/

/-- The text is derivable, and an expansion of it keeps to the limits. -/
def Accepted (Token : Nat → List UInt8 → Prop) (outSize : Nat) (text : List UInt8) : Prop :=
  ∃ tokens, Derives Token .items 0 text tokens ∧ Fits outSize tokens

/-- What `sequenceExpand` does with a sequence and an output buffer that `beyond` follows in
    memory. -/
structure ExpandsSequence (sequence : CString) (buffer beyond : List UInt8)
    (r : SequenceExpansion) : Prop where
  ok_iff : r.result = .ok ↔ Accepted IsToken buffer.length sequence.bytes
  noControl : r.result = .ok → ∀ c ∈ sequence.bytes, isControlByte c = false
  /-- The output is the derived tokens, joined; walking it gives them back. -/
  output : r.result = .ok → ∀ tokens, Derives IsToken .items 0 sequence.bytes tokens →
    (CString.at r.out).bytes = joinTokens tokens ∧ r.info.tokenCount = tokens.length ∧
      sequenceTokens (some (CString.at r.out).bytes) = tokens
  /-- Expanding the output gives it back, in any buffer that is no smaller. -/
  idempotent : r.result = .ok → ∀ (buffer' beyond' : List UInt8) (clickCostMs' : UInt64),
    buffer.length ≤ buffer'.length →
      (sequenceExpand (some (CString.at r.out)) (some (buffer' ++ beyond')) buffer'.length
        clickCostMs').result = .ok ∧
      (CString.at (sequenceExpand (some (CString.at r.out)) (some (buffer' ++ beyond'))
        buffer'.length clickCostMs').out).bytes = (CString.at r.out).bytes
  cleared : r.result ≠ .ok → buffer ≠ [] → r.out.head? = some 0
  inBuffer : ∃ buffer', r.out = buffer' ++ beyond ∧ buffer'.length = buffer.length

theorem IsToken.walkable {depth : Nat} {token : List UInt8} (h : IsToken depth token) :
    Walkable token :=
  ⟨h.ne_nil, fun hmem => (h.plain _ hmem).1 rfl⟩

theorem Derives.walkable {symbol : Symbol} {depth : Nat} {text : List UInt8}
    {tokens : List (List UInt8)} (h : Derives IsToken symbol depth text tokens) :
    ∀ token ∈ tokens, Walkable token := by
  intro token hmem
  obtain ⟨depth', htoken⟩ := h.isToken token hmem
  exact htoken.walkable

/-- The tokens of an expansion, joined, are a C string. -/
theorem nul_not_mem_joinTokens {tokens : List (List UInt8)}
    (h : ∀ token ∈ tokens, ∃ depth, IsToken depth token) : 0 ∉ joinTokens tokens := by
  intro hmem
  have hcontrol := (derives_joinTokens h).noControl 0 hmem
  revert hcontrol
  decide

/-- The state `sequenceExpand` starts from, and the buffer it hands over. -/
theorem holds_initial (b : UInt8) (buffer beyond : List UInt8) (clickCostMs : UInt64) :
    ExpandState.Holds (buffer.length + 1) beyond []
      (.start (copyTo (b :: buffer ++ beyond) 0 [0]) (buffer.length + 1) clickCostMs) where
  size := rfl
  count := rfl
  length := rfl
  fits := ⟨Nat.zero_le _, Nat.succ_le_succ (Nat.zero_le _)⟩
  layout := ⟨buffer, by simp [ExpandState.start, copyTo], by simp [Nat.add_comm]⟩

/-- The text of a buffer, read back as a C string. -/
theorem ExpandState.Holds.text {outSize : Nat} {beyond : List UInt8} {tokens : List (List UInt8)}
    {state : ExpandState} (h : ExpandState.Holds outSize beyond tokens state)
    (htokens : ∀ token ∈ tokens, ∃ depth, IsToken depth token) :
    (CString.at state.out).bytes = joinTokens tokens := by
  obtain ⟨free, hout, -⟩ := h.layout
  rw [hout]
  exact CString.at_append_nul (nul_not_mem_joinTokens htokens) _

/-- A call that succeeds and one that fails, told apart by the grammar. -/
theorem sequenceExpand_cases (sequence : CString) (b : UInt8) (buffer beyond : List UInt8)
    (clickCostMs : UInt64) :
    (∃ tokens st, Derives IsToken .items 0 sequence.bytes tokens ∧
      ExpandState.Holds (buffer.length + 1) beyond tokens st ∧
      (∀ tokens', Derives IsToken .items 0 sequence.bytes tokens' → tokens' = tokens) ∧
      sequenceExpand (some sequence) (some (b :: buffer ++ beyond)) (buffer.length + 1)
          clickCostMs =
        { result := .ok
          info := { errorIndex := 0, tokenCount := st.tokens, estimatedMs := st.estimatedMs }
          out := st.out }) ∨
    (¬ Accepted IsToken (buffer.length + 1) sequence.bytes ∧ ∃ tokens e,
      ExpandState.Holds (buffer.length + 1) beyond tokens e ∧ e.result ≠ .ok ∧
      sequenceExpand (some sequence) (some (b :: buffer ++ beyond)) (buffer.length + 1)
          clickCostMs =
        { result := e.result
          info := { errorIndex := e.errorIndex, tokenCount := e.tokens, estimatedMs := 0 }
          out := copyTo e.out 0 [0] }) := by
  have hinit := holds_initial b buffer beyond clickCostMs
  have houtcome := hinit.outcome_expandItems 0 0 sequence.bytes
  have hsize : (buffer.length + 1 == 0) = false := rfl
  simp only [sequenceExpand, hsize, Bool.false_eq_true, if_false]
  generalize ExpandState.start _ _ _ = state at hinit houtcome ⊢
  cases hrun : state.expandItems 0 0 sequence.bytes with
  | ok st =>
    have hholds : ∀ tokens, Derives IsToken .items 0 sequence.bytes tokens →
        ExpandState.Holds (buffer.length + 1) beyond tokens st := by
      intro tokens htokens
      have hemits := ExpandState.toOption_expandItems_of_derives state htokens 0
      rw [hrun] at hemits
      simpa using hinit.of_emits hemits.symm
    obtain ⟨tokens, htokens⟩ := (ExpandState.derives_of_expandItems hrun).2 fun h => absurd rfl h
    refine Or.inl ⟨tokens, st, htokens, hholds tokens htokens, fun tokens' htokens' => ?_, ?_⟩
    · have htext := (hholds tokens htokens).text htokens.isToken
      rw [(hholds tokens' htokens').text htokens'.isToken] at htext
      rw [← sequenceTokens_joinTokens htokens'.walkable, htext,
        sequenceTokens_joinTokens htokens.walkable]
    · rfl
  | error e =>
    rw [hrun] at houtcome
    obtain ⟨hresult, tokens, hholds⟩ := houtcome
    refine Or.inr ⟨?_, tokens, e, hholds, hresult, ?_⟩
    · rintro ⟨tokens', htokens', hfits⟩
      obtain ⟨st, hst, -⟩ := hinit.emits_of_fits hfits
      have hemits := ExpandState.toOption_expandItems_of_derives state htokens' 0
      rw [hrun, hst] at hemits
      cases hemits
    · rfl

/-- `sequenceExpand` accepts exactly the texts of the grammar whose expansion fits, writes that
    expansion, and stays inside the buffer. -/
theorem sequenceExpand_expands (sequence : CString) (buffer beyond : List UInt8)
    (clickCostMs : UInt64) :
    ExpandsSequence sequence buffer beyond
      (sequenceExpand (some sequence) (some (buffer ++ beyond)) buffer.length clickCostMs) := by
  cases buffer with
  | nil =>
    have htooLong : sequenceExpand (some sequence) (some ([] ++ beyond)) 0 clickCostMs =
        { result := .tooLong, info := ⟨0, 0, 0⟩, out := beyond } := rfl
    rw [List.length_nil, htooLong]
    have hfail : SequenceExpandResult.tooLong ≠ .ok := by decide
    refine { ok_iff := ⟨fun h => absurd h hfail, fun ⟨tokens, _, _, hlen⟩ => ?_⟩,
             noControl := fun h => absurd h hfail, output := fun h => absurd h hfail,
             idempotent := fun h => absurd h hfail, cleared := fun _ h => absurd rfl h,
             inBuffer := ⟨[], rfl, rfl⟩ }
    exact absurd hlen (Nat.not_succ_le_zero _)
  | cons b buffer =>
    rw [List.length_cons]
    rcases sequenceExpand_cases sequence b buffer beyond clickCostMs with
      ⟨tokens, st, htokens, hholds, hunique, heq⟩ | ⟨hreject, tokens, e, hholds, hresult, heq⟩
    · rw [heq]
      have htext := hholds.text htokens.isToken
      refine { ok_iff := ⟨fun _ => ⟨tokens, htokens, hholds.fits⟩, fun _ => rfl⟩,
               noControl := fun _ => htokens.noControl, output := fun _ tokens' htokens' => ?_,
               idempotent := fun _ buffer' beyond' clickCostMs' hle => ?_,
               cleared := fun h => absurd rfl h, inBuffer := ?_ }
      · obtain rfl := hunique tokens' htokens'
        refine ⟨htext, hholds.count, ?_⟩
        rw [htext, sequenceTokens_joinTokens htokens.walkable]
      · have hself := derives_joinTokens htokens.isToken
        cases buffer' with
        | nil => exact absurd hle (Nat.not_succ_le_zero _)
        | cons b' buffer' =>
          rw [List.length_cons]
          rcases sequenceExpand_cases (CString.at st.out) b' buffer' beyond' clickCostMs' with
            ⟨tokens', st', htokens', hholds', hunique', heq'⟩ | ⟨hreject, -⟩
          · rw [heq']
            refine ⟨rfl, ?_⟩
            rw [htext] at hunique' ⊢
            rw [hholds'.text htokens'.isToken, ← hunique' tokens hself]
          · refine absurd ⟨tokens, ?_, hholds.fits.1, le_trans hholds.fits.2 hle⟩ hreject
            rwa [htext]
      · obtain ⟨free, hout, hfree⟩ := hholds.layout
        refine ⟨joinTokens tokens ++ 0 :: free, by simp [hout], ?_⟩
        simp only [List.length_append, List.length_cons]
        omega
    · rw [heq]
      obtain ⟨free, hout, hfree⟩ := hholds.layout
      have hout' : ∃ first rest, joinTokens tokens ++ 0 :: free = first :: rest := by
        cases joinTokens tokens with
        | nil => exact ⟨0, free, rfl⟩
        | cons first text => exact ⟨first, text ++ 0 :: free, rfl⟩
      obtain ⟨first, rest, hcons⟩ := hout'
      have hclear : copyTo e.out 0 [0] = 0 :: (rest ++ beyond) := by
        rw [hout, ← List.cons_append, ← List.append_assoc, hcons]
        rfl
      refine { ok_iff := ⟨fun h => absurd h hresult, fun h => absurd h hreject⟩,
               noControl := fun h => absurd h hresult, output := fun h => absurd h hresult,
               idempotent := fun h => absurd h hresult,
               cleared := fun _ _ => by simp only [hclear, List.head?_cons],
               inBuffer := ⟨0 :: rest, by simp only [hclear, List.cons_append], ?_⟩ }
      have hlen := congrArg List.length hcons
      simp only [List.length_append, List.length_cons] at hlen ⊢
      omega

/-! ### A parenthesis inside a token -/

/-- A text without commas, stars and a leading parenthesis can only be one token. -/
theorem token_of_derives {Token : Nat → List UInt8 → Prop} {depth : Nat} {text : List UInt8}
    {tokens : List (List UInt8)} (h : Derives Token .items depth text tokens) (hne : text ≠ [])
    (hcomma : comma ∉ text) (hstar : star ∉ text) (hhead : text.head? ≠ some openParen) :
    Token depth text := by
  cases h with
  | comma hitem hitems => exact absurd (List.mem_append_right _ List.mem_cons_self) hcomma
  | single hitem =>
    cases hitem with
    | empty => exact absurd rfl hne
    | token htoken htimes =>
      cases htimes with
      | once => rwa [List.append_nil]
      | counted => exact absurd (List.mem_append_right _ List.mem_cons_self) hstar
    | group => exact absurd rfl hhead

/-- `A(B`. -/
def tokenWithParen : CString :=
  { bytes := ['A'.toUInt8, openParen, 'B'.toUInt8], noNul := by decide }

/-- `(A(B)`. -/
def groupWithParen : CString :=
  { bytes := openParen :: (tokenWithParen.bytes ++ closeParen :: []), noNul := by decide }

/-- No one token language makes the grammar exact: `A(B` is a token of its own, but not inside a
    group. -/
theorem no_token_language_is_exact :
    ¬ ∃ Token : List UInt8 → Prop, ∀ (sequence : CString) (buffer : List UInt8)
      (clickCostMs : UInt64),
      (sequenceExpand (some sequence) (some buffer) buffer.length clickCostMs).result = .ok ↔
        Accepted (fun _ => Token) buffer.length sequence.bytes := by
  rintro ⟨Token, h⟩
  have hok : (sequenceExpand (some tokenWithParen) (some (List.replicate 16 0)) 16 0).result =
      .ok := by
    have hrun : ∀ state : ExpandState,
        state.expandItems 0 0 tokenWithParen.bytes =
          (state.repeatToken 0 tokenWithParen.bytes 1).bind fun st => st.expandItems 0 3 [] :=
      fun state => ExpandState.expandItems_tokenItem (by decide) (by decide) rfl rfl
        (fun _ => rfl)
    simp only [sequenceExpand, hrun, ExpandState.expandItems]
    decide
  have hbad : (sequenceExpand (some groupWithParen) (some (List.replicate 16 0)) 16 0).result ≠
      .ok := by
    have hclose : ∀ state : ExpandState,
        state.closeGroup 0 1 1 (tokenWithParen.bytes ++ [closeParen]) = state.fail .badSyntax 0 :=
      fun state => rfl
    have hrun : ∀ state : ExpandState,
        state.expandItems 0 0 groupWithParen.bytes = state.fail .badSyntax 0 := by
      intro state
      rw [groupWithParen, ExpandState.expandItems, if_pos (by decide), if_neg (by decide)]
      split
      · rename_i e he
        cases (hclose state).symm.trans he
        rfl
      · rename_i body after hfound
        cases (hclose state).symm.trans hfound
    simp only [sequenceExpand, hrun]
    decide
  obtain ⟨tokens, htokens, -⟩ := (h tokenWithParen (List.replicate 16 0) 0).1 hok
  have htoken : Token tokenWithParen.bytes :=
    token_of_derives htokens (by decide) (by decide) (by decide) (by decide)
  have hbody : Derives (fun _ => Token) .items 1 tokenWithParen.bytes [tokenWithParen.bytes] := by
    simpa using (Derives.token htoken .once).single
  have hgroup : Derives (fun _ => Token) .items 0 groupWithParen.bytes [tokenWithParen.bytes] := by
    exact (Derives.group (by decide) hbody (by decide) .once).single
  exact hbad ((h groupWithParen (List.replicate 16 0) 0).2 ⟨_, hgroup, by decide, by decide⟩)

end SysAgent
