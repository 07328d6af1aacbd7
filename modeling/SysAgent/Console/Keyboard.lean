import SysAgent.Console.Numbers

set_option autoImplicit false

/-! # Key presses with modifiers (`keyMod` in `main.c`)

The handler reads the arguments with an index of its own that it moves as it reads. An access outside
of the argument vector is `none`. -/

namespace SysAgent

/-- `HiddbgKeyboardAutoPilotState`. -/
structure KeyState where
  keys : Fin 4 → UInt64
  modifiers : UInt64

/-- A state as `calloc` leaves it. -/
def emptyKeyState : KeyState where
  keys _ := 0
  modifiers := 0

/-- The word of a key. -/
def keyWord (key : UInt8) : Fin 4 :=
  ⟨key.toNat / 64, by have h := key.toNat_lt; omega⟩

/-- A key that is pressed; the shift takes the number of the key modulo the size of the word. -/
def pressedKeyState (key : UInt8) (modifiers : UInt64) : KeyState where
  keys := Function.update (fun _ => 0) (keyWord key) (1 <<< key.toUInt64)
  modifiers := modifiers

/-- The number of an argument, as a byte. -/
def keyByte (argument : List UInt8) : UInt8 :=
  (parseStringToInt argument).toUInt8

def outOfRange (key : UInt8) : Bool :=
  key < 4 || key > 231

/-- The loop of `keyMod`, with `left` states to go; the last argument read is `argv[j]`. -/
def keyModStates (BIT : UInt8 → UInt64) (argv : List (List UInt8)) (j : Nat) :
    Nat → Option (List KeyState)
  | 0 => some []
  | left + 1 => do
    let key := keyByte (← argv[j + 1]?)
    if outOfRange key then
      let rest ← keyModStates BIT argv (j + 1) left
      some (emptyKeyState :: rest)
    else
      let modifier := keyByte (← argv[j + 2]?)
      let rest ← keyModStates BIT argv (j + 2) left
      some (pressedKeyState key (BIT modifier) :: rest)

/-- `keyMod`: the states for `makeKeys`, if it is called. -/
def keyMod (BIT : UInt8 → UInt64) (argv : List (List UInt8)) : Option (Option (List KeyState)) :=
  if argv.length < 3 ∨ argv.length % 2 = 0 then some none
  else (keyModStates BIT argv 0 ((argv.length - 1) / 2)).map some

/-! ## Reading the arguments -/

section Reading

variable {BIT : UInt8 → UInt64}

/-- The loop over the numbers of the arguments that are left. -/
def readStates (BIT : UInt8 → UInt64) : List UInt8 → Nat → Option (List KeyState)
  | _, 0 => some []
  | [], _ + 1 => none
  | key :: rest, left + 1 =>
    if outOfRange key then (readStates BIT rest left).map (emptyKeyState :: ·)
    else
      match rest with
      | [] => none
      | modifier :: rest =>
        (readStates BIT rest left).map (pressedKeyState key (BIT modifier) :: ·)

theorem readStates_bad {key : UInt8} (hkey : outOfRange key = true) (rest : List UInt8)
    (left : Nat) :
    readStates BIT (key :: rest) (left + 1) =
      (readStates BIT rest left).map (emptyKeyState :: ·) := by
  conv_lhs => unfold readStates
  rw [if_pos hkey]

theorem readStates_good {key : UInt8} (hkey : outOfRange key = false) (modifier : UInt8)
    (rest : List UInt8) (left : Nat) :
    readStates BIT (key :: modifier :: rest) (left + 1) =
      (readStates BIT rest left).map (pressedKeyState key (BIT modifier) :: ·) := by
  conv_lhs => unfold readStates
  rw [if_neg (by rw [hkey]; exact Bool.false_ne_true)]

theorem readStates_missing {key : UInt8} (hkey : outOfRange key = false) (left : Nat) :
    readStates BIT [key] (left + 1) = none := by
  unfold readStates
  rw [if_neg (by rw [hkey]; exact Bool.false_ne_true)]

theorem keyModStates_eq (argv : List (List UInt8)) (j left : Nat) :
    keyModStates BIT argv j left = readStates BIT ((argv.drop (j + 1)).map keyByte) left := by
  induction left generalizing j with
  | zero =>
    rw [keyModStates]
    cases (argv.drop (j + 1)).map keyByte <;> rfl
  | succ left ih =>
    rw [keyModStates]
    rcases Nat.lt_or_ge (j + 1) argv.length with hfirst | hfirst
    · rw [List.drop_eq_getElem_cons hfirst, List.getElem?_eq_getElem hfirst, List.map_cons]
      cases hkey : outOfRange (keyByte argv[j + 1]) with
      | true =>
        rw [readStates_bad hkey]
        simp only [Option.bind_eq_bind, Option.bind_some, hkey, if_true, ih]
        cases readStates BIT ((argv.drop (j + 1 + 1)).map keyByte) left <;> rfl
      | false =>
        simp only [Option.bind_eq_bind, Option.bind_some, hkey, Bool.false_eq_true, if_false, ih]
        rcases Nat.lt_or_ge (j + 2) argv.length with hsecond | hsecond
        · rw [List.drop_eq_getElem_cons hsecond, List.getElem?_eq_getElem hsecond, List.map_cons,
            readStates_good hkey]
          simp only [Option.bind_some]
          cases readStates BIT ((argv.drop (j + 2 + 1)).map keyByte) left <;> rfl
        · rw [List.drop_eq_nil_of_le hsecond, List.getElem?_eq_none hsecond, List.map_nil,
            readStates_missing hkey]
          rfl
    · rw [List.drop_eq_nil_of_le hfirst, List.getElem?_eq_none hfirst]
      rfl

end Reading

/-! ## The law -/

/-- What the state of a key and a modifier has to be. -/
def Encodes (BIT : UInt8 → UInt64) (key modifier : UInt8) (state : KeyState) : Prop :=
  if 4 ≤ key ∧ key ≤ 231 then
    (∀ word, (state.keys word).toNat =
      if word.val = key.toNat / 64 then 2 ^ (key.toNat % 64) else 0) ∧
    state.modifiers = BIT modifier
  else state = emptyKeyState

/-- The arguments of some pairs. -/
def pairArguments (pairs : List (List UInt8 × List UInt8)) : List (List UInt8) :=
  pairs.flatMap fun pair => [pair.1, pair.2]

/-- Every pair has its state. -/
def KeyModLaw (BIT : UInt8 → UInt64) (name : List UInt8)
    (pairs : List (List UInt8 × List UInt8)) : Prop :=
  ∃ states, keyMod BIT (name :: pairArguments pairs) =
      some (if pairs = [] then none else some states) ∧
    List.Forall₂ (fun pair state => Encodes BIT (keyByte pair.1) (keyByte pair.2) state) pairs
      states

/-- The arguments `read` one after the other make the states of the pairs: an out-of-range key makes
    an empty state and takes one argument, another one takes two. -/
def ReadsSame (BIT : UInt8 → UInt64) : List UInt8 → List (UInt8 × UInt8) → Prop
  | _, [] => True
  | [], _ :: _ => False
  | key :: read, (key', modifier') :: pairs =>
    if outOfRange key then outOfRange key' = true ∧ ReadsSame BIT read pairs
    else
      match read with
      | [] => False
      | modifier :: read => key = key' ∧ BIT modifier = BIT modifier' ∧ ReadsSame BIT read pairs

/-- The numbers of some pairs. -/
def pairBytes (pairs : List (List UInt8 × List UInt8)) : List (UInt8 × UInt8) :=
  pairs.map fun pair => (keyByte pair.1, keyByte pair.2)

/-- The numbers in the order of the arguments. -/
def argumentBytes (pairs : List (UInt8 × UInt8)) : List UInt8 :=
  pairs.flatMap fun pair => [pair.1, pair.2]

section Law

variable {BIT : UInt8 → UInt64} {key key' modifier modifier' : UInt8}

theorem outOfRange_iff : outOfRange key = true ↔ ¬ (4 ≤ key ∧ key ≤ 231) := by
  simp only [outOfRange, Bool.or_eq_true, decide_eq_true_eq, not_and_or, UInt8.not_le, gt_iff_lt]

theorem pressed_word (key : UInt8) (modifiers : UInt64) (word : Fin 4) :
    ((pressedKeyState key modifiers).keys word).toNat =
      if word.val = key.toNat / 64 then 2 ^ (key.toNat % 64) else 0 := by
  have hbit : ((1 : UInt64) <<< key.toUInt64).toNat = 2 ^ (key.toNat % 64) := by
    have hlt : 2 ^ (key.toNat % 64) < 2 ^ 64 :=
      Nat.pow_lt_pow_right (by decide) (Nat.mod_lt _ (by decide))
    rw [UInt64.toNat_shiftLeft, UInt8.toNat_toUInt64, UInt64.toNat_one, Nat.shiftLeft_eq,
      Nat.one_mul, Nat.mod_eq_of_lt hlt]
  have hkeys : (pressedKeyState key modifiers).keys word =
      Function.update (fun _ => (0 : UInt64)) (keyWord key) (1 <<< key.toUInt64) word := rfl
  rw [hkeys]
  by_cases hword : word = keyWord key
  · subst hword
    rw [if_pos (show (keyWord key).val = key.toNat / 64 from rfl), Function.update_self]
    exact hbit
  · have hother : ¬ word.val = key.toNat / 64 := fun h => hword (Fin.ext h)
    rw [if_neg hother, Function.update_of_ne hword]
    rfl

theorem encodes_pressed (hkey : outOfRange key = false) :
    Encodes BIT key' modifier' (pressedKeyState key (BIT modifier)) ↔
      key = key' ∧ BIT modifier = BIT modifier' := by
  have hrange : 4 ≤ key ∧ key ≤ 231 := by
    by_contra h
    rw [outOfRange_iff.2 h] at hkey
    cases hkey
  constructor
  · intro h
    unfold Encodes at h
    split_ifs at h with hrange'
    · refine ⟨?_, h.2⟩
      have hword := h.1 (keyWord key)
      rw [pressed_word, if_pos (show (keyWord key).val = key.toNat / 64 from rfl)] at hword
      have hpos := Nat.two_pow_pos (key.toNat % 64)
      split_ifs at hword with hsame
      · have hmod := Nat.pow_right_injective (Nat.le_refl 2) hword
        have hdiv : key.toNat / 64 = key'.toNat / 64 := hsame
        apply UInt8.toNat_inj.1
        omega
      · omega
    · -- the empty state has no key pressed
      have hword := congrArg (fun state => (state.keys (keyWord key)).toNat) h
      simp only [pressed_word] at hword
      have hpos := Nat.two_pow_pos (key.toNat % 64)
      have hzero : (emptyKeyState.keys (keyWord key)).toNat = 0 := rfl
      rw [if_pos (show (keyWord key).val = key.toNat / 64 from rfl), hzero] at hword
      omega
  · rintro ⟨rfl, hmodifier⟩
    rw [Encodes, if_pos hrange]
    exact ⟨pressed_word key _, hmodifier⟩

theorem encodes_empty : Encodes BIT key modifier emptyKeyState ↔ outOfRange key = true := by
  rw [outOfRange_iff]
  unfold Encodes
  split_ifs with hrange
  · refine iff_of_false (fun h => ?_) fun h => h hrange
    have hword := h.1 (keyWord key)
    have hpos := Nat.two_pow_pos (key.toNat % 64)
    rw [if_pos (show (keyWord key).val = key.toNat / 64 from rfl)] at hword
    have hzero : (emptyKeyState.keys (keyWord key)).toNat = 0 := rfl
    omega
  · exact iff_of_true rfl hrange

theorem readsSame_bad (hkey : outOfRange key = true) (read : List UInt8)
    (pairs : List (UInt8 × UInt8)) :
    ReadsSame BIT (key :: read) ((key', modifier') :: pairs) ↔
      outOfRange key' = true ∧ ReadsSame BIT read pairs := by
  conv_lhs => unfold ReadsSame
  rw [if_pos hkey]

theorem readsSame_good (hkey : outOfRange key = false) (read : List UInt8)
    (pairs : List (UInt8 × UInt8)) :
    ReadsSame BIT (key :: modifier :: read) ((key', modifier') :: pairs) ↔
      key = key' ∧ BIT modifier = BIT modifier' ∧ ReadsSame BIT read pairs := by
  conv_lhs => unfold ReadsSame
  rw [if_neg (by rw [hkey]; exact Bool.false_ne_true)]

theorem readsSame_missing (hkey : outOfRange key = false) (pairs : List (UInt8 × UInt8)) :
    ¬ ReadsSame BIT [key] ((key', modifier') :: pairs) := by
  unfold ReadsSame
  rw [if_neg (by rw [hkey]; exact Bool.false_ne_true)]
  exact id

/-- The states that are read against the states of the pairs. -/
theorem readStates_iff (pairs : List (UInt8 × UInt8)) (read : List UInt8) :
    (∃ states, readStates BIT read pairs.length = some states ∧
      List.Forall₂ (fun pair state => Encodes BIT pair.1 pair.2 state) pairs states) ↔
        ReadsSame BIT read pairs := by
  induction pairs generalizing read with
  | nil =>
    refine iff_of_true ⟨[], ?_, .nil⟩ (by cases read <;> trivial)
    cases read <;> rfl
  | cons pair pairs ih =>
    obtain ⟨key', modifier'⟩ := pair
    cases read with
    | nil => simp [readStates, ReadsSame]
    | cons key read =>
      cases hkey : outOfRange key with
      | true =>
        rw [readsSame_bad hkey, ← ih read, List.length_cons, readStates_bad hkey]
        simp only [Option.map_eq_some_iff]
        constructor
        · rintro ⟨_, ⟨states, hstates, rfl⟩, hall⟩
          obtain ⟨hhead, htail⟩ := List.forall₂_cons.1 hall
          exact ⟨encodes_empty.1 hhead, states, hstates, htail⟩
        · rintro ⟨hhead, states, hstates, htail⟩
          exact ⟨_, ⟨states, hstates, rfl⟩, .cons (encodes_empty.2 hhead) htail⟩
      | false =>
        cases read with
        | nil =>
          refine iff_of_false ?_ (readsSame_missing hkey pairs)
          rintro ⟨states, hstates, -⟩
          rw [List.length_cons, readStates_missing hkey] at hstates
          cases hstates
        | cons modifier read =>
          rw [readsSame_good hkey, ← ih read, List.length_cons, readStates_good hkey]
          simp only [Option.map_eq_some_iff]
          constructor
          · rintro ⟨_, ⟨states, hstates, rfl⟩, hall⟩
            obtain ⟨hhead, htail⟩ := List.forall₂_cons.1 hall
            obtain ⟨hsame, hmodifier⟩ := (encodes_pressed hkey).1 hhead
            exact ⟨hsame, hmodifier, states, hstates, htail⟩
          · rintro ⟨hsame, hmodifier, states, hstates, htail⟩
            exact ⟨_, ⟨states, hstates, rfl⟩,
              .cons ((encodes_pressed hkey).2 ⟨hsame, hmodifier⟩) htail⟩

/-- Up to the first out-of-range key the arguments are read as they are meant. -/
theorem readsSame_iff (pairs : List (UInt8 × UInt8)) :
    ReadsSame BIT (argumentBytes pairs) pairs ↔
      ∀ before key modifier after, pairs = before ++ (key, modifier) :: after →
        (∀ pair ∈ before, outOfRange pair.1 = false) → outOfRange key = true →
          ReadsSame BIT (modifier :: argumentBytes after) after := by
  induction pairs with
  | nil => exact iff_of_true trivial fun before key modifier after h => by simp at h
  | cons pair pairs ih =>
    obtain ⟨key, modifier⟩ := pair
    have hbytes : argumentBytes ((key, modifier) :: pairs) =
        key :: modifier :: argumentBytes pairs := rfl
    rw [hbytes]
    cases hkey : outOfRange key with
    | true =>
      rw [readsSame_bad hkey]
      constructor
      · rintro ⟨-, hrest⟩ before key' modifier' after hsplit hbefore hkey'
        cases before with
        | nil =>
          obtain ⟨hpair, rfl⟩ := List.cons.inj hsplit
          obtain ⟨-, rfl⟩ := Prod.mk.inj hpair
          exact hrest
        | cons first before =>
          obtain ⟨rfl, -⟩ := List.cons.inj hsplit
          rw [hbefore _ List.mem_cons_self] at hkey
          cases hkey
      · intro h
        exact ⟨hkey, h [] key modifier pairs rfl (by simp) hkey⟩
    | false =>
      rw [readsSame_good hkey, ih]
      simp only [true_and]
      constructor
      · intro h before key' modifier' after hsplit hbefore hkey'
        cases before with
        | nil =>
          obtain ⟨hpair, -⟩ := List.cons.inj hsplit
          obtain ⟨rfl, -⟩ := Prod.mk.inj hpair
          rw [hkey] at hkey'
          cases hkey'
        | cons first before =>
          obtain ⟨-, hsplit⟩ := List.cons.inj hsplit
          exact h before key' modifier' after hsplit
            (fun pair hpair => hbefore pair (List.mem_cons_of_mem _ hpair)) hkey'
      · intro h before key' modifier' after hsplit hbefore hkey'
        refine h ((key, modifier) :: before) key' modifier' after ?_ ?_ hkey'
        · rw [hsplit]
          rfl
        · intro pair hpair
          rcases List.mem_cons.1 hpair with rfl | hpair
          · exact hkey
          · exact hbefore pair hpair

end Law

theorem length_pairArguments (pairs : List (List UInt8 × List UInt8)) :
    (pairArguments pairs).length = 2 * pairs.length := by
  induction pairs with
  | nil => rfl
  | cons pair pairs ih =>
    have hcons : pairArguments (pair :: pairs) = pair.1 :: pair.2 :: pairArguments pairs := rfl
    rw [hcons, List.length_cons, List.length_cons, ih, List.length_cons]
    ring

theorem map_pairArguments (pairs : List (List UInt8 × List UInt8)) :
    (pairArguments pairs).map keyByte = argumentBytes (pairBytes pairs) := by
  simp [pairArguments, argumentBytes, pairBytes, List.map_flatMap, List.flatMap_map]

/-- Every pair has its state exactly when the arguments behind the first out-of-range key, read one
    position early, make the states of their pairs. Nothing follows it if it is the last key. -/
theorem key_mod_encodes_iff (BIT : UInt8 → UInt64) (name : List UInt8)
    (pairs : List (List UInt8 × List UInt8)) :
    KeyModLaw BIT name pairs ↔
      ∀ before key modifier after, pairBytes pairs = before ++ (key, modifier) :: after →
        (∀ pair ∈ before, outOfRange pair.1 = false) → outOfRange key = true →
          ReadsSame BIT (modifier :: argumentBytes after) after := by
  have hlength : (name :: pairArguments pairs).length = 2 * pairs.length + 1 := by
    rw [List.length_cons, length_pairArguments]
  have hread : keyModStates BIT (name :: pairArguments pairs) 0 pairs.length =
      readStates BIT (argumentBytes (pairBytes pairs)) (pairBytes pairs).length := by
    rw [keyModStates_eq, ← map_pairArguments, pairBytes, List.length_map]
    rfl
  have hforall (states : List KeyState) :
      List.Forall₂ (fun pair state => Encodes BIT pair.1 pair.2 state) (pairBytes pairs) states ↔
        List.Forall₂ (fun pair state => Encodes BIT (keyByte pair.1) (keyByte pair.2) state) pairs
          states := by
    rw [pairBytes, List.forall₂_map_left_iff]
  rw [← readsSame_iff, ← readStates_iff, ← hread]
  simp only [hforall]
  unfold KeyModLaw keyMod
  rw [hlength]
  cases pairs with
  | nil =>
    refine iff_of_true ⟨[], rfl, .nil⟩ ⟨[], rfl, .nil⟩
  | cons pair pairs =>
    have hcount : ¬ (2 * (pair :: pairs).length + 1 < 3 ∨
        (2 * (pair :: pairs).length + 1) % 2 = 0) := by
      rw [List.length_cons]
      omega
    have hhalf : (2 * (pair :: pairs).length + 1 - 1) / 2 = (pair :: pairs).length := by omega
    rw [if_neg hcount, hhalf]
    simp only [List.cons_ne_nil, if_false, Option.map_eq_some_iff, Option.some.injEq, exists_eq_right]

/-- The pairs (3, 0) and (4, 0): the second one reads its key where the first one has its modifier. -/
theorem bad_key_shifts_next_pair :
    ¬ KeyModLaw (fun n => 1 <<< n.toUInt64) [] [([0x33], [0x30]), ([0x34], [0x30])] := by
  rw [key_mod_encodes_iff]
  intro h
  have hshift := h [] 3 0 [(4, 0)] (by decide) (by simp) (by decide)
  have hbad := ((readsSame_bad (by decide) _ []).1 hshift).1
  exact absurd hbad (by decide)

end SysAgent
