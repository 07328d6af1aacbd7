import SysAgent.Console.Arguments
import SysAgent.Console.Connections

set_option autoImplicit false

/-! # Typed keys (`key` and `keyMulti` in `main.c`, `key` in `commands.c`)

Each command makes a batch of keyboard states, and a thread sends the reports of the batch. A line
is followed to its reports: the batches do not overlap. -/

namespace SysAgent

/-! ## The handlers -/

/-- `1024UL`, numlock. -/
def numlock : UInt64 := 1024

/-- A state of `key`; the byte of an argument outside of the keys leaves it empty. -/
def keyState (argument : List UInt8) : KeyState :=
  let key := keyByte argument
  if outOfRange key then emptyKeyState else pressedKeyState key numlock

/-- `key`: the states for `makeKeys`, if it is called. -/
def keyStates (argv : List (List UInt8)) : Option (List KeyState) :=
  if argv.length < 2 then none else some (argv.tail.map keyState)

/-- `keystate[0].keys[key / 64] |= 1UL << key` -/
def KeyState.press (state : KeyState) (key : UInt8) : KeyState :=
  { state with
    keys := Function.update state.keys (keyWord key)
      (state.keys (keyWord key) ||| 1 <<< key.toUInt64) }

def addKey (state : KeyState) (argument : List UInt8) : KeyState :=
  let key := keyByte argument
  if outOfRange key then state else state.press key

/-- `keyMulti`: one state. -/
def keyMultiStates (argv : List (List UInt8)) : Option (List KeyState) :=
  if argv.length < 2 then none else some [argv.tail.foldl addKey emptyKeyState]

/-! ## The reports -/

/-- `dummyKeyboardState` as `main` sets it up. -/
def dummyKeyboardState : KeyState where
  keys := Function.update (fun _ => 0) 3 0x800000000000000
  modifiers := 0

/-- The comparison of neighbours in `key`. -/
def sameState (left right : KeyState) : Bool :=
  decide (∀ word, left.keys word = right.keys word) && left.modifiers == right.modifiers

/-- `key`: what it gives to `hiddbgSetKeyboardAutoPilotState`. -/
def keyReports : List KeyState → List KeyState
  | [] => []
  | [state] => [state, dummyKeyboardState]
  | state :: next :: states =>
    if sameState state next then state :: dummyKeyboardState :: keyReports (next :: states)
    else state :: keyReports (next :: states)

/-- The states of a line that `dispatchCommand` is called with. -/
def lineStates (line : List UInt8) : Option (List KeyState) :=
  let argv := parseArgs line
  if argv.head? = some (wordBytes "key") then keyStates argv
  else if argv.head? = some (wordBytes "keyMulti") then keyMultiStates argv
  else none

/-- The reports of a line that is sent. -/
def sentReports (sent : List UInt8) : List KeyState :=
  match recvLine [] sent with
  | .line line => ((lineStates line).map keyReports).getD []
  | _ => []

/-! ## Reading the reports -/

def isDown (state : KeyState) (code : Nat) : Bool :=
  if h : code / 64 < 4 then (state.keys ⟨code / 64, h⟩).toNat.testBit (code % 64) else false

def leftShift : Nat := 0xE1

/-- The key of `dummyKeyboardState`. -/
def dummyKey : Nat := 251

/-- Runs of a US keyboard: the first code, and what its keys type without shift and with it. -/
def usKeys : List (Nat × List Char × List Char) :=
  [(0x04,
      ['a', 'b', 'c', 'd', 'e', 'f', 'g', 'h', 'i', 'j', 'k', 'l', 'm', 'n', 'o', 'p', 'q', 'r',
       's', 't', 'u', 'v', 'w', 'x', 'y', 'z'],
      ['A', 'B', 'C', 'D', 'E', 'F', 'G', 'H', 'I', 'J', 'K', 'L', 'M', 'N', 'O', 'P', 'Q', 'R',
       'S', 'T', 'U', 'V', 'W', 'X', 'Y', 'Z']),
    (0x1E,
      ['1', '2', '3', '4', '5', '6', '7', '8', '9', '0'],
      ['!', '@', '#', '$', '%', '^', '&', '*', '(', ')']),
    (0x2C,
      [' ', '-', '=', '[', ']', '\\'],
      [' ', '_', '+', '\x7b', '\x7d', '|']),
    (0x33,
      [';', '\'', '`', ',', '.', '/'],
      [':', '"', '~', '<', '>', '?'])]

/-- What a key types on a US keyboard. -/
def usLayout (shift : Bool) (code : Nat) : Option Char :=
  usKeys.findSome? fun (first, plain, shifted) =>
    if first ≤ code then (if shift then shifted else plain)[code - first]? else none

/-- A key that the previous report did not have down. -/
def newlyDown (previous report : KeyState) (code : Nat) : Bool :=
  code ≠ dummyKey && isDown report code && !isDown previous code

/-- What the keys that a report presses type. -/
def reportText (previous report : KeyState) : List Char :=
  (List.range 256).filterMap fun code =>
    if newlyDown previous report code then usLayout (isDown report leftShift) code else none

/-- The text of some reports, read one after the other. -/
def reportsText : KeyState → List KeyState → List Char
  | _, [] => []
  | previous, report :: reports => reportText previous report ++ reportsText report reports

/-! ## Keys of the states -/

theorem isDown_pressed (key : UInt8) (modifiers : UInt64) {code : Nat} (hcode : code < 256) :
    isDown (pressedKeyState key modifiers) code = decide (code = key.toNat) := by
  have hword : code / 64 < 4 := by omega
  rw [isDown, dif_pos hword, pressed_word]
  split_ifs with hsame
  · rw [Nat.testBit_two_pow]
    have hsame : code / 64 = key.toNat / 64 := hsame
    exact decide_eq_decide.mpr (by omega)
  · have hne : code ≠ key.toNat := by
      rintro rfl
      exact hsame rfl
    simp [hne]

theorem isDown_press (state : KeyState) (key : UInt8) {code : Nat} (hcode : code < 256) :
    isDown (state.press key) code = (isDown state code || decide (code = key.toNat)) := by
  have hword : code / 64 < 4 := by omega
  rw [← isDown_pressed key 0 hcode]
  unfold isDown
  simp only [dif_pos hword]
  have hpress : (state.press key).keys ⟨code / 64, hword⟩ =
      state.keys ⟨code / 64, hword⟩ ||| (pressedKeyState key 0).keys ⟨code / 64, hword⟩ := by
    unfold KeyState.press pressedKeyState
    by_cases hsame : (⟨code / 64, hword⟩ : Fin 4) = keyWord key
    · simp only [hsame, Function.update_self]
    · simp only [Function.update_of_ne hsame, UInt64.or_zero]
  rw [hpress, UInt64.toNat_or, Nat.testBit_or]

theorem isDown_empty (code : Nat) : isDown emptyKeyState code = false := by
  unfold isDown
  split_ifs
  · exact Nat.zero_testBit _
  · rfl

theorem dummyKeyboardState_eq : dummyKeyboardState = pressedKeyState 251 0 := by
  unfold dummyKeyboardState pressedKeyState
  congr 1

/-- Nothing is down, the key of the dummy apart. -/
def Idle (state : KeyState) : Prop := ∀ code < 256, isDown state code = true → code = dummyKey

theorem idle_empty : Idle emptyKeyState := by
  intro code _ hdown
  rw [isDown_empty] at hdown
  exact absurd hdown (by decide)

theorem idle_dummy : Idle dummyKeyboardState := by
  intro code hcode hdown
  rw [dummyKeyboardState_eq, isDown_pressed _ _ hcode] at hdown
  exact of_decide_eq_true hdown

/-! ## Text of a batch -/

theorem filterMap_range_none {α : Type} {f : Nat → Option α} {n : Nat}
    (h : ∀ i < n, f i = none) : (List.range n).filterMap f = [] := by
  rw [List.filterMap_eq_nil_iff]
  exact fun i hi => h i (List.mem_range.mp hi)

theorem filterMap_range_single {α : Type} {f : Nat → Option α} {n i : Nat} {a : α} (hi : i < n)
    (h : f i = some a) (hother : ∀ j < n, j ≠ i → f j = none) :
    (List.range n).filterMap f = [a] := by
  induction n with
  | zero => exact absurd hi (Nat.not_lt_zero i)
  | succ n ih =>
    rw [List.range_succ, List.filterMap_append]
    rcases Nat.lt_succ_iff_lt_or_eq.mp hi with hlt | rfl
    · have hlast : f n = none := hother n (Nat.lt_succ_self n) (Nat.ne_of_gt hlt)
      rw [ih hlt fun j hj hne => hother j (Nat.lt_succ_of_lt hj) hne]
      simp [hlast]
    · rw [filterMap_range_none fun j hj => hother j (Nat.lt_succ_of_lt hj) (Nat.ne_of_lt hj)]
      simp [h]

theorem reportText_single {previous report : KeyState} {code : Nat} {char : Char}
    (hcode : code < 256) (hnew : newlyDown previous report code = true)
    (htypes : usLayout (isDown report leftShift) code = some char)
    (hother : ∀ other < 256, other ≠ code → isDown report other = true →
      usLayout (isDown report leftShift) other = none) :
    reportText previous report = [char] := by
  refine filterMap_range_single hcode (by rw [if_pos hnew, htypes]) ?_
  intro other hlt hne
  split_ifs with hother'
  · unfold newlyDown at hother'
    simp only [Bool.and_eq_true] at hother'
    exact hother other hlt hne hother'.1.2
  · rfl

theorem reportText_dummy (previous : KeyState) : reportText previous dummyKeyboardState = [] := by
  refine filterMap_range_none fun code hcode => if_neg ?_
  intro hnew
  unfold newlyDown at hnew
  simp only [Bool.and_eq_true, decide_eq_true_eq] at hnew
  exact hnew.1.1 (idle_dummy code hcode hnew.1.2)

theorem reportsText_append (previous : KeyState) (reports later : List KeyState) :
    reportsText previous (reports ++ later) =
      reportsText previous reports ++ reportsText (reports.getLastD previous) later := by
  induction reports generalizing previous with
  | nil => rfl
  | cons report reports ih =>
    rw [List.cons_append, reportsText, reportsText, ih, List.append_assoc, List.getLastD_cons]

/-- A batch ends with the dummy. -/
theorem getLastD_keyReports (previous : KeyState) {states : List KeyState} (hne : states ≠ []) :
    (keyReports states).getLastD previous = dummyKeyboardState := by
  induction states generalizing previous with
  | nil => exact absurd rfl hne
  | cons state states ih =>
    cases states with
    | nil => rfl
    | cons next states =>
      have hrest := fun previous => ih previous (List.cons_ne_nil next states)
      rw [keyReports]
      split_ifs
      · rw [List.getLastD_cons, List.getLastD_cons, hrest]
      · rw [List.getLastD_cons, hrest]

/-- A key that types the character, in a report without shift or with it. -/
structure Types (shift : Bool) (code : UInt8) (char : Char) : Prop where
  lower : 4 ≤ code
  upper : code.toNat < leftShift
  typed : usLayout shift code.toNat = some char

theorem Types.inRange {shift : Bool} {code : UInt8} {char : Char} (h : Types shift code char) :
    outOfRange code = false := by
  have hupper : code.toNat < 225 := h.upper
  have hrange : code ≤ 231 := by
    rw [UInt8.le_iff_toNat_le]
    show code.toNat ≤ 231
    omega
  rw [← Bool.not_eq_true, outOfRange_iff, not_not]
  exact ⟨h.lower, hrange⟩

theorem newlyDown_of_not_down {previous report : KeyState} {shift : Bool} {code : UInt8}
    {char : Char} (h : Types shift code char) (hdown : isDown report code.toNat = true)
    (hprevious : isDown previous code.toNat = false) :
    newlyDown previous report code.toNat = true := by
  have hupper : code.toNat < 225 := h.upper
  have hne : code.toNat ≠ dummyKey := by
    unfold dummyKey
    omega
  simp [newlyDown, hne, hdown, hprevious]

/-- Keys one after the other type their characters: a key is down in two reports in a row only with
    the dummy between them. -/
theorem reportsText_keys {codes : List UInt8} {chars : List Char}
    (h : List.Forall₂ (Types false) codes chars) {previous : KeyState}
    (hprevious : ∀ code ∈ codes.head?, isDown previous code.toNat = false) :
    reportsText previous (keyReports (codes.map fun code => pressedKeyState code numlock)) =
      chars := by
  induction h generalizing previous with
  | nil => rfl
  | @cons code char codes chars htypes hrest ih =>
    have hlt : code.toNat < 256 := code.toNat_lt
    have hself : isDown (pressedKeyState code numlock) code.toNat = true := by
      rw [isDown_pressed _ _ hlt]
      exact decide_eq_true rfl
    have hshift : isDown (pressedKeyState code numlock) leftShift = false := by
      rw [isDown_pressed _ _ (by decide)]
      exact decide_eq_false (Nat.ne_of_gt htypes.upper)
    have hfirst : reportText previous (pressedKeyState code numlock) = [char] := by
      refine reportText_single hlt
        (newlyDown_of_not_down htypes hself (hprevious code (by simp))) ?_ ?_
      · rw [hshift]
        exact htypes.typed
      · intro other hother hne hdown
        rw [isDown_pressed _ _ hother] at hdown
        exact absurd (of_decide_eq_true hdown) hne
    cases hrest with
    | nil =>
      simp only [List.map_cons, List.map_nil, keyReports, reportsText, hfirst, reportText_dummy]
      rfl
    | @cons next nextChar codes chars hnext hrest =>
      have hnextLt : next.toNat < 256 := next.toNat_lt
      rw [List.map_cons, List.map_cons, keyReports]
      split_ifs with hsame
      · rw [reportsText, reportsText, hfirst, reportText_dummy]
        refine congrArg (char :: ·) (ih ?_)
        rintro _ ⟨⟩
        -- the key is up in the dummy
        by_contra hdown
        have hcode := idle_dummy next.toNat hnextLt (by simpa using hdown)
        have hupper : next.toNat < 225 := hnext.upper
        unfold dummyKey at hcode
        omega
      · rw [reportsText, hfirst]
        refine congrArg (char :: ·) (ih ?_)
        rintro _ ⟨⟩
        rw [isDown_pressed _ _ hnextLt]
        refine decide_eq_false fun hcode => hsame ?_
        rw [UInt8.toNat_inj.mp hcode]
        simp [sameState]

/-- Shift and a key in one report. -/
theorem reportsText_shifted {code : UInt8} {char : Char} (h : Types true code char)
    {previous : KeyState} (hprevious : isDown previous code.toNat = false) :
    reportsText previous (keyReports [(emptyKeyState.press 0xE1).press code]) = [char] := by
  have hdown : ∀ other < 256, isDown ((emptyKeyState.press 0xE1).press code) other =
      (decide (other = leftShift) || decide (other = code.toNat)) := by
    intro other hother
    rw [isDown_press _ _ hother, isDown_press _ _ hother, isDown_empty, Bool.false_or]
    rfl
  have hlt : code.toNat < 256 := code.toNat_lt
  have hshift : isDown ((emptyKeyState.press 0xE1).press code) leftShift = true := by
    rw [hdown _ (by decide)]
    rfl
  rw [keyReports, reportsText, reportsText, reportText_dummy]
  refine congrArg (· ++ _) (reportText_single hlt (newlyDown_of_not_down h ?_ hprevious) ?_ ?_)
  · rw [hdown _ hlt]
    simp
  · rw [hshift]
    exact h.typed
  · intro other hother hne hother'
    rw [hdown _ hother] at hother'
    obtain rfl : other = leftShift := by simpa [hne] using hother'
    rw [hshift]
    decide

end SysAgent
