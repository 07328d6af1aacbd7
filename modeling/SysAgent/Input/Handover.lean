import Mathlib
import SysAgent.Lib.Mailbox

set_option autoImplicit false

/-! # Handing input batches to the worker threads (`main.c`)

`makeTouch`, `makeKeys` and `makeClickSeq` store a batch under the worker's mutex; `sub_touch`,
`sub_key` and `sub_click` look at the stored batch without it, then lock, run the batch, free it and
clear the variable. The three loops share the shape of `Mailbox.Protocol`, and each is given here as
an instance of it: what the store writes, what the check reads, what the locked section runs and
frees, and where the loop looks for its stop request.

A batch is a heap block (`calloc`/`malloc`), known by its identity, with its elements. The cancel
tokens only shorten a batch that runs, so they are not part of this model. -/

namespace SysAgent

/-- A heap block holding `contents`. -/
structure Alloc (α : Type) where
  block : Nat
  contents : List α
  deriving DecidableEq

structure HidTouchState where
  x : UInt32
  y : UInt32
  diameter_x : UInt32
  diameter_y : UInt32
  deriving DecidableEq

structure HiddbgKeyboardAutoPilotState where
  modifiers : UInt64
  keys : List UInt64
  deriving DecidableEq

/-- The arguments of one `touch` call. -/
structure TouchBatch where
  states : Alloc HidTouchState
  sequentialCount : UInt64
  holdTime : UInt64
  hold : Bool
  deriving DecidableEq

/-- The arguments of one `key` call. -/
structure KeyBatch where
  states : Alloc HiddbgKeyboardAutoPilotState
  sequentialCount : UInt64
  deriving DecidableEq

/-- An expanded click sequence, a NUL-terminated string. -/
abbrev ClickBatch := Alloc UInt8

/-- `currentTouchEvent`; a filled event points at its batch. -/
structure TouchData where
  states : Option (Alloc HidTouchState)
  sequentialCount : UInt64
  holdTime : UInt64
  hold : Bool
  state : UInt8
  filled : state = 1 → states.isSome

/-- `currentKeyEvent`; a filled event points at its batch. -/
structure KeyData where
  states : Option (Alloc HiddbgKeyboardAutoPilotState)
  sequentialCount : UInt64
  state : UInt8
  filled : state = 1 → states.isSome

/-- The two globals `sub_click` reads. -/
structure ClickData where
  currentClick : Option ClickBatch
  clickThreadState : UInt8

/-! ## The stores of the command thread -/

def TouchData.zero : TouchData :=
  { states := none, sequentialCount := 0, holdTime := 0, hold := false, state := 0,
    filled := by decide }

def KeyData.zero : KeyData :=
  { states := none, sequentialCount := 0, state := 0, filled := by decide }

/-- `memset` of the event, then the five assignments. -/
def makeTouch (_ : TouchData) (b : TouchBatch) : TouchData :=
  { states := some b.states, sequentialCount := b.sequentialCount, holdTime := b.holdTime,
    hold := b.hold, state := 1, filled := fun _ => rfl }

/-- `memset` of the event, then the three assignments. -/
def makeKeys (_ : KeyData) (b : KeyBatch) : KeyData :=
  { states := some b.states, sequentialCount := b.sequentialCount, state := 1,
    filled := fun _ => rfl }

def makeClickSeq (d : ClickData) (seq : ClickBatch) : ClickData :=
  { d with currentClick := some seq }

/-! ## The worker loops -/

/-- `sub_touch`: runs when `state == 1`, sets `state = 0` after the batch, and looks for
    `state == 3` at the bottom of the loop. -/
def sub_touch : Mailbox.Protocol TouchData TouchBatch where
  init := TouchData.zero
  put := makeTouch
  full d := d.state == 1
  content d := d.states.map fun states =>
    { states := states, sequentialCount := d.sequentialCount, holdTime := d.holdTime, hold := d.hold }
  clear d := { d with state := 0, filled := fun h => absurd h (by decide) }
  stopTop _ := false
  stopBottom d := d.state == 3
  full_init := rfl
  full_put _ _ := rfl
  content_put _ _ := rfl
  content_of_full d h := by
    obtain ⟨states, hstates⟩ := Option.isSome_iff_exists.1 (d.filled (beq_iff_eq.1 h))
    exact ⟨_, by rw [hstates]; rfl⟩
  full_clear _ := rfl
  stop_init := ⟨rfl, rfl⟩
  stop_put _ _ _ := ⟨rfl, rfl⟩
  stop_clear _ _ := ⟨rfl, rfl⟩

/-- `sub_key`: the same loop over `currentKeyEvent`. -/
def sub_key : Mailbox.Protocol KeyData KeyBatch where
  init := KeyData.zero
  put := makeKeys
  full d := d.state == 1
  content d := d.states.map fun states =>
    { states := states, sequentialCount := d.sequentialCount }
  clear d := { d with state := 0, filled := fun h => absurd h (by decide) }
  stopTop _ := false
  stopBottom d := d.state == 3
  full_init := rfl
  full_put _ _ := rfl
  content_put _ _ := rfl
  content_of_full d h := by
    obtain ⟨states, hstates⟩ := Option.isSome_iff_exists.1 (d.filled (beq_iff_eq.1 h))
    exact ⟨_, by rw [hstates]; rfl⟩
  full_clear _ := rfl
  stop_init := ⟨rfl, rfl⟩
  stop_put _ _ _ := ⟨rfl, rfl⟩
  stop_clear _ _ := ⟨rfl, rfl⟩

/-- `sub_click`: runs when `currentClick` is not `NULL`, sets it to `NULL` after the batch, and
    looks for `clickThreadState == 1` at the top of the loop. -/
def sub_click : Mailbox.Protocol ClickData ClickBatch where
  init := { currentClick := none, clickThreadState := 0 }
  put := makeClickSeq
  full d := d.currentClick.isSome
  content d := d.currentClick
  clear d := { d with currentClick := none }
  stopTop d := d.clickThreadState == 1
  stopBottom _ := false
  full_init := rfl
  full_put _ _ := rfl
  content_put _ _ := rfl
  content_of_full _ h := Option.isSome_iff_exists.1 h
  full_clear _ := rfl
  stop_init := ⟨rfl, rfl⟩
  stop_put _ _ h := ⟨h, rfl⟩
  stop_clear _ h := ⟨h, rfl⟩

/-! ## The command thread with its three workers -/

structure InputState where
  touch : Mailbox.State TouchData TouchBatch
  keys : Mailbox.State KeyData KeyBatch
  click : Mailbox.State ClickData ClickBatch

/-- A call of the command thread, or one step of a worker. -/
inductive InputEvent
  | makeTouch (b : TouchBatch)
  | makeKeys (b : KeyBatch)
  | makeClickSeq (b : ClickBatch)
  | sub_touch
  | sub_key
  | sub_click

namespace InputState

def init : InputState :=
  { touch := SysAgent.sub_touch.start, keys := SysAgent.sub_key.start,
    click := SysAgent.sub_click.start }

def step (s : InputState) : InputEvent → InputState
  | .makeTouch b => { s with touch := SysAgent.sub_touch.step s.touch (.put b) }
  | .makeKeys b => { s with keys := SysAgent.sub_key.step s.keys (.put b) }
  | .makeClickSeq b => { s with click := SysAgent.sub_click.step s.click (.put b) }
  | .sub_touch => { s with touch := SysAgent.sub_touch.step s.touch .worker }
  | .sub_key => { s with keys := SysAgent.sub_key.step s.keys .worker }
  | .sub_click => { s with click := SysAgent.sub_click.step s.click .worker }

/-- Every batch was run and freed exactly once in submission order, up to the one that waits. -/
def NothingLost (s : InputState) : Prop :=
  SysAgent.sub_touch.Good s.touch ∧ SysAgent.sub_key.Good s.keys ∧
    SysAgent.sub_click.Good s.click

/-- Every batch handed over was run and freed exactly once in submission order. -/
def Delivered (s : InputState) : Prop :=
  s.touch.Delivered ∧ s.keys.Delivered ∧ s.click.Delivered

/-- One turn of each worker's loop, with no further command. -/
def workersAlone : List InputEvent :=
  [.sub_touch, .sub_touch, .sub_touch, .sub_key, .sub_key, .sub_key,
    .sub_click, .sub_click, .sub_click]

/-- The variable a batch is stored in holds no batch that waits for its worker. -/
def HandoverFree (s : InputState) : InputEvent → Prop
  | .makeTouch _ => s.touch.shared.state ≠ 1
  | .makeKeys _ => s.keys.shared.state ≠ 1
  | .makeClickSeq _ => s.click.shared.currentClick = none
  | .sub_touch | .sub_key | .sub_click => True

structure Inv (s : InputState) : Prop where
  touch : SysAgent.sub_touch.Inv s.touch
  keys : SysAgent.sub_key.Inv s.keys
  click : SysAgent.sub_click.Inv s.click

theorem inv_init : Inv init :=
  { touch := Mailbox.Protocol.inv_start, keys := Mailbox.Protocol.inv_start,
    click := Mailbox.Protocol.inv_start }

theorem Inv.nothingLost {s : InputState} (h : Inv s) : NothingLost s :=
  ⟨h.touch.good, h.keys.good, h.click.good⟩

theorem inv_step {s : InputState} (e : InputEvent) (h : Inv s) (hfree : HandoverFree s e) :
    Inv (s.step e) := by
  cases e with
  | makeTouch b =>
    exact { h with touch := Mailbox.Protocol.inv_put h.touch (beq_eq_false_iff_ne.2 hfree) }
  | makeKeys b =>
    exact { h with keys := Mailbox.Protocol.inv_put h.keys (beq_eq_false_iff_ne.2 hfree) }
  | makeClickSeq b =>
    have hempty : SysAgent.sub_click.full s.click.shared = false := congrArg Option.isSome hfree
    exact { h with click := Mailbox.Protocol.inv_put h.click hempty }
  | sub_touch => exact { h with touch := Mailbox.Protocol.inv_worker h.touch }
  | sub_key => exact { h with keys := Mailbox.Protocol.inv_worker h.keys }
  | sub_click => exact { h with click := Mailbox.Protocol.inv_worker h.click }

theorem not_nothingLost_of_full {s : InputState} (e : InputEvent) (h : Inv s)
    (hfull : ¬ HandoverFree s e) : ¬ NothingLost (s.step e) := by
  rintro ⟨htouch, hkeys, hclick⟩
  cases e with
  | makeTouch b =>
    have hput : ¬ SysAgent.sub_touch.PutEmpty s.touch (.put b) := by
      simpa [Mailbox.Protocol.PutEmpty, HandoverFree, sub_touch] using hfull
    exact Mailbox.Protocol.not_good_of_put_full h.touch hput htouch
  | makeKeys b =>
    have hput : ¬ SysAgent.sub_key.PutEmpty s.keys (.put b) := by
      simpa [Mailbox.Protocol.PutEmpty, HandoverFree, sub_key] using hfull
    exact Mailbox.Protocol.not_good_of_put_full h.keys hput hkeys
  | makeClickSeq b =>
    have hput : ¬ SysAgent.sub_click.PutEmpty s.click (.put b) := by
      simpa [Mailbox.Protocol.PutEmpty, HandoverFree, sub_click] using hfull
    exact Mailbox.Protocol.not_good_of_put_full h.click hput hclick
  | sub_touch => exact hfull trivial
  | sub_key => exact hfull trivial
  | sub_click => exact hfull trivial

theorem delivered_of_inv {s : InputState} (h : Inv s) :
    Delivered (Runs.run step s workersAlone) :=
  ⟨Mailbox.Protocol.delivered_of_inv h.touch, Mailbox.Protocol.delivered_of_inv h.keys,
    Mailbox.Protocol.delivered_of_inv h.click⟩

end InputState

/-- For every interleaving of commands and worker steps: no batch is lost or repeated in any state
    and all are run and freed once the workers take their turn, iff every batch was handed over
    while no earlier one waited for that worker. -/
theorem input_batches_exactly_once_iff (events : List InputEvent) :
    (Runs.Always InputState.step InputState.NothingLost InputState.init events ∧
        InputState.Delivered (Runs.run InputState.step InputState.init
          (events ++ InputState.workersAlone))) ↔
      Runs.EachStep InputState.step InputState.HandoverFree InputState.init events := by
  have hexact : Runs.Always InputState.step InputState.NothingLost InputState.init events ↔
      Runs.EachStep InputState.step InputState.HandoverFree InputState.init events :=
    Runs.always_iff_eachStep_unbounded (fun _ e h hfree => InputState.inv_step e h hfree)
      (fun _ h => h.nothingLost) (fun _ e h => InputState.not_nothingLost_of_full e h)
      InputState.inv_init
  constructor
  · exact fun h => hexact.1 h.1
  · intro h
    refine ⟨hexact.2 h, ?_⟩
    rw [Runs.run_append]
    exact InputState.delivered_of_inv
      (Runs.invariant_of_eachStep (fun _ e h hfree => InputState.inv_step e h hfree)
        InputState.inv_init h)

/-- Two click sequences accepted before the worker's next step: only the second one runs. -/
theorem second_click_sequence_replaces_first :
    ¬ (Runs.Always InputState.step InputState.NothingLost InputState.init
          [.makeClickSeq ⟨0, [65]⟩, .makeClickSeq ⟨1, [66]⟩, .sub_click, .sub_click] ∧
        InputState.Delivered (Runs.run InputState.step InputState.init
          ([.makeClickSeq ⟨0, [65]⟩, .makeClickSeq ⟨1, [66]⟩, .sub_click, .sub_click] ++
            InputState.workersAlone))) := by
  rintro ⟨-, -, -, hexecuted, -⟩
  revert hexecuted
  decide

end SysAgent
