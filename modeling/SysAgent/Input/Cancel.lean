import SysAgent.Input.Handover
import SysAgent.Lib.CancelToken
import SysAgent.Sequence.Estimate

set_option autoImplicit false

/-! # Cancelling a click sequence or a touch (`main.c`, `commands.c`)

`clickCancel` and `touchCancel` set a byte that `clickSequence` and `touch` look at between two
tokens or points. The two worker loops are those of `SysAgent.sub_click` and `SysAgent.sub_touch`,
here with the tokens they run and with the place where they set the byte back to zero: `sub_click`
before its `svcSleepThread`, `sub_touch` behind it.

The requests that end the threads come behind the last command and are not part of these runs. -/

namespace SysAgent

/-- What one turn of the loop of `clickSequence` takes off the sequence: a stick token takes the
    next one as its y value. -/
def sequenceTurns : List (List UInt8) → List (List (List UInt8))
  | [] => []
  | command :: rest =>
    if isStick command then
      match rest with
      | [] => [[command]]
      | y :: rest => [command, y] :: sequenceTurns rest
    else [command] :: sequenceTurns rest

structure CancelState where
  click : CancelToken.State ClickData (List (List UInt8))
  touch : CancelToken.State TouchData HidTouchState

/-- A command, or one step of a worker. `touch`, `touchHold` and `touchDraw` end in `makeTouch`. -/
inductive CancelEvent
  | makeClickSeq (b : ClickBatch)
  | clickCancel
  | makeTouch (b : TouchBatch)
  | touchCancel
  | sub_click
  | sub_touch

namespace CancelState

/-- `clickSequence` looks at the token in front of every turn. -/
def sub_click : CancelToken.Loop ClickData ClickBatch (List (List UInt8)) :=
  { SysAgent.sub_click with
    units := fun b => sequenceTurns (sequenceTokens (some (CString.at b.contents).bytes))
    unchecked := 0
    resetsFirst := true }

/-- `touch` looks at the token behind every point. -/
def sub_touch : CancelToken.Loop TouchData TouchBatch HidTouchState :=
  { SysAgent.sub_touch with
    units := fun b => b.states.contents.take b.sequentialCount.toNat
    unchecked := 1
    resetsFirst := false }

def init : CancelState :=
  { click := sub_click.start, touch := sub_touch.start }

def step (s : CancelState) : CancelEvent → CancelState
  | .makeClickSeq b => { s with click := sub_click.step s.click (.put b) }
  | .clickCancel => { s with click := sub_click.step s.click .cancel }
  | .makeTouch b => { s with touch := sub_touch.step s.touch (.put b) }
  | .touchCancel => { s with touch := sub_touch.step s.touch .cancel }
  | .sub_click => { s with click := sub_click.step s.click .worker }
  | .sub_touch => { s with touch := sub_touch.step s.touch .worker }

end CancelState

/-- A command or a step that concerns the click thread. -/
def CancelEvent.ofClick : CancelToken.Event ClickBatch → CancelEvent
  | .put b => .makeClickSeq b
  | .cancel => .clickCancel
  | .worker => .sub_click

/-- A command or a step that concerns the touch thread. -/
def CancelEvent.ofTouch : CancelToken.Event TouchBatch → CancelEvent
  | .put b => .makeTouch b
  | .cancel => .touchCancel
  | .worker => .sub_touch

/-- A step of one of the two threads. -/
def CancelEvent.IsTurn : CancelEvent → Prop
  | .sub_click | .sub_touch => True
  | .makeClickSeq _ | .clickCancel | .makeTouch _ | .touchCancel => False

namespace CancelState

/-- No token or point begins of a batch that was cancelled since it was accepted, and a batch is cut
    only if a cancel came while one was accepted or running. -/
def Lawful (s : CancelState) : CancelEvent → Prop
  | .makeClickSeq b => sub_click.Lawful s.click (.put b)
  | .clickCancel => sub_click.Lawful s.click .cancel
  | .makeTouch b => sub_touch.Lawful s.touch (.put b)
  | .touchCancel => sub_touch.Lawful s.touch .cancel
  | .sub_click => sub_click.Lawful s.click .worker
  | .sub_touch => sub_touch.Lawful s.touch .worker

/-- No cancel comes while a batch waits that the worker will not stop any more, and no batch is
    accepted while the token of a cancel that had nothing to stop is left standing. -/
def Timely (s : CancelState) : CancelEvent → Prop
  | .makeClickSeq b => s.click.pc ≠ .running → sub_click.Ready s.click b
  | .clickCancel =>
    s.click.shared.currentClick.isSome → sub_click.batch s.click ≠ [] →
      sub_click.Reachable s.click
  | .makeTouch b => s.touch.pc ≠ .running → sub_touch.Ready s.touch b
  | .touchCancel =>
    s.touch.shared.state = 1 → sub_touch.batch s.touch ≠ [] → sub_touch.Reachable s.touch
  | .sub_click | .sub_touch => True

structure Inv (s : CancelState) : Prop where
  click : sub_click.Inv s.click
  touch : sub_touch.Inv s.touch

theorem inv_init : Inv init :=
  { click := CancelToken.Loop.inv_start, touch := CancelToken.Loop.inv_start }

/-! ## Events of one thread -/

/-- Every event concerns one of the two threads. -/
theorem eq_ofClick_or_ofTouch (e : CancelEvent) :
    (∃ a, e = .ofClick a) ∨ (∃ a, e = .ofTouch a) := by
  cases e with
  | makeClickSeq b => exact Or.inl ⟨.put b, rfl⟩
  | clickCancel => exact Or.inl ⟨.cancel, rfl⟩
  | sub_click => exact Or.inl ⟨.worker, rfl⟩
  | makeTouch b => exact Or.inr ⟨.put b, rfl⟩
  | touchCancel => exact Or.inr ⟨.cancel, rfl⟩
  | sub_touch => exact Or.inr ⟨.worker, rfl⟩

theorem step_ofClick (s : CancelState) (a : CancelToken.Event ClickBatch) :
    s.step (.ofClick a) = { s with click := sub_click.step s.click a } := by
  cases a <;> rfl

theorem step_ofTouch (s : CancelState) (a : CancelToken.Event TouchBatch) :
    s.step (.ofTouch a) = { s with touch := sub_touch.step s.touch a } := by
  cases a <;> rfl

theorem lawful_ofClick (s : CancelState) (a : CancelToken.Event ClickBatch) :
    Lawful s (.ofClick a) ↔ sub_click.Lawful s.click a := by
  cases a <;> rfl

theorem lawful_ofTouch (s : CancelState) (a : CancelToken.Event TouchBatch) :
    Lawful s (.ofTouch a) ↔ sub_touch.Lawful s.touch a := by
  cases a <;> rfl

theorem timely_ofClick (s : CancelState) (a : CancelToken.Event ClickBatch) :
    Timely s (.ofClick a) ↔ sub_click.Timely s.click a := by
  cases a <;> rfl

theorem timely_ofTouch (s : CancelState) (a : CancelToken.Event TouchBatch) :
    Timely s (.ofTouch a) ↔ sub_touch.Timely s.touch a := by
  cases a with
  | put b => rfl
  | cancel =>
    show _ ↔ (sub_touch.full s.touch.shared = true → _)
    rw [show sub_touch.full s.touch.shared = (s.touch.shared.state == 1) from rfl, beq_iff_eq]
    rfl
  | worker => rfl

/-! ## The run rules -/

theorem inv_step (s : CancelState) (e : CancelEvent) (h : Inv s) (htimely : Timely s e) :
    Inv (s.step e) := by
  rcases eq_ofClick_or_ofTouch e with ⟨a, rfl⟩ | ⟨a, rfl⟩
  · rw [step_ofClick]
    exact { h with click := CancelToken.Loop.inv_step a h.click ((timely_ofClick s a).1 htimely) }
  · rw [step_ofTouch]
    exact { h with touch := CancelToken.Loop.inv_step a h.touch ((timely_ofTouch s a).1 htimely) }

theorem lawful_of_inv (s : CancelState) (e : CancelEvent) (h : Inv s) : Lawful s e := by
  rcases eq_ofClick_or_ofTouch e with ⟨a, rfl⟩ | ⟨a, rfl⟩
  · exact (lawful_ofClick s a).2 (CancelToken.Loop.lawful_of_inv a h.click)
  · exact (lawful_ofTouch s a).2 (CancelToken.Loop.lawful_of_inv a h.touch)

theorem timely_of_isTurn (s : CancelState) (e : CancelEvent) (h : e.IsTurn) : Timely s e := by
  cases e with
  | sub_click => trivial
  | sub_touch => trivial
  | makeClickSeq b => exact absurd h id
  | clickCancel => exact absurd h id
  | makeTouch b => exact absurd h id
  | touchCancel => exact absurd h id

/-- The thread of a command out of time breaks the law by itself. -/
theorem exists_broken (s : CancelState) (e : CancelEvent) (hnot : ¬ Timely s e) :
    ∃ turns, (∀ t ∈ turns, CancelEvent.IsTurn t) ∧
      ¬ Runs.EachStep step Lawful s (e :: turns) := by
  rcases eq_ofClick_or_ofTouch e with ⟨a, rfl⟩ | ⟨a, rfl⟩
  · obtain ⟨n, hbad⟩ := CancelToken.Loop.exists_broken a (mt (timely_ofClick s a).2 hnot)
    refine ⟨(List.replicate n .worker).map .ofClick, ?_, fun h => hbad ?_⟩
    · intro t ht
      rw [List.map_replicate] at ht
      rw [List.eq_of_mem_replicate ht]
      trivial
    · have hrest := (Runs.eachStep_cons.1 h).2
      rw [step_ofClick] at hrest
      exact Runs.eachStep_map (fun s : CancelState => s.click)
        (fun t b => by rw [step_ofClick]) (fun t b => (lawful_ofClick t b).1) hrest
  · obtain ⟨n, hbad⟩ := CancelToken.Loop.exists_broken a (mt (timely_ofTouch s a).2 hnot)
    refine ⟨(List.replicate n .worker).map .ofTouch, ?_, fun h => hbad ?_⟩
    · intro t ht
      rw [List.map_replicate] at ht
      rw [List.eq_of_mem_replicate ht]
      trivial
    · have hrest := (Runs.eachStep_cons.1 h).2
      rw [step_ofTouch] at hrest
      exact Runs.eachStep_map (fun s : CancelState => s.touch)
        (fun t b => by rw [step_ofTouch]) (fun t b => (lawful_ofTouch t b).1) hrest

end CancelState

/-- For every interleaving of commands and worker steps: whatever the two threads go on to do from
    any of its states, no token or point begins of a cancelled batch and no batch is cut by cancels
    that came while nothing was accepted or running, iff every command was timely. -/
theorem cancel_hits_the_running_batch_iff (events : List CancelEvent) :
    (∀ p, p <+: events → ∀ turns, (∀ t ∈ turns, CancelEvent.IsTurn t) →
        Runs.EachStep CancelState.step CancelState.Lawful CancelState.init (p ++ turns)) ↔
      Runs.EachStep CancelState.step CancelState.Timely CancelState.init events :=
  Runs.forall_future_iff CancelState.inv_step (fun s e h _ => CancelState.lawful_of_inv s e h)
    CancelState.timely_of_isTurn (fun s e _ hnot => CancelState.exists_broken s e hnot)
    CancelState.inv_init

/-- Two taps. -/
def twoTaps : TouchBatch :=
  { states := ⟨0, [⟨10, 20, 50, 50⟩, ⟨30, 40, 50, 50⟩]⟩
    sequentialCount := 2
    holdTime := 17000000
    hold := false }

/-- A cancel that comes before `sub_touch` clears the token is lost, and both taps are made; one
    that comes behind it, with nothing to cancel, cuts the taps accepted next. -/
theorem touch_cancel_lost_and_stale :
    ¬ Runs.EachStep CancelState.step CancelState.Lawful CancelState.init
        [.sub_touch, .makeTouch twoTaps, .touchCancel, .sub_touch, .sub_touch, .sub_touch,
          .sub_touch, .sub_touch] ∧
      ¬ Runs.EachStep CancelState.step CancelState.Lawful CancelState.init
        [.touchCancel, .makeTouch twoTaps, .sub_touch, .sub_touch, .sub_touch] := by
  constructor
  · intro h
    -- the second tap begins
    have hstep := h [.sub_touch, .makeTouch twoTaps, .touchCancel, .sub_touch, .sub_touch,
      .sub_touch, .sub_touch] .sub_touch (List.prefix_refl _)
    have hstopped := CancelToken.Loop.Lawful.stopped hstep (by decide)
    revert hstopped
    decide
  · intro h
    -- the first tap has been made, the second has not
    have hstep := h [.touchCancel, .makeTouch twoTaps, .sub_touch, .sub_touch] .sub_touch
      (List.prefix_refl _)
    have hwhole := CancelToken.Loop.Lawful.whole hstep (by decide) (by decide) (by decide)
    revert hwhole
    decide

end SysAgent
