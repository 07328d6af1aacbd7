import SysAgent.Lib.Runs
import Mathlib.Tactic.Common

set_option autoImplicit false

/-! # A one-slot mailbox with an unprotected check

A producer stores a batch in a shared variable; a worker loop looks at the variable without the
lock, and when it is full takes the lock, runs and frees what it holds, and clears it. Stores and
the locked section are atomic, the check is a step of its own.

The slot has no second place: a store into a full slot drops the batch in it. `inv_step`
and `not_good_of_put_full` make the law exact - nothing is lost or reordered iff every store finds
the slot empty - and `delivered_of_inv` says that the worker, left alone, delivers what is pending. -/

namespace Mailbox

/-- How a shared variable `γ` carries batches `ω`, with the laws the loop relies on. -/
structure Protocol (γ ω : Type*) where
  init : γ
  put : γ → ω → γ
  full : γ → Bool
  content : γ → Option ω
  clear : γ → γ
  stopTop : γ → Bool
  stopBottom : γ → Bool
  full_init : full init = false
  full_put : ∀ g b, full (put g b) = true
  content_put : ∀ g b, content (put g b) = some b
  content_of_full : ∀ g, full g = true → ∃ b, content g = some b
  full_clear : ∀ g, full (clear g) = false
  stop_init : stopTop init = false ∧ stopBottom init = false
  stop_put : ∀ g b, stopTop g = false → stopTop (put g b) = false ∧ stopBottom (put g b) = false
  stop_clear : ∀ g, stopTop g = false → stopTop (clear g) = false ∧ stopBottom (clear g) = false

/-- Where the worker loop stands. -/
inductive Pc
  | top
  | locked
  | bottom
  | exited

structure State (γ ω : Type*) where
  shared : γ
  pc : Pc
  submitted : List ω
  executed : List ω
  freed : List ω

inductive Event (ω : Type*)
  | put (b : ω)
  | worker

/-- Every batch handed over was run and freed exactly once, in order. -/
def State.Delivered {γ ω : Type*} (s : State γ ω) : Prop :=
  s.executed = s.submitted ∧ s.freed = s.submitted

variable {γ ω : Type*} (P : Protocol γ ω)

namespace Protocol

def start : State γ ω :=
  { shared := P.init, pc := .top, submitted := [], executed := [], freed := [] }

def step (s : State γ ω) : Event ω → State γ ω
  | .put b => { s with shared := P.put s.shared b, submitted := s.submitted ++ [b] }
  | .worker =>
    match s.pc with
    | .top =>
      { s with pc := if P.stopTop s.shared then .exited
                     else if P.full s.shared then .locked else .bottom }
    | .locked =>
      { s with
        shared := P.clear s.shared
        pc := .bottom
        executed := s.executed ++ (P.content s.shared).toList
        freed := s.freed ++ (P.content s.shared).toList }
    | .bottom => { s with pc := if P.stopBottom s.shared then .exited else .top }
    | .exited => s

/-- The batch waiting in the slot. -/
def pending (g : γ) : List ω :=
  if P.full g then (P.content g).toList else []

/-- Every batch handed over was run once, in order, or still waits; each that ran is freed. -/
def Good (s : State γ ω) : Prop :=
  s.executed ++ P.pending s.shared = s.submitted ∧ s.freed = s.executed

/-- A store is made into an empty slot. -/
def PutEmpty (s : State γ ω) : Event ω → Prop
  | .put _ => P.full s.shared = false
  | .worker => True

structure Inv (s : State γ ω) : Prop where
  good : P.Good s
  locked : s.pc = .locked → P.full s.shared = true
  running : s.pc ≠ .exited ∧ P.stopTop s.shared = false ∧ P.stopBottom s.shared = false

variable {P}

theorem pending_put (g : γ) (b : ω) : P.pending (P.put g b) = [b] := by
  simp [pending, P.full_put, P.content_put]

theorem pending_of_empty {g : γ} (h : P.full g = false) : P.pending g = [] := by
  simp [pending, h]

theorem pending_of_full {g : γ} (h : P.full g = true) : P.pending g = (P.content g).toList := by
  simp [pending, h]

theorem inv_start : P.Inv P.start := by
  refine ⟨⟨?_, rfl⟩, by simp [start], by simp [start], P.stop_init⟩
  simp [start, pending_of_empty P.full_init]

theorem inv_put {s : State γ ω} (h : P.Inv s) {b : ω} (hempty : P.full s.shared = false) :
    P.Inv (P.step s (.put b)) := by
  obtain ⟨⟨horder, hfreed⟩, -, hpc, hstop⟩ := h
  refine ⟨⟨?_, hfreed⟩, fun _ => P.full_put s.shared b, hpc, P.stop_put s.shared b hstop.1⟩
  show s.executed ++ P.pending (P.put s.shared b) = s.submitted ++ [b]
  rw [pending_of_empty hempty, List.append_nil] at horder
  rw [pending_put, horder]

theorem inv_worker {s : State γ ω} (h : P.Inv s) : P.Inv (P.step s .worker) := by
  obtain ⟨⟨horder, hfreed⟩, hlocked, hpc, htop, hbottom⟩ := h
  cases hs : s.pc with
  | top =>
    cases hfull : P.full s.shared with
    | true =>
      have hstep : P.step s .worker = { s with pc := .locked } := by simp [step, hs, htop, hfull]
      rw [hstep]
      exact ⟨⟨horder, hfreed⟩, fun _ => hfull, by simp, htop, hbottom⟩
    | false =>
      have hstep : P.step s .worker = { s with pc := .bottom } := by simp [step, hs, htop, hfull]
      rw [hstep]
      exact ⟨⟨horder, hfreed⟩, by simp, by simp, htop, hbottom⟩
  | locked =>
    have hstep : P.step s .worker =
        { s with
          shared := P.clear s.shared
          pc := .bottom
          executed := s.executed ++ (P.content s.shared).toList
          freed := s.freed ++ (P.content s.shared).toList } := by simp [step, hs]
    rw [hstep]
    refine ⟨⟨?_, ?_⟩, by simp, by simp, P.stop_clear s.shared htop⟩
    · show s.executed ++ (P.content s.shared).toList ++ P.pending (P.clear s.shared) = s.submitted
      rw [pending_of_empty (P.full_clear s.shared), List.append_nil,
        ← pending_of_full (hlocked hs), horder]
    · show s.freed ++ _ = s.executed ++ _
      rw [hfreed]
  | bottom =>
    have hstep : P.step s .worker = { s with pc := .top } := by simp [step, hs, hbottom]
    rw [hstep]
    exact ⟨⟨horder, hfreed⟩, by simp, by simp, htop, hbottom⟩
  | exited => exact absurd hs hpc

theorem inv_step {s : State γ ω} (e : Event ω) (h : P.Inv s) (hok : P.PutEmpty s e) :
    P.Inv (P.step s e) := by
  cases e with
  | put b => exact inv_put h hok
  | worker => exact inv_worker h

/-- A store into a full slot drops the batch that waited there. -/
theorem not_good_of_put_full {s : State γ ω} (h : P.Inv s) {e : Event ω}
    (hfull : ¬ P.PutEmpty s e) : ¬ P.Good (P.step s e) := by
  cases e with
  | worker => exact fun _ => hfull trivial
  | put b =>
    rintro ⟨horder, -⟩
    have hfull' : P.full s.shared = true := by simpa [PutEmpty] using hfull
    obtain ⟨c, hc⟩ := P.content_of_full s.shared hfull'
    have hputs : s.executed ++ P.pending (P.put s.shared b) = s.submitted ++ [b] := horder
    rw [pending_put] at hputs
    have hsame : s.executed = s.submitted := List.append_cancel_right hputs
    -- but the waiting batch was submitted and not run
    have hwaiting := h.good.1
    rw [pending_of_full hfull', hc, hsame] at hwaiting
    simp at hwaiting

/-- Left alone, the worker runs and frees what is pending within one turn of its loop. -/
theorem delivered_of_inv {s : State γ ω} (h : P.Inv s) :
    (Runs.run P.step s [.worker, .worker, .worker]).Delivered := by
  have hempty : ∀ t, P.Inv t → P.full t.shared = false → t.Delivered := by
    rintro t ⟨⟨horder, hfreed⟩, -, -⟩ hfull
    rw [pending_of_empty hfull, List.append_nil] at horder
    exact ⟨horder, hfreed.trans horder⟩
  have h1 := inv_worker h
  have h2 := inv_worker h1
  have h3 := inv_worker h2
  refine hempty _ h3 ?_
  cases hs : s.pc with
  | top =>
    cases hfull : P.full s.shared <;>
      simp [step, hs, hfull, h.running.2.1, h.running.2.2, P.full_clear]
  | locked =>
    obtain ⟨htop, hbottom⟩ := P.stop_clear s.shared h.running.2.1
    simp [step, hs, htop, hbottom, P.full_clear]
  | bottom =>
    cases hfull : P.full s.shared <;>
      simp [step, hs, hfull, h.running.2.1, h.running.2.2, P.full_clear]
  | exited => exact absurd hs h.running.1

end Protocol

end Mailbox
