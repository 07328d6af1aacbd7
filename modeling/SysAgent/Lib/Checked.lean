import Mathlib.Control.Monad.Basic
import Mathlib.Data.List.Basic

set_option autoImplicit false

/-! # Code that refuses its input, and code that leaves its arrays

A computation returns, refuses with a reason, or goes outside of an array, which ends it without any
result. `InBounds x Q` says that `x` stays inside of its arrays and that what it returns satisfies `Q`. -/

/-- `none` is an access outside of an array. -/
abbrev Checked (ε α : Type) := ExceptT ε Option α

namespace Checked

variable {ε α β σ : Type}

/-! ## Accesses -/

/-- `xs[i]`. -/
def access (xs : List α) (i : Nat) : Checked ε α :=
  ExceptT.mk (xs[i]?.map Except.ok)

/-- Write behind the first elements `xs` of an array of length `max`. -/
def push (max : Nat) (xs : List α) (x : α) : Checked ε (List α) :=
  if xs.length < max then pure (xs ++ [x]) else ExceptT.mk none

/-- `while (index < count)`, where `step` goes `more` steps further than one. -/
def loop (count : Nat) (step : Nat → σ → Checked ε (Nat × σ)) (index : Nat) (s : σ) :
    Checked ε σ :=
  if index < count then do
    let (more, s') ← step index s
    loop count step (index + 1 + more) s'
  else pure s
termination_by count - index

/-! ## Rules -/

/-- No access outside, and `Q` of what is returned. -/
def InBounds (x : Checked ε α) (Q : α → Prop) : Prop :=
  ∃ r, x.run = some r ∧ ∀ a, r = .ok a → Q a

variable {x : Checked ε α} {Q R : α → Prop}

theorem inBounds_pure {a : α} (h : Q a) : InBounds (pure a : Checked ε α) Q :=
  ⟨.ok a, rfl, fun _ heq => by cases heq; exact h⟩

theorem inBounds_throw (e : ε) : InBounds (throw e : Checked ε α) Q :=
  ⟨.error e, rfl, fun _ heq => by cases heq⟩

theorem InBounds.mono (h : InBounds x Q) (himp : ∀ a, Q a → R a) : InBounds x R := by
  obtain ⟨r, hrun, hr⟩ := h
  exact ⟨r, hrun, fun a ha => himp a (hr a ha)⟩

theorem run_bind (x : Checked ε α) (f : α → Checked ε β) :
    (x >>= f).run = x.run.bind fun r =>
      match r with
      | .ok a => (f a).run
      | .error e => some (.error e) := by
  cases x with
  | none => rfl
  | some r => cases r <;> rfl

theorem InBounds.bind {f : α → Checked ε β} {R : β → Prop} (h : InBounds x Q)
    (hf : ∀ a, Q a → InBounds (f a) R) : InBounds (x >>= f) R := by
  obtain ⟨r, hrun, hr⟩ := h
  unfold InBounds
  rw [run_bind, hrun, Option.bind_some]
  cases r with
  | error e => exact ⟨.error e, rfl, fun _ heq => by cases heq⟩
  | ok a => exact hf a (hr a rfl)

theorem inBounds_ite {p : Prop} [Decidable p] {y : Checked ε α} (hx : p → InBounds x Q)
    (hy : ¬ p → InBounds y Q) : InBounds (if p then x else y) Q := by
  by_cases hp : p
  · rw [if_pos hp]
    exact hx hp
  · rw [if_neg hp]
    exact hy hp

theorem inBounds_access {xs : List α} {i : Nat} (h : i < xs.length) :
    InBounds (access xs i : Checked ε α) fun a => a = xs[i] :=
  ⟨.ok xs[i], by simp [access, List.getElem?_eq_getElem h, ExceptT.run, ExceptT.mk],
    fun _ heq => by cases heq; rfl⟩

theorem inBounds_push {max : Nat} {xs : List α} (y : α) (h : xs.length < max) :
    InBounds (push max xs y : Checked ε (List α)) fun ys => ys = xs ++ [y] := by
  rw [push, if_pos h]
  exact inBounds_pure rfl

/-- What every step keeps, the loop keeps. -/
theorem inBounds_loop {count : Nat} {step : Nat → σ → Checked ε (Nat × σ)} {I : Nat → σ → Prop}
    (hstep : ∀ index s, index < count → I index s →
      InBounds (step index s) fun r => I (index + 1 + r.1) r.2)
    (index : Nat) (s : σ) (hs : I index s) :
    InBounds (loop count step index s) fun s' => ∃ last, count ≤ last ∧ I last s' := by
  induction hn : count - index using Nat.strongRecOn generalizing index s with
  | ind n ih =>
    rw [loop]
    refine inBounds_ite (fun hlt => ?_) fun hge => inBounds_pure ⟨index, Nat.le_of_not_lt hge, hs⟩
    refine (hstep index s hlt hs).bind fun r hr => ?_
    exact ih (count - (index + 1 + r.1)) (by omega) _ r.2 hr rfl

theorem access_bind {xs : List α} {i : Nat} (h : i < xs.length) (f : α → Checked ε β) :
    (access xs i >>= f) = f xs[i] := by
  rw [access, List.getElem?_eq_getElem h]
  rfl

/-- An access outside is no run at all. -/
theorem access_bind_outside {xs : List α} {i : Nat} (h : xs.length ≤ i) (f : α → Checked ε β) :
    (access xs i >>= f).run = none := by
  rw [access, List.getElem?_eq_none h]
  rfl

theorem InBounds.run_ne_none (h : InBounds x Q) : x.run ≠ none := by
  obtain ⟨r, hrun, -⟩ := h
  rw [hrun]
  exact Option.some_ne_none r

/-! ## Steps that may not be made

`fault` is also a loop that goes on beyond its bound. -/

def fault : Checked ε α := ExceptT.mk none

/-- What holds wherever the code gets here, or it does something undefined. -/
def require (p : Prop) [Decidable p] : Checked ε Unit := if p then pure () else fault

theorem inBounds_require {p : Prop} [Decidable p] (h : p) :
    InBounds (require p : Checked ε Unit) fun _ => True := by
  rw [require, if_pos h]
  exact inBounds_pure trivial

theorem require_bind {p : Prop} [Decidable p] (hp : p) (f : Unit → Checked ε β) :
    (require p >>= f) = f () := by
  rw [require, if_pos hp, pure_bind]

theorem require_bind_ne_none {p : Prop} [Decidable p] (f : Unit → Checked ε β) :
    (require p >>= f).run ≠ none ↔ p ∧ (f ()).run ≠ none := by
  by_cases hp : p
  · rw [require, if_pos hp, pure_bind]
    exact ⟨fun h => ⟨hp, h⟩, And.right⟩
  · rw [require, if_neg hp]
    exact ⟨fun h => absurd rfl h, fun h => absurd h.1 hp⟩

theorem bind_ne_none_iff (x : Checked ε α) (f : α → Checked ε β) :
    (x >>= f).run ≠ none ↔ x.run ≠ none ∧ ∀ a, x.run = some (.ok a) → (f a).run ≠ none := by
  rw [run_bind]
  cases hrun : x.run with
  | none => simp
  | some r => cases r <;> simp

theorem InBounds.of_ok {a : α} (h : InBounds x Q) (hrun : x.run = some (.ok a)) : Q a := by
  obtain ⟨r, hr, hQ⟩ := h
  rw [hrun, Option.some.injEq] at hr
  exact hQ a hr.symm

theorem exists_ok_of_bind {f : α → Checked ε β} {b : β} (h : (x >>= f).run = some (.ok b)) :
    ∃ a, x.run = some (.ok a) ∧ (f a).run = some (.ok b) := by
  rw [run_bind] at h
  cases hrun : x.run with
  | none =>
    rw [hrun] at h
    cases h
  | some r =>
    rw [hrun, Option.bind_some] at h
    cases r with
    | error e => cases h
    | ok a => exact ⟨a, rfl, h⟩

/-- In a run that returns, every step does. -/
theorem exists_ok_of_foldlM {f : σ → α → Checked ε σ} {l : List α} {s s' : σ}
    (h : (l.foldlM f s).run = some (.ok s')) :
    ∀ a ∈ l, ∃ before after, (f before a).run = some (.ok after) := by
  induction l generalizing s with
  | nil => exact fun a ha => absurd ha List.not_mem_nil
  | cons first l ih =>
    rw [List.foldlM_cons] at h
    obtain ⟨middle, hfirst, hrest⟩ := exists_ok_of_bind h
    intro a ha
    rcases List.mem_cons.1 ha with rfl | ha
    · exact ⟨s, middle, hfirst⟩
    · exact ih hrest a ha

/-- A run over a list faults nowhere if no step faults that it comes to. -/
theorem foldlM_ne_none_iff (f : σ → α → Checked ε σ) (l : List α) (s : σ) :
    (l.foldlM f s).run ≠ none ↔ ∀ before a after s', l = before ++ a :: after →
      (before.foldlM f s).run = some (.ok s') → (f s' a).run ≠ none := by
  induction l generalizing s with
  | nil =>
    refine ⟨fun _ before a after s' hl => ?_, fun _ => Option.some_ne_none _⟩
    simp at hl
  | cons first l ih =>
    rw [List.foldlM_cons, bind_ne_none_iff]
    constructor
    · rintro ⟨hfirst, hrest⟩ before a after s' hl hrun
      cases before with
      | nil =>
        obtain ⟨rfl, -⟩ := List.cons.inj hl
        cases hrun
        exact hfirst
      | cons _ before =>
        obtain ⟨rfl, htail⟩ := List.cons.inj hl
        rw [List.foldlM_cons, run_bind] at hrun
        cases hstep : (f s first).run with
        | none =>
          rw [hstep] at hrun
          cases hrun
        | some r =>
          rw [hstep, Option.bind_some] at hrun
          cases r with
          | error e => cases hrun
          | ok middle => exact (ih middle).1 (hrest middle hstep) before a after s' htail hrun
    · intro h
      refine ⟨h [] first l s rfl rfl, fun middle hstep => (ih middle).2 ?_⟩
      intro before a after s' hl hrun
      refine h (first :: before) a after s' (by rw [hl, List.cons_append]) ?_
      rw [List.foldlM_cons, run_bind, hstep, Option.bind_some]
      exact hrun

/-! ## What it computes where it does not fault -/

/-- Where `x` does not fault it refuses if `y` does, and else returns what agrees with `y`. -/
def Follows (x : Checked ε α) (y : Option β) (R : α → β → Prop) : Prop :=
  (∀ e, x.run = some (.error e) → y = none) ∧
    ∀ a, x.run = some (.ok a) → ∃ b, y = some b ∧ R a b

section Follows

variable {γ δ : Type} {y : Option β} {R : α → β → Prop} {S : γ → δ → Prop}

theorem follows_pure {a : α} {b : β} (h : R a b) : Follows (pure a : Checked ε α) (some b) R :=
  ⟨fun _ hrun => (nomatch hrun), fun _ hrun => by cases hrun; exact ⟨b, rfl, h⟩⟩

theorem follows_throw (e : ε) : Follows (throw e : Checked ε α) (none : Option β) R :=
  ⟨fun _ _ => rfl, fun _ hrun => nomatch hrun⟩

theorem follows_fault : Follows (fault : Checked ε α) y R := by
  constructor
  · intro e hrun
    cases hrun
  · intro a hrun
    cases hrun

theorem Follows.bind {f : α → Checked ε γ} {g : β → Option δ} (h : Follows x y R)
    (hf : ∀ a b, R a b → Follows (f a) (g b) S) : Follows (x >>= f) (y.bind g) S := by
  unfold Follows
  rw [run_bind]
  cases hrun : x.run with
  | none => exact ⟨fun _ hnone => (nomatch hnone), fun _ hnone => (nomatch hnone)⟩
  | some r =>
    cases r with
    | error e =>
      rw [h.1 e hrun]
      exact ⟨fun _ _ => rfl, fun _ hok => nomatch hok⟩
    | ok a =>
      obtain ⟨b, rfl, hR⟩ := h.2 a hrun
      exact hf a b hR

theorem Follows.require_bind {p : Prop} [Decidable p] {f : Unit → Checked ε α}
    (h : p → Follows (f ()) y R) : Follows (require p >>= f) y R := by
  by_cases hp : p
  · rw [require, if_pos hp, pure_bind]
    exact h hp
  · rw [require, if_neg hp]
    exact ⟨fun _ hnone => (nomatch hnone), fun _ hnone => (nomatch hnone)⟩

theorem Follows.ok_of_some {b : β} (h : Follows x y R) (hx : x.run ≠ none) (hy : y = some b) :
    ∃ a, x.run = some (.ok a) ∧ R a b := by
  obtain ⟨r, hrun⟩ := Option.ne_none_iff_exists'.1 hx
  cases r with
  | error e =>
    rw [h.1 e hrun] at hy
    cases hy
  | ok a =>
    obtain ⟨b', hy', hR⟩ := h.2 a hrun
    rw [hy', Option.some.injEq] at hy
    exact ⟨a, hrun, hy ▸ hR⟩

end Follows

/-! ## What returns under a condition only -/

/-- `x` returns what satisfies `Q` if `p` holds, and faults if not. -/
def OkIff (p : Prop) (x : Checked ε α) (Q : α → Prop) : Prop :=
  (p → ∃ a, x.run = some (.ok a) ∧ Q a) ∧ (¬ p → x.run = none)

section OkIff

variable {p q : Prop}

theorem okIff_pure {a : α} (h : Q a) : OkIff True (pure a : Checked ε α) Q :=
  ⟨fun _ => ⟨a, rfl, h⟩, fun hp => absurd trivial hp⟩

theorem OkIff.mono (h : OkIff p x Q) (himp : ∀ a, Q a → R a) : OkIff p x R := by
  refine ⟨fun hp => ?_, h.2⟩
  obtain ⟨a, hrun, hQ⟩ := h.1 hp
  exact ⟨a, hrun, himp a hQ⟩

theorem OkIff.bind {f : α → Checked ε β} {R : β → Prop} (h : OkIff p x Q)
    (hf : ∀ a, Q a → OkIff q (f a) R) : OkIff (p ∧ q) (x >>= f) R := by
  unfold OkIff
  rw [run_bind]
  by_cases hp : p
  · obtain ⟨a, hrun, hQ⟩ := h.1 hp
    rw [hrun, Option.bind_some]
    exact ⟨fun hpq => (hf a hQ).1 hpq.2, fun hnot => (hf a hQ).2 fun hq => hnot ⟨hp, hq⟩⟩
  · rw [h.2 hp]
    exact ⟨fun hpq => absurd hpq.1 hp, fun _ => rfl⟩

theorem OkIff.require_bind [Decidable p] {f : Unit → Checked ε α} (h : OkIff q (f ()) Q) :
    OkIff (p ∧ q) (require p >>= f) Q := by
  refine OkIff.bind (Q := fun _ => True) ⟨fun hp => ?_, fun hp => ?_⟩ fun _ _ => h
  · rw [require, if_pos hp]
    exact ⟨(), rfl, trivial⟩
  · rw [require, if_neg hp]
    rfl

theorem OkIff.of_follows {y : Option β} {S : α → β → Prop} {b : β} (h : Follows x y S)
    (hx : x.run ≠ none ↔ p) (hy : y = some b) : OkIff p x fun a => S a b := by
  refine ⟨fun hp => h.ok_of_some (hx.2 hp) hy, fun hp => ?_⟩
  by_contra hrun
  exact hp (hx.1 hrun)

theorem OkIff.iff (h : OkIff p x Q) : (∃ a, x.run = some (.ok a) ∧ Q a) ↔ p := by
  refine ⟨fun ⟨a, hrun, _⟩ => ?_, h.1⟩
  by_contra hp
  rw [h.2 hp] at hrun
  cases hrun

theorem OkIff.congr (h : OkIff p x Q) (hpq : p ↔ q) : OkIff q x Q := by
  rwa [← hpq]

end OkIff

end Checked
