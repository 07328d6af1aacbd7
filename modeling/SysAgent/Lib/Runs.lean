import Mathlib.Data.List.Infix

set_option autoImplicit false

/-! # Runs of a deterministic labelled machine

A machine is a total function `step : σ → α → σ`; the labels carry everything the environment
chooses (which thread moves, what a system call answers). A run is a list of labels, so "for every
interleaving" is a quantifier over lists.

`Always good` says that every state a run passes through is good, `EachStep ok` that every step is
taken in a state that allows it. `invariant_of_eachStep` is the invariant rule, and
`always_iff_eachStep` its exact form: when a step outside `ok` always spoils `good`, a run is good
throughout *iff* each of its steps is allowed. `forall_future_iff` is the form for a law about steps
that a step outside `ok` need not break at once: it leads to a state from which the machine breaks
the law by itself. -/

namespace Runs

variable {σ α : Type*} (step : σ → α → σ)

/-- The state a run of labels ends in. -/
def run (s : σ) (as : List α) : σ :=
  as.foldl step s

@[simp] theorem run_nil (s : σ) : run step s [] = s := rfl

@[simp] theorem run_cons (s : σ) (a : α) (as : List α) :
    run step s (a :: as) = run step (step s a) as := rfl

theorem run_append (s : σ) (as bs : List α) :
    run step s (as ++ bs) = run step (run step s as) bs := by
  simp only [run, List.foldl_append]

theorem run_concat (s : σ) (as : List α) (a : α) :
    run step s (as ++ [a]) = step (run step s as) a := by
  simp only [run, List.foldl_append, List.foldl_cons, List.foldl_nil]

/-- Every state of the run, the first and the last included, is good. -/
def Always (good : σ → Prop) (s : σ) (as : List α) : Prop :=
  ∀ p, p <+: as → good (run step s p)

/-- Every step of the run is taken with a label the state before it allows. -/
def EachStep (ok : σ → α → Prop) (s : σ) (as : List α) : Prop :=
  ∀ p a, p ++ [a] <+: as → ok (run step s p) a

variable {step}

theorem Always.first {good : σ → Prop} {s : σ} {as : List α} (h : Always step good s as) :
    good s :=
  h [] List.nil_prefix

theorem Always.last {good : σ → Prop} {s : σ} {as : List α} (h : Always step good s as) :
    good (run step s as) :=
  h as (List.prefix_refl as)

theorem always_nil {good : σ → Prop} {s : σ} : Always step good s [] ↔ good s := by
  constructor
  · exact Always.first
  · intro hs p hp
    rw [List.prefix_nil.1 hp]
    exact hs

theorem always_cons {good : σ → Prop} {s : σ} {a : α} {as : List α} :
    Always step good s (a :: as) ↔ good s ∧ Always step good (step s a) as := by
  constructor
  · intro h
    refine ⟨h.first, fun p hp => ?_⟩
    exact h (a :: p) (List.cons_prefix_cons.2 ⟨rfl, hp⟩)
  · rintro ⟨hs, h⟩ p hp
    cases p with
    | nil => exact hs
    | cons b p =>
      obtain ⟨rfl, hp'⟩ := List.cons_prefix_cons.1 hp
      exact h p hp'

theorem eachStep_nil {ok : σ → α → Prop} {s : σ} : EachStep step ok s [] := by
  intro p a hp
  simp at hp

theorem eachStep_cons {ok : σ → α → Prop} {s : σ} {a : α} {as : List α} :
    EachStep step ok s (a :: as) ↔ ok s a ∧ EachStep step ok (step s a) as := by
  constructor
  · intro h
    refine ⟨h [] a (by simp), fun p b hp => ?_⟩
    exact h (a :: p) b (by simpa using hp)
  · rintro ⟨ha, h⟩ p b hp
    cases p with
    | nil =>
      obtain ⟨rfl, -⟩ := List.cons_prefix_cons.1 (by simpa using hp : b :: [] <+: a :: as)
      exact ha
    | cons c p =>
      obtain ⟨rfl, hp'⟩ := List.cons_prefix_cons.1 hp
      exact h p b hp'

theorem eachStep_append {ok : σ → α → Prop} {s : σ} {as bs : List α} :
    EachStep step ok s (as ++ bs) ↔
      EachStep step ok s as ∧ EachStep step ok (run step s as) bs := by
  induction as generalizing s with
  | nil => simp [eachStep_nil]
  | cons a as ih => rw [List.cons_append, eachStep_cons, eachStep_cons, ih, run_cons, and_assoc]

instance decidableEachStep {ok : σ → α → Prop} [∀ s a, Decidable (ok s a)] :
    ∀ s as, Decidable (EachStep step ok s as)
  | _, [] => isTrue eachStep_nil
  | s, a :: as =>
    have : Decidable (EachStep step ok (step s a) as) := decidableEachStep (step s a) as
    decidable_of_iff (ok s a ∧ EachStep step ok (step s a) as) eachStep_cons.symm

/-- Steps that a machine takes in one of its parts are lawful as the steps of that part are. -/
theorem eachStep_map {τ β : Type*} {step' : τ → β → τ} (part : τ → σ) {f : α → β}
    {law : σ → α → Prop} {law' : τ → β → Prop}
    (hstep : ∀ t a, part (step' t (f a)) = step (part t) a)
    (hlaw : ∀ t a, law' t (f a) → law (part t) a) {t : τ} {as : List α}
    (h : EachStep step' law' t (as.map f)) : EachStep step law (part t) as := by
  induction as generalizing t with
  | nil => exact eachStep_nil
  | cons a as ih =>
    obtain ⟨ha, has⟩ := eachStep_cons.1 h
    have hrest := ih has
    rw [hstep] at hrest
    exact eachStep_cons.2 ⟨hlaw t a ha, hrest⟩

/-- The invariant rule: a property kept by every allowed step holds at the end of a run whose
    steps are all allowed. -/
theorem invariant_of_eachStep {Inv : σ → Prop} {ok : σ → α → Prop}
    (hstep : ∀ s a, Inv s → ok s a → Inv (step s a)) {s : σ} {as : List α} (hs : Inv s)
    (hok : EachStep step ok s as) : Inv (run step s as) := by
  induction as generalizing s with
  | nil => exact hs
  | cons a as ih =>
    obtain ⟨ha, has⟩ := eachStep_cons.1 hok
    exact ih (hstep s a hs ha) has

/-- The rule for a law about steps: under an invariant that allowed steps keep, they obey it. -/
theorem eachStep_law {Inv : σ → Prop} {ok law : σ → α → Prop}
    (hstep : ∀ s a, Inv s → ok s a → Inv (step s a)) (hlaw : ∀ s a, Inv s → ok s a → law s a)
    {s : σ} {as : List α} (hs : Inv s) (hok : EachStep step ok s as) :
    EachStep step law s as := by
  induction as generalizing s with
  | nil => exact eachStep_nil
  | cons a as ih =>
    obtain ⟨ha, has⟩ := eachStep_cons.1 hok
    exact eachStep_cons.2 ⟨hlaw s a hs ha, ih (hstep s a hs ha) has⟩

/-- The unconditional invariant rule. -/
theorem invariant_run {Inv : σ → Prop} (hstep : ∀ s a, Inv s → Inv (step s a)) {s : σ}
    (as : List α) (hs : Inv s) : Inv (run step s as) := by
  induction as generalizing s with
  | nil => exact hs
  | cons a as ih => exact ih (hstep s a hs)

/-- If no step makes a bad state good, a run that ends in a good state is good throughout. -/
theorem always_of_last {Inv good : σ → Prop} (hstep : ∀ s a, Inv s → Inv (step s a))
    (hback : ∀ s a, Inv s → good (step s a) → good s) {s : σ} {as : List α} (hs : Inv s)
    (hlast : good (run step s as)) : Always step good s as := by
  induction as generalizing s with
  | nil => exact always_nil.2 hlast
  | cons a as ih =>
    have hrest := ih (hstep s a hs) hlast
    exact always_cons.2 ⟨hback s a hs hrest.first, hrest⟩

/-- The exact rule, for runs that stay `within` given limits: if an allowed step keeps the
    invariant and any other step spoils `good`, then a run is good throughout iff each of its
    steps is allowed. -/
theorem always_iff_eachStep {Inv good within : σ → Prop} {ok : σ → α → Prop}
    (hstep : ∀ s a, Inv s → ok s a → within (step s a) → Inv (step s a))
    (hgood : ∀ s, Inv s → good s)
    (hbreak : ∀ s a, Inv s → ¬ ok s a → ¬ good (step s a)) {s : σ} {as : List α} (hs : Inv s)
    (hwithin : Always step within s as) :
    Always step good s as ↔ EachStep step ok s as := by
  induction as generalizing s with
  | nil => exact iff_of_true (always_nil.2 (hgood s hs)) eachStep_nil
  | cons a as ih =>
    obtain ⟨-, hwithin'⟩ := always_cons.1 hwithin
    rw [always_cons, eachStep_cons]
    constructor
    · rintro ⟨-, h⟩
      have ha : ok s a := by
        by_contra hna
        exact hbreak s a hs hna h.first
      exact ⟨ha, (ih (hstep s a hs ha hwithin'.first) hwithin').1 h⟩
    · rintro ⟨ha, h⟩
      exact ⟨hgood s hs, (ih (hstep s a hs ha hwithin'.first) hwithin').2 h⟩

/-- The exact rule for runs without limits. -/
theorem always_iff_eachStep_unbounded {Inv good : σ → Prop} {ok : σ → α → Prop}
    (hstep : ∀ s a, Inv s → ok s a → Inv (step s a)) (hgood : ∀ s, Inv s → good s)
    (hbreak : ∀ s a, Inv s → ¬ ok s a → ¬ good (step s a)) {s : σ} {as : List α} (hs : Inv s) :
    Always step good s as ↔ EachStep step ok s as :=
  have hwithin : Always step (fun _ => True) s as := fun _ _ => trivial
  always_iff_eachStep (fun s a h ha _ => hstep s a h ha) hgood hbreak hs hwithin

/-- The exact rule for a law about steps, over a run and all that the quiet labels alone can make
    of the states it passes through. -/
theorem forall_future_iff {Inv : σ → Prop} {ok law : σ → α → Prop} {quiet : α → Prop}
    (hstep : ∀ s a, Inv s → ok s a → Inv (step s a)) (hlaw : ∀ s a, Inv s → ok s a → law s a)
    (hquiet : ∀ s a, quiet a → ok s a)
    (hbreak : ∀ s a, Inv s → ¬ ok s a →
      ∃ more, (∀ b ∈ more, quiet b) ∧ ¬ EachStep step law s (a :: more))
    {s : σ} {as : List α} (hs : Inv s) :
    (∀ p, p <+: as → ∀ more, (∀ b ∈ more, quiet b) → EachStep step law s (p ++ more)) ↔
      EachStep step ok s as := by
  have halone : ∀ t more, Inv t → (∀ b ∈ more, quiet b) → EachStep step law t more := by
    intro t more ht hmore
    refine eachStep_law hstep hlaw ht fun p a hp => hquiet _ a (hmore a ?_)
    exact hp.subset (List.mem_append_right p (List.mem_singleton_self a))
  induction as generalizing s with
  | nil =>
    refine iff_of_true (fun p hp more hmore => ?_) eachStep_nil
    rw [List.prefix_nil.1 hp]
    exact halone s more hs hmore
  | cons a as ih =>
    rw [eachStep_cons]
    constructor
    · intro h
      have ha : ok s a := by
        by_contra hna
        obtain ⟨more, hmore, hbad⟩ := hbreak s a hs hna
        exact hbad (h [a] (by simp) more hmore)
      refine ⟨ha, (ih (hstep s a hs ha)).1 fun p hp more hmore => ?_⟩
      exact (eachStep_cons.1 (h (a :: p) (List.cons_prefix_cons.2 ⟨rfl, hp⟩) more hmore)).2
    · rintro ⟨ha, has⟩ p hp more hmore
      cases p with
      | nil => exact halone s more hs hmore
      | cons b p =>
        obtain ⟨rfl, hp'⟩ := List.cons_prefix_cons.1 hp
        exact eachStep_cons.2
          ⟨hlaw s b hs ha, (ih (hstep s b hs ha)).2 has p hp' more hmore⟩

/-- The same for a property of the states: a step outside `ok` leads, by quiet labels alone, to a
    state that is not good. -/
theorem forall_reached_iff {Inv good : σ → Prop} {ok : σ → α → Prop} {quiet : α → Prop}
    (hstep : ∀ s a, Inv s → ok s a → Inv (step s a)) (hgood : ∀ s, Inv s → good s)
    (hquiet : ∀ s a, quiet a → ok s a)
    (hbreak : ∀ s a, Inv s → ¬ ok s a →
      ∃ more, (∀ b ∈ more, quiet b) ∧ ¬ good (run step s (a :: more)))
    {s : σ} {as : List α} (hs : Inv s) :
    (∀ p, p <+: as → ∀ more, (∀ b ∈ more, quiet b) → good (run step s (p ++ more))) ↔
      EachStep step ok s as := by
  have halone : ∀ t more, Inv t → (∀ b ∈ more, quiet b) → good (run step t more) := by
    intro t more ht hmore
    refine hgood _ (invariant_of_eachStep hstep ht fun p a hp => hquiet _ a (hmore a ?_))
    exact hp.subset (List.mem_append_right p (List.mem_singleton_self a))
  induction as generalizing s with
  | nil =>
    refine iff_of_true (fun p hp more hmore => ?_) eachStep_nil
    rw [List.prefix_nil.1 hp]
    exact halone s more hs hmore
  | cons a as ih =>
    rw [eachStep_cons]
    constructor
    · intro h
      have ha : ok s a := by
        by_contra hna
        obtain ⟨more, hmore, hbad⟩ := hbreak s a hs hna
        exact hbad (h [a] (by simp) more hmore)
      exact ⟨ha, (ih (hstep s a hs ha)).1 fun p hp more hmore =>
        h (a :: p) (List.cons_prefix_cons.2 ⟨rfl, hp⟩) more hmore⟩
    · rintro ⟨ha, has⟩ p hp more hmore
      cases p with
      | nil => exact halone s more hs hmore
      | cons b p =>
        obtain ⟨rfl, hp'⟩ := List.cons_prefix_cons.1 hp
        exact (ih (hstep s b hs ha)).2 has p hp' more hmore

/-- A flag that some steps raise and some clear is up behind a run iff it was up and no step has
    cleared it, or it was raised and not cleared since. -/
theorem flag_iff {Inv flag : σ → Prop} {raises clears : σ → α → Prop}
    (hstep : ∀ s a, Inv s → Inv (step s a))
    (hflag : ∀ s a, Inv s → (flag (step s a) ↔ ¬ clears s a ∧ (flag s ∨ raises s a)))
    {s : σ} {as : List α} (hs : Inv s) :
    flag (run step s as) ↔ (flag s ∧ EachStep step (fun t b => ¬ clears t b) s as) ∨
      ∃ before a after, as = before ++ a :: after ∧ raises (run step s before) a ∧
        EachStep step (fun t b => ¬ clears t b) (run step s before) (a :: after) := by
  induction as generalizing s with
  | nil =>
    constructor
    · exact fun h => .inl ⟨h, eachStep_nil⟩
    · rintro (⟨h, -⟩ | ⟨before, a, after, hsplit, -⟩)
      · exact h
      · exact absurd (congrArg List.length hsplit) (by simp)
  | cons a as ih =>
    rw [run_cons, ih (hstep s a hs), hflag s a hs, eachStep_cons]
    constructor
    · rintro (⟨⟨ha, hup | hraise⟩, has⟩ | ⟨before, b, after, rfl, hraise, hafter⟩)
      · exact .inl ⟨hup, ha, has⟩
      · exact .inr ⟨[], a, as, rfl, hraise, eachStep_cons.2 ⟨ha, has⟩⟩
      · exact .inr ⟨a :: before, b, after, rfl, hraise, hafter⟩
    · rintro (⟨hup, ha, has⟩ | ⟨before, b, after, hsplit, hraise, hafter⟩)
      · exact .inl ⟨⟨ha, .inl hup⟩, has⟩
      · cases before with
        | nil =>
          obtain ⟨rfl, rfl⟩ := List.cons.inj hsplit
          obtain ⟨ha, has⟩ := eachStep_cons.1 hafter
          exact .inl ⟨⟨ha, .inr hraise⟩, has⟩
        | cons c before =>
          obtain ⟨rfl, rfl⟩ := List.cons.inj hsplit
          exact .inr ⟨before, b, after, rfl, hraise, hafter⟩

end Runs
