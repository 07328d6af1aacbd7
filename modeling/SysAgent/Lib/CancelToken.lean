import SysAgent.Lib.Mailbox

set_option autoImplicit false

/-! # A cancel token beside a one-slot mailbox

The worker of a mailbox (`Mailbox.Protocol`) runs a batch as a sequence of units. A cancel only sets
a token; the worker looks at it before it begins a unit, and clears it on every turn of its loop.
Two loops differ in how many units they begin without a look (`unchecked`), and in whether the token
is cleared before or after the pause that ends a turn (`resetsFirst`).

Nothing in the token says what it was meant for. `Lawful` says what a cancel is for: no unit begins
of a batch that was cancelled since it was accepted (`stopped`), and a batch is cut only if a cancel
came while something was accepted (`whole`). The law holds as long as commands are `Timely`, that is
every cancel finds its batch `Reachable` and every batch is handed over while no token that was
meant for nothing is left standing (`Ready`): `inv_step` and `lawful_of_inv`. From any command out
of time the worker breaks it by itself: `exists_broken`. -/

namespace CancelToken

/-- A worker loop over batches of units `υ`. -/
structure Loop (γ ω υ : Type*) extends Mailbox.Protocol γ ω where
  units : ω → List υ
  unchecked : Nat
  resetsFirst : Bool

/-- Where the worker stands; `reset` and `pause` end a turn, in the order of the loop. -/
inductive Pc
  | look
  | lock
  | running
  | reset
  | pause
  deriving DecidableEq

/-- The shared variables and the worker, with four ghosts: the units begun, whether a cancel came
    since the batch in the slot was accepted, and whether one came while something was accepted
    since the token was last cleared. `left` holds the units of the running batch not yet begun. -/
structure State (γ υ : Type*) where
  shared : γ
  token : Bool
  pc : Pc
  left : List υ
  begun : List υ
  cancelled : Bool
  aimed : Bool

inductive Event (ω : Type*)
  | put (b : ω)
  | cancel
  | worker

variable {γ ω υ : Type*} (L : Loop γ ω υ)

namespace Loop

def start : State γ υ :=
  { shared := L.init, token := false, pc := .look, left := [], begun := [], cancelled := false,
    aimed := false }

/-- The units of the batch in the slot. -/
def batch (s : State γ υ) : List υ :=
  (L.content s.shared).elim [] L.units

/-- Where a turn goes on behind the batch. -/
def tail : Pc :=
  if L.resetsFirst then .reset else .pause

theorem tail_ne : L.tail ≠ .lock ∧ L.tail ≠ .running := by
  unfold tail
  split <;> simp

/-- The slot is cleared and the mutex released. -/
def finish (s : State γ υ) : State γ υ :=
  { s with shared := L.clear s.shared, left := [], cancelled := false, pc := L.tail }

/-- One step of the worker. The look at the token and the begin of the unit it allows are one. -/
def turn (s : State γ υ) : State γ υ :=
  match s.pc with
  | .look => { s with pc := if L.full s.shared then .lock else L.tail }
  | .lock =>
    { s with
      pc := .running
      left := (L.batch s).drop L.unchecked
      begun := s.begun ++ (L.batch s).take L.unchecked }
  | .running =>
    match s.left with
    | [] => L.finish s
    | u :: left => if s.token then L.finish s else { s with left := left, begun := s.begun ++ [u] }
  | .reset =>
    { s with token := false, aimed := false, pc := if L.resetsFirst then .pause else .look }
  | .pause => { s with pc := if L.resetsFirst then .look else .reset }

/-- While the worker runs a batch it holds the mutex, and a store waits for it. -/
def step (s : State γ υ) : Event ω → State γ υ
  | .put b =>
    if s.pc = .running then s else { s with shared := L.put s.shared b, cancelled := false }
  | .cancel =>
    { s with
      token := true
      cancelled := s.cancelled || L.full s.shared
      aimed := s.aimed || L.full s.shared }
  | .worker => L.turn s

/-! ## The law and its exact condition -/

/-- What cancels are for. -/
structure Lawful (s : State γ υ) (e : Event ω) : Prop where
  stopped : (L.step s e).begun ≠ s.begun → s.cancelled = false
  whole : s.pc = .running → (L.step s e).pc ≠ .running → s.left ≠ [] → s.aimed = true

/-- From here the worker clears the token before it looks into the slot. -/
def clearsFirst : Pc → Bool
  | .reset => true
  | .pause => !L.resetsFirst
  | .look | .lock | .running => false

/-- A token set now is seen before the next unit of an accepted batch begins. -/
def Reachable (s : State γ υ) : Prop :=
  s.pc = .running ∨ L.unchecked = 0 ∧ L.clearsFirst s.pc = false

/-- No token that was meant for nothing can cut a batch `b` that is handed over now. -/
def Ready (s : State γ υ) (b : ω) : Prop :=
  s.token = true → s.aimed = false → L.clearsFirst s.pc = true ∨ (L.units b).length ≤ L.unchecked

/-- A command is given when it does what it is for. -/
def Timely (s : State γ υ) : Event ω → Prop
  | .put b => s.pc ≠ .running → L.Ready s b
  | .cancel => L.full s.shared = true → L.batch s ≠ [] → L.Reachable s
  | .worker => True

structure Inv (s : State γ υ) : Prop where
  seen : L.full s.shared = true → L.batch s ≠ [] → s.cancelled = true →
    s.token = true ∧ L.Reachable s
  stale : L.full s.shared = true → s.token = true → s.aimed = false →
    L.clearsFirst s.pc = true ∨ (L.batch s).length ≤ L.unchecked
  taken : s.pc = .lock ∨ s.pc = .running → L.full s.shared = true
  rest : s.pc = .running → s.left ≠ [] → s.left.length + L.unchecked ≤ (L.batch s).length

variable {L}

theorem inv_start : L.Inv L.start := by
  have hempty : L.full L.start.shared = false := L.full_init
  constructor
  · intro hfull
    exact absurd hfull (by simp [hempty])
  · intro hfull
    exact absurd hfull (by simp [hempty])
  · rintro (hpc | hpc) <;> cases hpc
  · intro hpc
    cases hpc

/-! ## What each event keeps -/

theorem batch_put (s : State γ υ) (b : ω) (pc : Pc) (cancelled : Bool) :
    L.batch { s with shared := L.put s.shared b, pc := pc, cancelled := cancelled } =
      L.units b := by
  simp [batch, L.content_put]

theorem inv_put {s : State γ υ} {b : ω} (h : L.Inv s) (hready : s.pc ≠ .running → L.Ready s b) :
    L.Inv (L.step s (.put b)) := by
  by_cases hpc : s.pc = .running
  · simpa only [step, if_pos hpc] using h
  · simp only [step, if_neg hpc]
    constructor
    · intro _ _ hcancelled
      cases hcancelled
    · intro _ htoken haimed
      rw [batch_put s b s.pc]
      exact hready hpc htoken haimed
    · intro _
      exact L.full_put s.shared b
    · intro hrun
      exact absurd hrun hpc

theorem inv_cancel {s : State γ υ} (h : L.Inv s)
    (hreach : L.full s.shared = true → L.batch s ≠ [] → L.Reachable s) :
    L.Inv (L.step s .cancel) := by
  constructor
  · intro hfull hbatch _
    exact ⟨rfl, hreach hfull hbatch⟩
  · intro hfull _ haimed
    have hfull' : L.full s.shared = true := hfull
    simp [step, hfull'] at haimed
  · exact h.taken
  · exact h.rest

/-- Behind a batch the slot is empty. -/
theorem inv_finish (s : State γ υ) : L.Inv (L.finish s) := by
  have hempty : L.full (L.finish s).shared = false := L.full_clear s.shared
  constructor
  · intro hfull
    exact absurd hfull (by simp [hempty])
  · intro hfull
    exact absurd hfull (by simp [hempty])
  · rintro (hpc | hpc)
    · exact absurd hpc L.tail_ne.1
    · exact absurd hpc L.tail_ne.2
  · intro hpc
    exact absurd hpc L.tail_ne.2

/-- Where the worker stands matters to the invariant only through what it will clear. -/
theorem Inv.move {s : State γ υ} (h : L.Inv s) (pc : Pc)
    (hpc : L.full s.shared = true → s.pc ≠ .running ∧ L.clearsFirst pc = L.clearsFirst s.pc)
    (htaken : pc = .lock → L.full s.shared = true) (hrun : pc ≠ .running) :
    L.Inv { s with pc := pc } := by
  constructor
  · intro hfull hbatch hcancelled
    obtain ⟨hnot, hsame⟩ := hpc hfull
    obtain ⟨htoken, hreach⟩ := h.seen hfull hbatch hcancelled
    refine ⟨htoken, Or.inr ?_⟩
    rcases hreach with hrunning | ⟨hchecked, hclears⟩
    · exact absurd hrunning hnot
    · exact ⟨hchecked, hsame.trans hclears⟩
  · intro hfull htoken haimed
    rw [(hpc hfull).2]
    exact h.stale hfull htoken haimed
  · rintro (hlock | hrunning)
    · exact htaken hlock
    · exact absurd hrunning hrun
  · intro hrunning
    exact absurd hrunning hrun

theorem inv_turn {s : State γ υ} (h : L.Inv s) : L.Inv (L.turn s) := by
  cases hs : s.pc with
  | look =>
    simp only [turn, hs]
    cases hfull : L.full s.shared with
    | true =>
      exact h.move .lock (fun _ => by simp [hs, clearsFirst]) (fun _ => hfull) (by simp)
    | false =>
      refine h.move L.tail (fun hf => absurd hf (by simp [hfull])) (fun hpc => ?_) L.tail_ne.2
      exact absurd hpc L.tail_ne.1
  | lock =>
    have hfull := h.taken (Or.inl hs)
    simp only [turn, hs]
    constructor
    · intro _ hbatch hcancelled
      exact ⟨(h.seen hfull hbatch hcancelled).1, Or.inl rfl⟩
    · intro _ htoken haimed
      -- neither here nor in the batch does the worker clear the token first
      have hstale := h.stale hfull htoken haimed
      rw [hs] at hstale
      exact hstale
    · intro _
      exact hfull
    · intro _ hleft
      have hlong : 0 < ((L.batch s).drop L.unchecked).length := List.length_pos_of_ne_nil hleft
      show ((L.batch s).drop L.unchecked).length + L.unchecked ≤ (L.batch s).length
      rw [List.length_drop] at hlong ⊢
      omega
  | running =>
    cases hleft : s.left with
    | nil =>
      simp only [turn, hs, hleft]
      exact inv_finish s
    | cons u left =>
      simp only [turn, hs, hleft]
      cases htoken : s.token with
      | true => exact inv_finish s
      | false =>
        have hrest := h.rest hs (by simp [hleft])
        rw [hleft, List.length_cons] at hrest
        constructor
        · intro hfull hbatch hcancelled
          exact absurd (h.seen hfull hbatch hcancelled).1 (by simp [htoken])
        · intro _ ht
          exact absurd ht (by simp)
        · intro _
          exact h.taken (Or.inr hs)
        · intro _ _
          show left.length + L.unchecked ≤ (L.batch s).length
          omega
  | reset =>
    simp only [turn, hs]
    have hclears : L.clearsFirst s.pc = true := by rw [hs]; rfl
    constructor
    · intro hfull hbatch hcancelled
      -- a cancel that finds the worker here is not seen, so there was none
      rcases (h.seen hfull hbatch hcancelled).2 with hrunning | ⟨-, hnot⟩
      · rw [hs] at hrunning
        cases hrunning
      · rw [hclears] at hnot
        cases hnot
    · intro _ htoken
      cases htoken
    · intro hpc
      split at hpc <;> simp at hpc
    · intro hpc
      split at hpc <;> simp at hpc
  | pause =>
    simp only [turn, hs]
    refine h.move _ (fun _ => ?_) ?_ ?_ <;>
      cases hreset : L.resetsFirst <;> simp [hs, clearsFirst, hreset]

theorem inv_step {s : State γ υ} (e : Event ω) (h : L.Inv s) (htimely : L.Timely s e) :
    L.Inv (L.step s e) := by
  cases e with
  | put b => exact inv_put h htimely
  | cancel => exact inv_cancel h htimely
  | worker => exact inv_turn h

/-! ## The law holds under the invariant -/

/-- The units begun on taking a batch belong to one that nothing cancelled. -/
theorem Inv.not_cancelled_of_taken {s : State γ υ} (h : L.Inv s) (hs : s.pc = .lock)
    (hbegins : (L.batch s).take L.unchecked ≠ []) : s.cancelled = false := by
  by_contra hcancelled
  have hfull := h.taken (Or.inl hs)
  have hbatch : L.batch s ≠ [] := fun hnil => hbegins (by simp [hnil])
  obtain ⟨-, hreach⟩ := h.seen hfull hbatch (by simpa using hcancelled)
  rcases hreach with hrunning | ⟨hchecked, -⟩
  · rw [hs] at hrunning
    cases hrunning
  · exact hbegins (by simp [hchecked])

/-- A unit left to run shows that the batch was not short enough to escape the token. -/
theorem Inv.aimed_of_token {s : State γ υ} (h : L.Inv s) (hs : s.pc = .running)
    (hleft : s.left ≠ []) (htoken : s.token = true) : s.aimed = true := by
  by_contra haimed
  have hrest := h.rest hs hleft
  have hlong : 0 < s.left.length := List.length_pos_of_ne_nil hleft
  rcases h.stale (h.taken (Or.inr hs)) htoken (by simpa using haimed) with hclears | hshort
  · rw [hs] at hclears
    cases hclears
  · omega

theorem Inv.not_cancelled_of_untouched {s : State γ υ} (h : L.Inv s) (hs : s.pc = .running)
    (hleft : s.left ≠ []) (htoken : s.token = false) : s.cancelled = false := by
  by_contra hcancelled
  have hrest := h.rest hs hleft
  have hbatch : L.batch s ≠ [] := by
    intro hnil
    rw [hnil, List.length_nil, Nat.le_zero, Nat.add_eq_zero_iff] at hrest
    exact hleft (List.eq_nil_of_length_eq_zero hrest.1)
  have hseen := (h.seen (h.taken (Or.inr hs)) hbatch (by simpa using hcancelled)).1
  rw [htoken] at hseen
  cases hseen

theorem lawful_worker {s : State γ υ} (h : L.Inv s) : L.Lawful s (.worker : Event ω) := by
  cases hs : s.pc with
  | look | reset | pause => constructor <;> simp [step, turn, hs]
  | lock =>
    constructor
    · intro hbegun
      refine h.not_cancelled_of_taken hs fun hnil => hbegun ?_
      simp [step, turn, hs, hnil]
    · intro hrun
      rw [hs] at hrun
      cases hrun
  | running =>
    cases hleft : s.left with
    | nil => constructor <;> simp [step, turn, finish, hs, hleft]
    | cons u left =>
      have hne : s.left ≠ [] := by simp [hleft]
      cases htoken : s.token with
      | true =>
        constructor
        · simp [step, turn, finish, hs, hleft, htoken]
        · exact fun _ _ _ => h.aimed_of_token hs hne htoken
      | false =>
        constructor
        · exact fun _ => h.not_cancelled_of_untouched hs hne htoken
        · simp [step, turn, hs, hleft, htoken]

theorem lawful_of_inv {s : State γ υ} (e : Event ω) (h : L.Inv s) : L.Lawful s e := by
  cases e with
  | put b =>
    by_cases hpc : s.pc = .running
    · constructor <;> simp [step, hpc]
    · constructor
      · simp [step, hpc]
      · exact fun hrun => absurd hrun hpc
  | cancel =>
    constructor
    · exact fun hbegun => absurd rfl hbegun
    · exact fun hrun hnot => absurd hrun hnot
  | worker => exact lawful_worker h

/-! ## A command out of time breaks it -/

/-- The worker with a batch in its slot takes it; the token and `aimed` are cleared on the way
    exactly where the loop clears first. -/
theorem exists_taken {s : State γ υ} (hfull : L.full s.shared = true) (hpc : s.pc ≠ .running) :
    ∃ n, Runs.run L.step s (List.replicate n (.worker : Event ω)) =
      { s with
        pc := .lock
        token := s.token && !L.clearsFirst s.pc
        aimed := s.aimed && !L.clearsFirst s.pc } := by
  cases hs : s.pc with
  | look => exact ⟨1, by simp [step, turn, hs, hfull, clearsFirst]⟩
  | lock => exact ⟨0, by cases s; simp_all [clearsFirst]⟩
  | running => exact absurd hs hpc
  | reset =>
    cases hreset : L.resetsFirst with
    | true =>
      exact ⟨3, by simp [List.replicate, step, turn, hs, hfull, hreset, clearsFirst]⟩
    | false =>
      exact ⟨2, by simp [List.replicate, step, turn, hs, hfull, hreset, clearsFirst]⟩
  | pause =>
    cases hreset : L.resetsFirst with
    | true =>
      exact ⟨2, by simp [List.replicate, step, turn, hs, hfull, hreset, clearsFirst]⟩
    | false =>
      exact ⟨3, by simp [List.replicate, step, turn, hs, hfull, hreset, clearsFirst]⟩

/-- The worker that has taken a batch breaks the law within two turns if a unit begins though the
    batch was cancelled, or a unit is cut off though no cancel was meant for anything. -/
theorem not_eachStep_of_taken {s : State γ υ} (hs : s.pc = .lock)
    (hbad : (s.cancelled = true ∧ (L.batch s).take L.unchecked ≠ []) ∨
      (s.cancelled = true ∧ s.token = false ∧ L.unchecked = 0 ∧ L.batch s ≠ []) ∨
      (s.aimed = false ∧ s.token = true ∧ L.unchecked < (L.batch s).length)) :
    ¬ Runs.EachStep L.step L.Lawful s [(.worker : Event ω), .worker] := by
  intro h
  obtain ⟨hfirst, h⟩ := Runs.eachStep_cons.1 h
  obtain ⟨hsecond, -⟩ := Runs.eachStep_cons.1 h
  rcases hbad with ⟨hcancelled, hbegins⟩ | ⟨hcancelled, htoken, hchecked, hbatch⟩ |
    ⟨haimed, htoken, hlong⟩
  · have hnot := hfirst.stopped (by simpa [step, turn, hs] using hbegins)
    rw [hcancelled] at hnot
    cases hnot
  · obtain ⟨u, left, hleft⟩ := List.exists_cons_of_ne_nil hbatch
    have hnot := hsecond.stopped (by simp [step, turn, hs, hchecked, hleft, htoken])
    simp only [step, turn, hs, hcancelled] at hnot
    cases hnot
  · have hne : (L.batch s).drop L.unchecked ≠ [] := by
      rw [Ne, List.drop_eq_nil_iff]
      omega
    obtain ⟨u, left, hleft⟩ := List.exists_cons_of_ne_nil hne
    have hmeant := hsecond.whole (by simp [step, turn, hs])
      (by simpa [step, turn, hs, hleft, htoken, finish] using L.tail_ne.2)
      (by simp [step, turn, hs, hleft])
    simp only [step, turn, hs, haimed] at hmeant
    cases hmeant

/-- The same of a worker that has yet to take the batch. -/
theorem exists_not_eachStep {s : State γ υ} (hfull : L.full s.shared = true)
    (hpc : s.pc ≠ .running)
    (hbad : (s.cancelled = true ∧ (L.batch s).take L.unchecked ≠ []) ∨
      (s.cancelled = true ∧ L.clearsFirst s.pc = true ∧ L.unchecked = 0 ∧ L.batch s ≠ []) ∨
      (s.aimed = false ∧ s.token = true ∧ L.clearsFirst s.pc = false ∧
        L.unchecked < (L.batch s).length)) :
    ∃ n, ¬ Runs.EachStep L.step L.Lawful s (List.replicate n (.worker : Event ω)) := by
  obtain ⟨n, hrun⟩ := exists_taken (ω := ω) hfull hpc
  refine ⟨n + 2, ?_⟩
  rw [List.replicate_add, Runs.eachStep_append, hrun]
  rintro ⟨-, hrest⟩
  refine not_eachStep_of_taken rfl ?_ hrest
  rcases hbad with ⟨hcancelled, hbegins⟩ | ⟨hcancelled, hclears, hchecked, hbatch⟩ |
    ⟨haimed, htoken, hclears, hlong⟩
  · exact Or.inl ⟨hcancelled, hbegins⟩
  · exact Or.inr (Or.inl ⟨hcancelled, by simp [hclears], hchecked, hbatch⟩)
  · exact Or.inr (Or.inr ⟨by simp [haimed], by simp [htoken, hclears], hlong⟩)

theorem exists_broken_of_put {s : State γ υ} {b : ω} (hpc : s.pc ≠ .running)
    (hready : ¬ L.Ready s b) :
    ∃ n, ¬ Runs.EachStep L.step L.Lawful (L.step s (.put b)) (List.replicate n .worker) := by
  simp only [Ready, Classical.not_imp, not_or, Bool.not_eq_true, not_le] at hready
  obtain ⟨htoken, haimed, hclears, hlong⟩ := hready
  simp only [step, if_neg hpc]
  refine exists_not_eachStep (L.full_put s.shared b) hpc (Or.inr (Or.inr ?_))
  rw [batch_put s b s.pc]
  exact ⟨haimed, htoken, hclears, hlong⟩

theorem exists_broken_of_cancel {s : State γ υ} (hfull : L.full s.shared = true)
    (hbatch : L.batch s ≠ []) (hreach : ¬ L.Reachable s) :
    ∃ n, ¬ Runs.EachStep L.step L.Lawful (L.step s .cancel)
      (List.replicate n (.worker : Event ω)) := by
  simp only [Reachable, not_or, not_and, Bool.not_eq_false] at hreach
  obtain ⟨hpc, hclears⟩ := hreach
  have hcancelled : (L.step s (.cancel : Event ω)).cancelled = true := by simp [step, hfull]
  refine exists_not_eachStep hfull hpc ?_
  by_cases hchecked : L.unchecked = 0
  · exact Or.inr (Or.inl ⟨hcancelled, hclears hchecked, hchecked, hbatch⟩)
  · refine Or.inl ⟨hcancelled, fun hnil => ?_⟩
    rcases List.take_eq_nil_iff.1 hnil with hzero | hempty
    · exact hchecked hzero
    · exact hbatch hempty

/-- A command out of time leads to a state in which the worker breaks the law by itself. -/
theorem exists_broken {s : State γ υ} (e : Event ω) (hnot : ¬ L.Timely s e) :
    ∃ n, ¬ Runs.EachStep L.step L.Lawful (L.step s e) (List.replicate n .worker) := by
  cases e with
  | put b =>
    simp only [Timely, Classical.not_imp] at hnot
    exact exists_broken_of_put hnot.1 hnot.2
  | cancel =>
    simp only [Timely, Classical.not_imp] at hnot
    exact exists_broken_of_cancel hnot.1 hnot.2.1 hnot.2.2
  | worker => exact absurd trivial hnot

end Loop

end CancelToken
