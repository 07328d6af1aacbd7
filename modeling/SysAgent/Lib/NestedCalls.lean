import Mathlib.Data.List.Induction
import Mathlib.Data.List.ProdSigma
import Mathlib.Data.List.Perm.Basic
import Mathlib.Data.List.Nodup

set_option autoImplicit false

/-! # Windows of nested calls

A record of calls marks where each one is entered and left. Of a well nested record only a window
is kept: calls may have been entered before it, and may be left behind it. A stack that starts empty
at the window pairs the marks of one call, although it does not see whose they are. -/

namespace NestedCalls

inductive Site
  | enter
  | leave
  deriving DecidableEq

variable {ι β γ : Type*}

/-- Calls one after another, each with the calls it makes between its marks. -/
inductive WellNested : List (Site × ι) → Prop
  | nil : WellNested []
  | call (i : ι) {body rest : List (Site × ι)} (hbody : WellNested body) (hrest : WellNested rest) :
      WellNested ((.enter, i) :: body ++ (.leave, i) :: rest)

/-- A part of a well nested record in which no call has a mark twice. -/
def Window (marks : List (Site × ι)) : Prop :=
  ∃ before after, WellNested (before ++ marks ++ after) ∧ (before ++ marks ++ after).Nodup

/-! ## The calls that are open -/

/-- The marks lead from the open calls, the innermost first, to those open behind them. -/
inductive Opens : List ι → List (Site × ι) → List ι → Prop
  | nil (calls : List ι) : Opens calls [] calls
  | enter {i : ι} {calls calls' : List ι} {marks : List (Site × ι)}
      (h : Opens (i :: calls) marks calls') : Opens calls ((.enter, i) :: marks) calls'
  | leave {i : ι} {calls calls' : List ι} {marks : List (Site × ι)}
      (h : Opens calls marks calls') : Opens (i :: calls) ((.leave, i) :: marks) calls'

theorem Opens.append {calls between calls' : List ι} {marks later : List (Site × ι)}
    (h : Opens calls marks between) (hlater : Opens between later calls') :
    Opens calls (marks ++ later) calls' := by
  induction h with
  | nil => exact hlater
  | enter _ ih => exact .enter (ih hlater)
  | leave _ ih => exact .leave (ih hlater)

theorem Opens.split {calls calls' : List ι} {marks later : List (Site × ι)}
    (h : Opens calls (marks ++ later) calls') :
    ∃ between, Opens calls marks between ∧ Opens between later calls' := by
  induction marks generalizing calls with
  | nil => exact ⟨calls, .nil calls, h⟩
  | cons mark marks ih =>
    cases h with
    | enter h =>
      obtain ⟨between, hmarks, hlater⟩ := ih h
      exact ⟨between, .enter hmarks, hlater⟩
    | leave h =>
      obtain ⟨between, hmarks, hlater⟩ := ih h
      exact ⟨between, .leave hmarks, hlater⟩

/-- What is open before a well nested record is open behind it. -/
theorem WellNested.opens {marks : List (Site × ι)} (h : WellNested marks) (calls : List ι) :
    Opens calls marks calls := by
  induction h generalizing calls with
  | nil => exact .nil calls
  | call i _ _ ihBody ihRest => exact .enter ((ihBody (i :: calls)).append (.leave (ihRest calls)))

/-- The open calls are those with one mark of two. -/
structure OpenInv (marks : List (Site × ι)) (calls : List ι) : Prop where
  nodup : calls.Nodup
  mem_iff : ∀ i, i ∈ calls ↔ (.enter, i) ∈ marks ∧ (.leave, i) ∉ marks
  entered : ∀ i, (.leave, i) ∈ marks → (.enter, i) ∈ marks

theorem Opens.inv {marks : List (Site × ι)} {calls : List ι} (h : Opens [] marks calls)
    (hnodup : marks.Nodup) : OpenInv marks calls := by
  induction marks using List.reverseRecOn generalizing calls with
  | nil =>
    cases h
    exact ⟨List.nodup_nil, by simp, by simp⟩
  | append_singleton marks mark ih =>
    obtain ⟨between, hmarks, hlast⟩ := h.split
    obtain ⟨hnodup, -, hnew⟩ := List.nodup_append.mp hnodup
    replace hnew : mark ∉ marks := fun hmem => hnew mark hmem mark List.mem_cons_self rfl
    obtain ⟨hbetween, hiff, hentered⟩ := ih hmarks hnodup
    cases hlast with
    | @enter i _ _ _ hlast =>
      cases hlast
      -- the new call has not been left: it would have been entered before
      have hleft : (Site.leave, i) ∉ marks := fun hmem => hnew (hentered i hmem)
      refine ⟨List.nodup_cons.mpr ⟨fun hmem => hnew ((hiff i).mp hmem).1, hbetween⟩, ?_, ?_⟩
      · intro j
        rw [List.mem_cons, hiff]
        constructor
        · rintro (rfl | ⟨hj, hleft⟩)
          · simpa using hleft
          · simpa [hj] using hleft
        · rintro ⟨hj, hleft⟩
          by_cases hji : j = i
          · exact .inl hji
          · right
            simpa [hji] using And.intro hj hleft
      · intro j hj
        have hj : (Site.leave, j) ∈ marks := by simpa using hj
        exact List.mem_append_left _ (hentered j hj)
    | @leave i _ _ _ hlast =>
      cases hlast
      obtain ⟨hnot, hbetween⟩ := List.nodup_cons.mp hbetween
      have hi := (hiff i).mp List.mem_cons_self
      refine ⟨hbetween, ?_, ?_⟩
      · intro j
        by_cases hji : j = i
        · subst hji
          simpa using hnot
        · have hj := hiff j
          rw [List.mem_cons, or_iff_right hji] at hj
          simpa [hji] using hj
      · intro j hj
        rcases List.mem_append.mp hj with hj | hj
        · exact List.mem_append_left _ (hentered j hj)
        · obtain rfl : j = i := by simpa using hj
          exact List.mem_append_left _ hi.1

/-! ## Pairing by a stack -/

/-- `stack` has the entries without a partner, the latest first. -/
structure Paired (β : Type*) where
  stack : List β
  matched : List (β × β)

def Paired.empty : Paired β := ⟨[], []⟩

/-- A leave without an entry is passed over. -/
def step (paired : Paired β) (x : Site × β) : Paired β :=
  match x.1, paired.stack with
  | .enter, stack => { paired with stack := x.2 :: stack }
  | .leave, [] => paired
  | .leave, entry :: stack => { stack := stack, matched := paired.matched ++ [(entry, x.2)] }

def run (w : List (Site × β)) : Paired β := w.foldl step .empty

theorem run_concat (w : List (Site × β)) (x : Site × β) : run (w ++ [x]) = step (run w) x := by
  rw [run, List.foldl_append]
  rfl

def Paired.map (f : β → γ) (paired : Paired β) : Paired γ where
  stack := paired.stack.map f
  matched := paired.matched.map (Prod.map f f)

theorem step_map (f : β → γ) (paired : Paired β) (x : Site × β) :
    step (paired.map f) (x.1, f x.2) = (step paired x).map f := by
  obtain ⟨stack, matched⟩ := paired
  obtain ⟨site, b⟩ := x
  cases site with
  | enter => rfl
  | leave =>
    cases stack with
    | nil => rfl
    | cons entry stack => simp [step, Paired.map]

/-- The stack does not look at what it pairs. -/
theorem run_map (f : β → γ) (w : List (Site × β)) :
    run (w.map fun x => (x.1, f x.2)) = (run w).map f := by
  induction w using List.reverseRecOn with
  | nil => rfl
  | append_singleton w x ih =>
    rw [List.map_append, List.map_singleton, run_concat, run_concat, ih, step_map]

/-! ## A window of marked elements -/

/-- The marks of elements that carry their call. -/
def marks (w : List (Site × ι × β)) : List (Site × ι) := w.map fun x => (x.1, x.2.1)

theorem mem_marks {w : List (Site × ι × β)} {x : Site × ι × β} (h : x ∈ w) :
    (x.1, x.2.1) ∈ marks w :=
  List.mem_map_of_mem h

/-- An element is known by its mark. -/
theorem eq_of_marks {w : List (Site × ι × β)} (hnodup : (marks w).Nodup) {x y : Site × ι × β}
    (hx : x ∈ w) (hy : y ∈ w) (hsite : x.1 = y.1) (hcall : x.2.1 = y.2.1) : x = y :=
  List.inj_on_of_nodup_map hnodup hx hy (Prod.ext hsite hcall)

section Spec

variable [DecidableEq ι]

/-- The entry and the leave of each call that has both in the window. -/
def calls (w : List (Site × ι × β)) : List ((ι × β) × (ι × β)) :=
  (w.product w).filterMap fun (a, b) =>
    if a.1 = .enter ∧ b.1 = .leave ∧ a.2.1 = b.2.1 then some (a.2, b.2) else none

/-- The entries of the calls that are not left in the window. -/
def unfinished (w : List (Site × ι × β)) : List (ι × β) :=
  (w.filter fun a => a.1 = .enter ∧ (.leave, a.2.1) ∉ marks w).map Prod.snd

theorem mem_calls {w : List (Site × ι × β)} {entry leave : ι × β} :
    (entry, leave) ∈ calls w ↔ (.enter, entry) ∈ w ∧ (.leave, leave) ∈ w ∧ entry.1 = leave.1 := by
  unfold calls
  rw [List.mem_filterMap]
  constructor
  · rintro ⟨⟨⟨siteA, a⟩, ⟨siteB, b⟩⟩, hmem, h⟩
    obtain ⟨ha, hb⟩ := List.pair_mem_product.mp hmem
    simp only [Option.ite_none_right_eq_some, Option.some.injEq, Prod.mk.injEq] at h
    obtain ⟨⟨rfl, rfl, hsame⟩, rfl, rfl⟩ := h
    exact ⟨ha, hb, hsame⟩
  · rintro ⟨hentry, hleave, hsame⟩
    refine ⟨((.enter, entry), (.leave, leave)), List.pair_mem_product.mpr ⟨hentry, hleave⟩, ?_⟩
    simp [hsame]

theorem nodup_calls {w : List (Site × ι × β)} (hnodup : w.Nodup) : (calls w).Nodup := by
  refine (hnodup.product hnodup).filterMap ?_
  rintro ⟨⟨siteA, a⟩, ⟨siteB, b⟩⟩ ⟨⟨siteA', a'⟩, ⟨siteB', b'⟩⟩ c hc hc'
  simp only [Option.mem_def, Option.ite_none_right_eq_some, Option.some.injEq] at hc hc'
  obtain ⟨⟨rfl, rfl, -⟩, rfl⟩ := hc
  obtain ⟨⟨rfl, rfl, -⟩, hsame⟩ := hc'
  simp only [Prod.mk.injEq] at hsame
  rw [hsame.1, hsame.2]

theorem mem_unfinished {w : List (Site × ι × β)} {entry : ι × β} :
    entry ∈ unfinished w ↔ (.enter, entry) ∈ w ∧ (.leave, entry.1) ∉ marks w := by
  simp [unfinished]

theorem nodup_unfinished {w : List (Site × ι × β)} (hnodup : w.Nodup) :
    (unfinished w).Nodup := by
  refine List.Nodup.map_on ?_ (hnodup.filter _)
  rintro ⟨site, c⟩ hx ⟨site', c'⟩ hy rfl
  have hx := of_decide_eq_true (List.mem_filter.mp hx).2
  have hy := of_decide_eq_true (List.mem_filter.mp hy).2
  exact Prod.ext (hx.1.trans hy.1.symm) rfl

end Spec

/-- The stack above the calls that were entered before the window. -/
structure RunInv (before : List (Site × ι)) (current : List ι) (w : List (Site × ι × β))
    (paired : Paired (ι × β)) : Prop where
  opened : ∃ outer, current = paired.stack.map Prod.fst ++ outer ∧ ∀ i ∈ outer, (.enter, i) ∈ before
  entered : ∀ entry ∈ paired.stack, (.enter, entry) ∈ w
  matched : ∀ entry leave, (entry, leave) ∈ paired.matched ↔
    (.enter, entry) ∈ w ∧ (.leave, leave) ∈ w ∧ entry.1 = leave.1
  nodup : paired.matched.Nodup

section Run

variable {before : List (Site × ι)} {w : List (Site × ι × β)} {current : List ι}

theorem run_inv (hopens : Opens [] (before ++ marks w) current)
    (hnodup : (before ++ marks w).Nodup) : RunInv before current w (run w) := by
  induction w using List.reverseRecOn generalizing current with
  | nil =>
    simp only [marks, List.map_nil, List.append_nil] at hopens hnodup
    refine ⟨⟨current, rfl, fun i hi => ((hopens.inv hnodup).mem_iff i).mp hi |>.1⟩, ?_, ?_, ?_⟩
    · exact fun entry hentry => absurd hentry List.not_mem_nil
    · simp [run, Paired.empty]
    · exact List.nodup_nil
  | append_singleton w x ih =>
    obtain ⟨site, i, b⟩ := x
    have hmarks : marks (w ++ [(site, i, b)]) = marks w ++ [(site, i)] := by simp [marks]
    rw [hmarks, ← List.append_assoc] at hopens hnodup
    obtain ⟨between, hbefore, hlast⟩ := hopens.split
    obtain ⟨hnodupBefore, -, hnew⟩ := List.nodup_append.mp hnodup
    replace hnew : (site, i) ∉ before ++ marks w :=
      fun hmem => hnew _ hmem _ List.mem_cons_self rfl
    have hinv := hbefore.inv hnodupBefore
    obtain ⟨⟨outer, hbetween, houter⟩, hentered, hmatched, hnodupMatched⟩ := ih hbefore hnodupBefore
    rw [run_concat]
    generalize run w = paired at *
    obtain ⟨stack, matched⟩ := paired
    cases site with
    | enter =>
      cases hlast with
      | enter hlast =>
        cases hlast
        refine ⟨⟨outer, by simp [step, hbetween], houter⟩, ?_, ?_, hnodupMatched⟩
        · intro entry hentry
          rcases List.mem_cons.mp hentry with rfl | hentry
          · simp
          · exact List.mem_append_left _ (hentered entry hentry)
        · intro entry leave
          refine (hmatched entry leave).trans ?_
          constructor
          · rintro ⟨hentry, hleave, hsame⟩
            exact ⟨List.mem_append_left _ hentry, List.mem_append_left _ hleave, hsame⟩
          · rintro ⟨hentry, hleave, hsame⟩
            have hleave : (Site.leave, leave) ∈ w := by simpa using hleave
            refine ⟨?_, hleave, hsame⟩
            rcases List.mem_append.mp hentry with hentry | hentry
            · exact hentry
            · -- a leave before its entry
              obtain rfl : entry = (i, b) := by simpa using hentry
              refine absurd (hinv.entered i (List.mem_append_right _ ?_)) hnew
              have hmem := mem_marks hleave
              rwa [← hsame] at hmem
    | leave =>
      cases hlast with
      | leave hlast =>
        cases hlast
        cases stack with
        | nil =>
          -- the call was entered before the window
          have hbetween : i :: current = outer := hbetween
          have hi : (Site.enter, i) ∈ before := houter i (hbetween ▸ List.mem_cons_self)
          refine ⟨⟨current, rfl, fun j hj => houter j (hbetween ▸ List.mem_cons_of_mem i hj)⟩,
            ?_, ?_, hnodupMatched⟩
          · exact fun entry hentry => absurd hentry List.not_mem_nil
          · intro entry leave
            refine (hmatched entry leave).trans ?_
            constructor
            · rintro ⟨hentry, hleave, hsame⟩
              exact ⟨List.mem_append_left _ hentry, List.mem_append_left _ hleave, hsame⟩
            · rintro ⟨hentry, hleave, hsame⟩
              have hentry : (Site.enter, entry) ∈ w := by simpa using hentry
              refine ⟨hentry, ?_, hsame⟩
              rcases List.mem_append.mp hleave with hleave | hleave
              · exact hleave
              · obtain rfl : leave = (i, b) := by simpa using hleave
                have hdisjoint := (List.nodup_append.mp hnodupBefore).2.2 _ hi _ (mem_marks hentry)
                exact absurd (by simp [hsame]) hdisjoint
        | cons entry stack =>
          have hbetween : i :: current = entry.1 :: (stack.map Prod.fst ++ outer) := hbetween
          obtain ⟨rfl, rfl⟩ := List.cons.inj hbetween
          have hentry := hentered entry List.mem_cons_self
          refine ⟨⟨outer, rfl, houter⟩, ?_, ?_, ?_⟩
          · intro other hother
            exact List.mem_append_left _ (hentered other (List.mem_cons_of_mem _ hother))
          · intro other leave
            show (other, leave) ∈ matched ++ [(entry, _)] ↔ _
            rw [List.mem_append, hmatched]
            constructor
            · rintro (⟨hother, hleave, hsame⟩ | hnow)
              · exact ⟨List.mem_append_left _ hother, List.mem_append_left _ hleave, hsame⟩
              · obtain ⟨rfl, rfl⟩ : other = entry ∧ leave = (entry.1, b) := by simpa using hnow
                exact ⟨List.mem_append_left _ hentry, by simp, rfl⟩
            · rintro ⟨hother, hleave, hsame⟩
              have hother : (Site.enter, other) ∈ w := by simpa using hother
              rcases List.mem_append.mp hleave with hleave | hleave
              · exact .inl ⟨hother, hleave, hsame⟩
              · right
                obtain rfl : leave = (entry.1, b) := by simpa using hleave
                have hw := (List.nodup_append.mp hnodupBefore).2.1
                have hsameEntry := eq_of_marks hw hother hentry rfl hsame
                simpa using hsameEntry
          · refine List.nodup_append.mpr ⟨hnodupMatched, List.nodup_singleton _, ?_⟩
            rintro pair hpair _ hnow rfl
            obtain rfl : pair = (entry, (entry.1, b)) := by simpa using hnow
            have hleave := ((hmatched _ _).mp hpair).2.1
            exact hnew (List.mem_append_right _ (mem_marks hleave))

variable [DecidableEq ι]

/-- In a window the stack pairs the marks of one call, and keeps the calls that are not left. -/
theorem run_window (hwindow : Window (marks w)) :
    (run w).matched.Perm (calls w) ∧ (run w).stack.Perm (unfinished w) := by
  obtain ⟨before, after, hnested, hnodup⟩ := hwindow
  obtain ⟨current, hopens, -⟩ := (hnested.opens []).split
  replace hnodup := (List.nodup_append.mp hnodup).1
  have hinv := hopens.inv hnodup
  obtain ⟨⟨outer, hcurrent, houter⟩, hentered, hmatched, hnodupMatched⟩ := run_inv hopens hnodup
  obtain ⟨hnodupBefore, hnodupMarks, hdisjoint⟩ := List.nodup_append.mp hnodup
  have hnodupW : w.Nodup := hnodupMarks.of_map _
  refine ⟨(List.perm_ext_iff_of_nodup hnodupMatched (nodup_calls hnodupW)).mpr ?_, ?_⟩
  · rintro ⟨entry, leave⟩
    rw [hmatched, mem_calls]
  · have hnodupStack : (run w).stack.Nodup := by
      have h := hinv.nodup
      rw [hcurrent] at h
      exact (List.nodup_append.mp h).1.of_map _
    refine (List.perm_ext_iff_of_nodup hnodupStack (nodup_unfinished hnodupW)).mpr ?_
    intro entry
    rw [mem_unfinished]
    constructor
    · intro hentry
      have hopenEntry : entry.1 ∈ current := by
        rw [hcurrent]
        exact List.mem_append_left _ (List.mem_map_of_mem hentry)
      have hleft := ((hinv.mem_iff _).mp hopenEntry).2
      exact ⟨hentered entry hentry, fun hmem => hleft (List.mem_append_right _ hmem)⟩
    · rintro ⟨hentry, hleft⟩
      have hmark := mem_marks hentry
      -- a call that was left before the window was entered there
      have hnotBefore : (Site.enter, entry.1) ∉ before :=
        fun hmem => hdisjoint _ hmem _ hmark rfl
      obtain ⟨earlier, hearlier, -⟩ := hopens.split
      have hnotLeft : (Site.leave, entry.1) ∉ before :=
        fun hmem => hnotBefore ((hearlier.inv hnodupBefore).entered _ hmem)
      have hopenEntry : entry.1 ∈ current := by
        refine (hinv.mem_iff _).mpr ⟨List.mem_append_right _ hmark, fun hmem => ?_⟩
        exact (List.mem_append.mp hmem).elim hnotLeft hleft
      rw [hcurrent] at hopenEntry
      rcases List.mem_append.mp hopenEntry with hmem | hmem
      · obtain ⟨other, hother, hsame⟩ := List.mem_map.mp hmem
        have heq := eq_of_marks hnodupMarks (hentered other hother) hentry rfl hsame
        obtain rfl : other = entry := by simpa using heq
        exact hother
      · exact absurd (houter _ hmem) hnotBefore

end Run

end NestedCalls
