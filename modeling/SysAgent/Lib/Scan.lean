import Mathlib

set_option autoImplicit false

/-! # Occurrences in a text that is read piece by piece

A text assigns a letter to every position. A scan that sees the text through successive windows
finds an occurrence in the window that completes it, provided each window starts early enough. The
positions it could read at all form maximal runs. -/

namespace Scan

/-! ## Windows -/

section Window

variable {α : Type} (text : Nat → α)

/-- The `n` letters from position `a` on. -/
def window (a n : Nat) : List α :=
  (List.range n).map fun i => text (a + i)

@[simp] theorem length_window (a n : Nat) : (window text a n).length = n := by
  simp [window]

@[simp] theorem window_zero (a : Nat) : window text a 0 = [] :=
  rfl

@[simp] theorem getElem_window (a n i : Nat) (h : i < (window text a n).length) :
    (window text a n)[i] = text (a + i) := by
  simp [window]

theorem window_append (a m n : Nat) :
    window text a m ++ window text (a + m) n = window text a (m + n) := by
  refine List.ext_getElem (by simp) fun i h _ => ?_
  by_cases hi : i < m
  · rw [List.getElem_append_left (by simpa using hi)]
    simp
  · rw [List.getElem_append_right (by simpa using hi)]
    simp only [length_window, getElem_window, Nat.add_assoc]
    congr 2
    omega

theorem drop_window (a n k : Nat) : (window text a n).drop k = window text (a + k) (n - k) := by
  refine List.ext_getElem (by simp) fun i h _ => ?_
  simp [Nat.add_assoc]

theorem take_window (a n k : Nat) : (window text a n).take k = window text a (min k n) := by
  refine List.ext_getElem (by simp) fun i h _ => ?_
  simp

end Window

/-! ## Occurrences -/

section Occurrences

variable {α : Type} [DecidableEq α] (text : Nat → α) (pattern : List α) (admits : Nat → Bool)

/-- The admitted positions from `lo` on at which the pattern occurs before `hi`, in order. -/
def occurrences (lo hi : Nat) : List Nat :=
  (List.range' lo (hi + 1 - (lo + pattern.length))).filter fun a =>
    admits a && window text a pattern.length == pattern

theorem mem_occurrences {lo hi a : Nat} :
    a ∈ occurrences text pattern admits lo hi ↔
      lo ≤ a ∧ a + pattern.length ≤ hi ∧ admits a = true ∧
        window text a pattern.length = pattern := by
  simp only [occurrences, List.mem_filter, List.mem_range'_1, Bool.and_eq_true, beq_iff_eq]
  constructor
  · rintro ⟨⟨hlo, hhi⟩, hadmits, hmatch⟩
    exact ⟨hlo, by omega, hadmits, hmatch⟩
  · rintro ⟨hlo, hhi, hadmits, hmatch⟩
    exact ⟨⟨hlo, by omega⟩, hadmits, hmatch⟩

theorem occurrences_sorted (lo hi : Nat) :
    (occurrences text pattern admits lo hi).Pairwise (· < ·) :=
  List.Pairwise.filter _ List.pairwise_lt_range'

end Occurrences

/-! ## Maximal runs -/

section Runs

variable (good : Nat → Prop)

/-- `[first, last)` is a maximal run of good positions of `[lo, hi)`. -/
structure MaximalRun (lo hi first last : Nat) : Prop where
  lo_le : lo ≤ first
  le_hi : last ≤ hi
  all_good : ∀ x, first ≤ x → x < last → good x
  left : first = lo ∨ ¬ good (first - 1)
  right : last = hi ∨ ¬ good last

/-- A good range extends to the left as far as it can. -/
theorem extend_left {lo a b : Nat} (hlo : lo ≤ a) (h : ∀ x, a ≤ x → x < b → good x) :
    ∃ first, lo ≤ first ∧ first ≤ a ∧ (∀ x, first ≤ x → x < b → good x) ∧
      (first = lo ∨ ¬ good (first - 1)) := by
  induction a with
  | zero => exact ⟨0, hlo, Nat.le_refl 0, h, Or.inl (Nat.le_zero.1 hlo).symm⟩
  | succ a ih =>
    by_cases hstop : a + 1 = lo ∨ ¬ good a
    · exact ⟨a + 1, hlo, Nat.le_refl _, h, hstop⟩
    · obtain ⟨hne, hgood⟩ := not_or.1 hstop
      obtain ⟨first, hlo', hle, hall, hmax⟩ := ih (by omega) fun x hx hxb => by
        rcases Nat.lt_or_ge a x with hax | hax
        · exact h x hax hxb
        · rw [show x = a by omega]
          exact not_not.1 hgood
      exact ⟨first, hlo', Nat.le_succ_of_le hle, hall, hmax⟩

/-- A good range extends to the right as far as it can. -/
theorem extend_right {hi a b : Nat} (hhi : b ≤ hi) (h : ∀ x, a ≤ x → x < b → good x) :
    ∃ last, b ≤ last ∧ last ≤ hi ∧ (∀ x, a ≤ x → x < last → good x) ∧
      (last = hi ∨ ¬ good last) := by
  induction hn : hi - b generalizing b with
  | zero => exact ⟨b, Nat.le_refl b, hhi, h, Or.inl (by omega)⟩
  | succ n ih =>
    by_cases hgood : good b
    · have hstep : ∀ x, a ≤ x → x < b + 1 → good x := by
        intro x hx hxb
        rcases Nat.lt_or_ge x b with hxb' | hxb'
        · exact h x hx hxb'
        · rwa [show x = b by omega]
      obtain ⟨last, hle, hlast, hall, hmax⟩ := ih (by omega) hstep (by omega)
      exact ⟨last, by omega, hlast, hall, hmax⟩
    · exact ⟨b, Nat.le_refl b, hhi, h, Or.inr hgood⟩

/-- A range lies inside a maximal run iff all of it is good. -/
theorem exists_maximalRun_iff {lo hi a b : Nat} :
    (∃ first last, MaximalRun good lo hi first last ∧ first ≤ a ∧ b ≤ last) ↔
      lo ≤ a ∧ b ≤ hi ∧ ∀ x, a ≤ x → x < b → good x := by
  constructor
  · rintro ⟨first, last, hrun, hfirst, hlast⟩
    exact ⟨le_trans hrun.lo_le hfirst, le_trans hlast hrun.le_hi, fun x hx hxb =>
      hrun.all_good x (le_trans hfirst hx) (lt_of_lt_of_le hxb hlast)⟩
  · rintro ⟨hlo, hhi, hall⟩
    obtain ⟨first, hlo', hfirst, hall', hleft⟩ := extend_left good hlo hall
    obtain ⟨last, hlast, hhi', hall'', hright⟩ := extend_right good hhi hall'
    exact ⟨first, last, ⟨hlo', hhi', hall'', hleft, hright⟩, hfirst, hlast⟩

end Runs

end Scan
