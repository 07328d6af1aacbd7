import Mathlib.Data.List.Sort
import Mathlib.Data.Prod.Lex

set_option autoImplicit false

/-! # Stable sorts

A list sorted by a key is determined by its elements of each key, in their order. A stable sort
keeps these, so two lists that agree on them are sorted to one list. -/

namespace StableSort

variable {α κ : Type*} [LinearOrder κ] (key : α → κ)

/-- The comparison of a sort by a key. -/
def byKey (left right : α) : Bool := decide (key left ≤ key right)

def sort (l : List α) : List α := l.mergeSort (byKey key)

/-- The elements with the key, in their order. -/
def atKey (k : κ) (l : List α) : List α := l.filter fun a => key a = k

theorem sort_perm (l : List α) : (sort key l).Perm l := List.mergeSort_perm l (byKey key)

theorem byKey_trans (a b c : α) (hab : byKey key a b = true) (hbc : byKey key b c = true) :
    byKey key a c = true := by
  unfold byKey at *
  rw [decide_eq_true_iff] at *
  exact hab.trans hbc

theorem byKey_total (a b : α) : (byKey key a b || byKey key b a) = true := by
  unfold byKey
  rw [Bool.or_eq_true, decide_eq_true_iff, decide_eq_true_iff]
  exact le_total (key a) (key b)

theorem sorted_sort (l : List α) : (sort key l).Pairwise fun a b => key a ≤ key b := by
  have hsorted := List.pairwise_mergeSort (byKey_trans key) (byKey_total key) l
  exact hsorted.imp fun h => of_decide_eq_true h

/-- The sort leaves the elements of one key in their order. -/
theorem atKey_sort (k : κ) (l : List α) : atKey key k (sort key l) = atKey key k l := by
  have hsame : (atKey key k l).Pairwise fun a b => byKey key a b = true := by
    refine List.pairwise_of_forall_mem_list ?_
    intro a ha b hb
    have hka : key a = k := of_decide_eq_true (List.mem_filter.mp ha).2
    have hkb : key b = k := of_decide_eq_true (List.mem_filter.mp hb).2
    unfold byKey
    rw [hka, hkb]
    exact decide_eq_true le_rfl
  have hsub : (atKey key k l).Sublist (sort key l) :=
    List.sublist_mergeSort (byKey_trans key) (byKey_total key) hsame List.filter_sublist
  have hfilter : (atKey key k l).Sublist (atKey key k (sort key l)) := by
    have h := hsub.filter fun a => decide (key a = k)
    simpa only [atKey, List.filter_filter, Bool.and_self] using h
  have hlength : (atKey key k (sort key l)).length = (atKey key k l).length :=
    ((sort_perm key l).filter _).length_eq
  exact (hfilter.eq_of_length hlength.symm).symm

/-- Two sorted lists with the same elements of each key are equal. -/
theorem eq_of_atKey_eq {l l' : List α} (hl : l.Pairwise fun a b => key a ≤ key b)
    (hl' : l'.Pairwise fun a b => key a ≤ key b) (h : ∀ k, atKey key k l = atKey key k l') :
    l = l' := by
  induction l generalizing l' with
  | nil =>
    cases l' with
    | nil => rfl
    | cons b l' =>
      have hb := h (key b)
      simp [atKey] at hb
  | cons a l ih =>
    cases l' with
    | nil =>
      have ha := h (key a)
      simp [atKey] at ha
    | cons b l' =>
      -- both heads have the least key
      obtain ⟨hal, hlTail⟩ := List.pairwise_cons.mp hl
      obtain ⟨hbl', hlTail'⟩ := List.pairwise_cons.mp hl'
      have hba : key b ≤ key a := by
        have ha : a ∈ atKey key (key a) (b :: l') := by
          rw [← h]
          simp [atKey]
        rcases List.mem_cons.mp (List.mem_filter.mp ha).1 with rfl | hmem
        · exact le_rfl
        · exact hbl' a hmem
      have hab : key a ≤ key b := by
        have hb : b ∈ atKey key (key b) (a :: l) := by
          rw [h]
          simp [atKey]
        rcases List.mem_cons.mp (List.mem_filter.mp hb).1 with rfl | hmem
        · exact le_rfl
        · exact hal b hmem
      have hkey : key b = key a := le_antisymm hba hab
      have hheads := h (key a)
      simp only [atKey, List.filter_cons, hkey, decide_true, if_true, List.cons.injEq] at hheads
      obtain ⟨rfl, hrest⟩ := hheads
      refine congrArg (a :: ·) (ih hlTail hlTail' fun k => ?_)
      have hk := h k
      by_cases hak : key a = k
      · simpa [atKey, List.filter_cons, hak] using hk
      · simpa [atKey, List.filter_cons, hak] using hk

/-- What the sort of a list depends on. -/
theorem sort_eq_of_atKey_eq {l l' : List α} (h : ∀ k, atKey key k l = atKey key k l') :
    sort key l = sort key l' := by
  refine eq_of_atKey_eq key (sorted_sort key l) (sorted_sort key l') fun k => ?_
  rw [atKey_sort, atKey_sort, h]

/-- The parts of a list come in any order, when no two of them share a key. -/
theorem atKey_flatMap_perm {β : Type*} {parts parts' : List β} (f : β → List α)
    (hperm : parts.Perm parts')
    (hdisjoint : parts.Pairwise fun p q => ∀ a ∈ f p, ∀ b ∈ f q, key a ≠ key b) (k : κ) :
    atKey key k (parts.flatMap f) = atKey key k (parts'.flatMap f) := by
  induction hperm with
  | nil => rfl
  | cons p hperm ih =>
    obtain ⟨-, hdisjoint⟩ := List.pairwise_cons.mp hdisjoint
    simp only [List.flatMap_cons, atKey, List.filter_append]
    exact congrArg (_ ++ ·) (ih hdisjoint)
  | swap p q parts =>
    obtain ⟨hq, -⟩ := List.pairwise_cons.mp hdisjoint
    have hpq := hq p List.mem_cons_self
    simp only [List.flatMap_cons, atKey, List.filter_append]
    rw [← List.append_assoc, ← List.append_assoc]
    congr 1
    -- one of the two has no element of the key
    by_cases hnone : ∃ a ∈ f q, key a = k
    · obtain ⟨a, ha, rfl⟩ := hnone
      have hempty : (f p).filter (fun b => decide (key b = key a)) = [] := by
        rw [List.filter_eq_nil_iff]
        intro b hb hsame
        exact hpq a ha b hb (of_decide_eq_true hsame).symm
      rw [hempty, List.append_nil, List.nil_append]
    · have hempty : (f q).filter (fun b => decide (key b = k)) = [] := by
        rw [List.filter_eq_nil_iff]
        intro b hb hsame
        exact hnone ⟨b, hb, of_decide_eq_true hsame⟩
      rw [hempty, List.append_nil, List.nil_append]
  | trans hfirst hsecond ihFirst ihSecond =>
    rw [ihFirst hdisjoint]
    refine ihSecond (hfirst.pairwise hdisjoint ?_)
    intro p q h a ha b hb
    exact (h b hb a ha).symm

end StableSort
