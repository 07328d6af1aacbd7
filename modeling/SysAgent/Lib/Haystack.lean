import SysAgent.Lib.Scan

set_option autoImplicit false

/-! # A search that goes on behind its last hit

The first hit in a part of a text and what is behind it are the occurrences of the part; two parts
that overlap by less than an occurrence share none. -/

namespace Haystack

open Scan

variable {α : Type} [DecidableEq α]

/-- The index of the first occurrence of a needle; an empty needle has none. -/
def firstIndex (haystack needle : List α) : Option Nat :=
  if needle = [] ∨ haystack.length < needle.length then none
  else
    (List.range (haystack.length + 1 - needle.length)).find? fun i =>
      (haystack.drop i).take needle.length == needle

theorem firstIndex_spec {haystack needle : List α} {i : Nat}
    (h : firstIndex haystack needle = some i) :
    i + needle.length ≤ haystack.length ∧ (haystack.drop i).take needle.length = needle := by
  unfold firstIndex at h
  split_ifs at h with hnone
  have hmem := List.mem_of_find?_eq_some h
  rw [List.mem_range] at hmem
  exact ⟨by omega, by simpa using List.find?_some h⟩

theorem firstIndex_lt {haystack needle : List α} {i : Nat}
    (h : firstIndex haystack needle = some i) : i < haystack.length := by
  unfold firstIndex at h
  split_ifs at h with hnone
  have hmem := List.mem_of_find?_eq_some h
  rw [List.mem_range] at hmem
  have hpos : 0 < needle.length := List.length_pos_iff.mpr fun hnil => hnone (.inl hnil)
  omega

/-- A needle is at the front of a text or in its tail. -/
theorem firstIndex_cons {needle : List α} (hne : needle ≠ []) (a : α) (haystack : List α) :
    firstIndex (a :: haystack) needle =
      if (a :: haystack).take needle.length = needle then some 0
      else (firstIndex haystack needle).map (· + 1) := by
  have hpos := List.length_pos_iff.mpr hne
  unfold firstIndex
  rcases Nat.lt_or_ge (a :: haystack).length needle.length with hshort | hlong
  · have htake : (a :: haystack).take needle.length ≠ needle := by
      intro h
      have hlength := congrArg List.length h
      rw [List.length_take] at hlength
      omega
    have hshort' : haystack.length < needle.length := by
      rw [List.length_cons] at hshort
      omega
    rw [if_pos (.inr hshort), if_neg htake, if_pos (.inr hshort')]
    rfl
  · have hcount : (a :: haystack).length + 1 - needle.length =
        haystack.length + 1 - needle.length + 1 := by
      rw [List.length_cons] at hlong ⊢
      omega
    rw [if_neg (fun h => h.elim hne (Nat.not_lt.mpr hlong)), hcount, List.range_succ_eq_map,
      List.find?_cons, List.drop_zero, List.find?_map]
    by_cases hhead : (a :: haystack).take needle.length = needle
    · rw [beq_iff_eq.mpr hhead, if_pos hhead]
    · rw [beq_eq_false_iff_ne.mpr hhead, if_neg hhead]
      split_ifs with hnone
      · have hshort := hnone.resolve_left hne
        rw [Nat.sub_eq_zero_of_le hshort]
        rfl
      · rfl

/-- All occurrences of a needle in a part of a text. -/
def all (text : Nat → α) (needle : List α) (lo hi : Nat) : List Nat :=
  occurrences text needle (fun _ => true) lo hi

variable {text : Nat → α} {needle : List α}

theorem mem_all {lo hi a : Nat} : a ∈ all text needle lo hi ↔
    lo ≤ a ∧ a + needle.length ≤ hi ∧ window text a needle.length = needle := by
  simp [all, mem_occurrences]

theorem all_sorted (lo hi : Nat) : (all text needle lo hi).Pairwise (· < ·) :=
  occurrences_sorted _ _ _ lo hi

theorem firstIndex_window {a n : Nat} (hne : needle ≠ []) (i : Nat) :
    firstIndex (window text a n) needle = some i ↔
      i + needle.length ≤ n ∧ window text (a + i) needle.length = needle ∧
        ∀ j < i, window text (a + j) needle.length ≠ needle := by
  have hcut : ∀ j, j + needle.length ≤ n →
      ((window text a n).drop j).take needle.length = window text (a + j) needle.length := by
    intro j hj
    rw [drop_window, take_window, Nat.min_eq_left (by omega)]
  unfold firstIndex
  rw [length_window]
  split_ifs with hshort
  · have hshort : n < needle.length := hshort.resolve_left hne
    refine iff_of_false (by simp) ?_
    rintro ⟨h, -⟩
    omega
  · have hlong : needle.length ≤ n := Nat.le_of_not_lt fun h => hshort (.inr h)
    rw [List.find?_range_eq_some]
    constructor
    · rintro ⟨hi, hmem, hfirst⟩
      rw [List.mem_range] at hmem
      have hfits : i + needle.length ≤ n := by omega
      rw [beq_iff_eq, hcut i hfits] at hi
      refine ⟨hfits, hi, fun j hj heq => ?_⟩
      have hj' := hfirst j hj
      rw [hcut j (by omega), heq] at hj'
      simp at hj'
    · rintro ⟨hfits, hi, hfirst⟩
      refine ⟨by rw [beq_iff_eq, hcut i hfits, hi], List.mem_range.mpr (by omega), ?_⟩
      intro j hj
      rw [hcut j (by omega)]
      simpa using hfirst j hj

/-- Sorted lists with the same elements. -/
theorem eq_of_mem_iff {l l' : List Nat} (hl : l.Pairwise (· < ·)) (hl' : l'.Pairwise (· < ·))
    (h : ∀ a, a ∈ l ↔ a ∈ l') : l = l' :=
  hl.eq_of_mem_iff hl' h

theorem all_eq_nil {a n : Nat} (hne : needle ≠ [])
    (h : firstIndex (window text a n) needle = none) : all text needle a (a + n) = [] := by
  by_contra hsome
  obtain ⟨x, hx⟩ := List.exists_mem_of_ne_nil _ hsome
  -- the least occurrence would have been found
  have hexists : ∃ i, i + needle.length ≤ n ∧ window text (a + i) needle.length = needle := by
    obtain ⟨hlo, hhi, hmatch⟩ := mem_all.mp hx
    exact ⟨x - a, by omega, by rwa [Nat.add_sub_cancel' hlo]⟩
  classical
  have hleast := Nat.find_spec hexists
  have hfirst : firstIndex (window text a n) needle = some (Nat.find hexists) := by
    refine (firstIndex_window hne _).mpr ⟨hleast.1, hleast.2, fun j hj heq => ?_⟩
    exact Nat.find_min hexists hj ⟨by omega, heq⟩
  rw [h] at hfirst
  cases hfirst

/-- The first hit, and the occurrences behind it. -/
theorem all_eq_cons {a n i : Nat} (hne : needle ≠ [])
    (h : firstIndex (window text a n) needle = some i) :
    all text needle a (a + n) = (a + i) :: all text needle (a + i + 1) (a + n) := by
  obtain ⟨hfits, hmatch, hfirst⟩ := (firstIndex_window hne i).mp h
  refine eq_of_mem_iff (all_sorted _ _) ?_ fun x => ?_
  · refine List.pairwise_cons.mpr ⟨fun x hx => ?_, all_sorted _ _⟩
    exact (mem_all.mp hx).1
  · rw [List.mem_cons, mem_all, mem_all]
    constructor
    · rintro ⟨hlo, hhi, hx⟩
      rcases Nat.lt_trichotomy x (a + i) with hlt | rfl | hgt
      · refine absurd ?_ (hfirst (x - a) (by omega))
        rwa [Nat.add_sub_cancel' hlo]
      · exact .inl rfl
      · exact .inr ⟨hgt, hhi, hx⟩
    · rintro (rfl | ⟨hlo, hhi, hx⟩)
      · exact ⟨Nat.le_add_right a i, by omega, hmatch⟩
      · exact ⟨by omega, hhi, hx⟩

/-! ## At most so many -/

theorem take_append_take {β : Type} (limit : Nat) (front back : List β) :
    ((front.take limit) ++ back).take limit = (front ++ back).take limit := by
  rw [List.take_append, List.take_append, List.take_take, Nat.min_self, List.length_take]
  congr 2
  omega

theorem take_append_of_full {β : Type} {limit : Nat} {front : List β} (back : List β)
    (h : limit ≤ front.length) : (front ++ back).take limit = front.take limit :=
  List.take_append_of_le_length h

end Haystack
