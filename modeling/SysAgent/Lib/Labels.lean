import Mathlib.Data.List.Basic
import Mathlib.Tactic.Common

set_option autoImplicit false

/-! # Labels between separators

A text of labels, joined by a separator that no label contains, can be split as a whole or read from
left to right with the label so far in hand; both find the same labels. -/

namespace Labels

variable {α β : Type*} (dot : α) (ok : List α → Bool)

/-- The labels of the text, joined. -/
def Joined (text : List α) : Prop :=
  ∃ labels : List (List α), labels ≠ [] ∧ (∀ label ∈ labels, ok label = true) ∧
    text = [dot].intercalate labels

theorem mem_joined {dot c : α} {ok : List α → Bool} {text : List α} (h : Joined dot ok text)
    (hc : c ∈ text) :
    c = dot ∨ ∃ label, ok label = true ∧ c ∈ label := by
  obtain ⟨labels, -, hlabels, rfl⟩ := h
  induction labels with
  | nil => exact absurd hc List.not_mem_nil
  | cons label labels ih =>
    cases labels with
    | nil =>
      rw [List.intercalate_singleton] at hc
      exact Or.inr ⟨label, hlabels label List.mem_cons_self, hc⟩
    | cons next labels =>
      rw [List.intercalate_cons_cons, List.mem_append, List.mem_append, List.mem_singleton] at hc
      rcases hc with (hc | hc) | hc
      · exact Or.inr ⟨label, hlabels label List.mem_cons_self, hc⟩
      · exact Or.inl hc
      · exact ih (fun l hl => hlabels l (List.mem_cons_of_mem _ hl)) hc

section Reading

variable [DecidableEq α] [DecidableEq β]

/-- Reads on behind `label`; every label has to be in order. -/
def scan (label : List α) : List α → Bool
  | [] => ok label
  | c :: rest => if c = dot then ok label && scan [] rest else scan (label ++ [c]) rest

variable {dot ok}

theorem scan_eq_all (label text : List α) (hlabel : dot ∉ label) :
    scan dot ok label text = ((label ++ text).splitOn dot).all ok := by
  induction text generalizing label with
  | nil =>
    rw [scan, List.append_nil, List.splitOn_eq_singleton hlabel]
    simp
  | cons c rest ih =>
    rw [scan]
    by_cases hc : c = dot
    · subst hc
      rw [if_pos rfl, List.splitOn_append_cons_self_of_not_mem hlabel, List.all_cons,
        ih [] (List.not_mem_nil), List.nil_append]
    · have hnext : dot ∉ label ++ [c] := by
        rw [List.mem_append, List.mem_singleton]
        rintro (h | h)
        · exact hlabel h
        · exact hc h.symm
      rw [if_neg hc, ih (label ++ [c]) hnext, List.append_assoc, List.singleton_append]

/-- A label that nothing can mend. -/
theorem scan_eq_false {label : List α} (h : ∀ more, ok (label ++ more) = false) (text : List α) :
    scan dot ok label text = false := by
  induction text generalizing label with
  | nil => simpa [scan] using h []
  | cons c rest ih =>
    rw [scan]
    split_ifs
    · rw [show ok label = false by simpa using h [], Bool.false_and]
    · refine ih ?_
      intro more
      rw [List.append_assoc]
      exact h ([c] ++ more)

/-- Where labels have no separator in them, joining is what splitting undoes. -/
theorem all_splitOn_iff (hok : ∀ label, ok label = true → dot ∉ label) (text : List α) :
    (text.splitOn dot).all ok = true ↔ Joined dot ok text := by
  rw [List.all_eq_true]
  constructor
  · intro h
    exact ⟨text.splitOn dot, List.splitOn_ne_nil dot text, h, (List.intercalate_splitOn dot).symm⟩
  · rintro ⟨labels, hne, hlabels, rfl⟩
    rw [List.splitOn_intercalate dot (fun label hl => hok label (hlabels label hl)) hne]
    exact hlabels

/-- Splitting commutes with an encoding that keeps the separator apart. -/
theorem splitOn_map {f : α → β} {sep : β} (hf : ∀ a, f a = sep ↔ a = dot) (text : List α) :
    (text.map f).splitOn sep = (text.splitOn dot).map (List.map f) := by
  induction text with
  | nil => rfl
  | cons c rest ih =>
    rw [List.map_cons, List.splitOn_cons_eq_if_modifyHead, List.splitOn_cons_eq_if_modifyHead, ih]
    -- both sides begin a label at the same characters
    by_cases hc : c = dot
    · rw [if_pos (by simpa using (hf c).2 hc), if_pos (by simpa using hc), List.map_cons]
      rfl
    · rw [if_neg (by simpa using fun h => hc ((hf c).1 h)), if_neg (by simpa using hc)]
      cases hrest : rest.splitOn dot with
      | nil => rfl
      | cons first labels => rfl

end Reading

end Labels
