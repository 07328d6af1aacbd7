import Mathlib.Data.List.Infix
import Mathlib.Data.Nat.ModEq

set_option autoImplicit false

/-! # Rings that keep the end of a history

A ring of `size` slots is written at `next`, which moves on by one modulo `size`; `count` grows until
the ring is full. `Holds` says that the slots hold the last `count` values of a history: value number
`i` is in slot `i % size` as long as fewer than `size` values came after it. A push keeps it for the
history with the new value (`Holds.push`), and `Holds.read` is what a reader that starts at the oldest
slot finds. -/

namespace Ring

variable {α : Type*} {capacity : Nat}

/-- The slots hold the end of the history. -/
structure Holds (slots : Vector α capacity) (size next count : Nat) (history : List α) : Prop where
  next_eq : next = history.length % size
  count_eq : count = min history.length size
  slot : ∀ i < history.length, history.length ≤ i + size →
    slots[i % size]? = history[i]?

/-- An empty ring holds the empty history, whatever is left in its slots. -/
theorem holds_nil (slots : Vector α capacity) (size : Nat) : Holds slots size 0 0 [] where
  next_eq := by simp
  count_eq := by simp
  slot := by
    intro i hi
    simp at hi

/-- Two values less than `size` apart are in different slots. -/
theorem mod_ne_mod {size i n : Nat} (hlt : i < n) (hnear : n < i + size) :
    i % size ≠ n % size := by
  intro hsame
  have hdvd : size ∣ n - i := (Nat.modEq_iff_dvd' hlt.le).1 hsame
  have hle := Nat.le_of_dvd (by omega) hdvd
  omega

theorem Holds.push {slots : Vector α capacity} {size next count : Nat} {history : List α}
    (h : Holds slots size next count history) (hpos : 0 < size) (hsize : size ≤ capacity) (a : α) :
    Holds (slots.setIfInBounds next a) size ((next + 1) % size)
      (if count < size then count + 1 else count) (history ++ [a]) where
  next_eq := by
    rw [h.next_eq, List.length_append, List.length_singleton, Nat.mod_add_mod]
  count_eq := by
    rw [h.count_eq, List.length_append, List.length_singleton]
    split <;> omega
  slot := by
    intro i hi hnear
    rw [List.length_append, List.length_singleton] at hi hnear
    have hnext : next < capacity := by
      rw [h.next_eq]
      exact lt_of_lt_of_le (Nat.mod_lt _ hpos) hsize
    rcases Nat.lt_succ_iff_lt_or_eq.1 hi with hold | rfl
    · -- an older value: its slot is not the one written
      have hother : next ≠ i % size := by
        rw [h.next_eq]
        exact (mod_ne_mod hold (by omega)).symm
      rw [Vector.getElem?_setIfInBounds_ne hother, h.slot i hold (by omega),
        List.getElem?_append_left hold]
    · rw [← h.next_eq, Vector.getElem?_setIfInBounds_self_of_lt hnext,
        List.getElem?_append_right (le_refl _), Nat.sub_self]
      rfl

/-- The slot a reader that starts at the oldest value computes for value `index`. -/
theorem Holds.slot_eq {slots : Vector α capacity} {size next count : Nat} {history : List α}
    (h : Holds slots size next count history) (index : Nat) :
    ((next + size - count) % size + index) % size = (history.length - count + index) % size := by
  rw [Nat.mod_add_mod, h.next_eq, h.count_eq]
  by_cases hfull : size ≤ history.length
  · rw [min_eq_right hfull, Nat.add_sub_cancel, Nat.mod_add_mod]
    have hsplit : history.length + index = history.length - size + index + size := by omega
    rw [hsplit, Nat.add_mod_right]
  · have hlt : history.length < size := not_le.1 hfull
    have hzero : history.length + size - history.length + index = index + size := by omega
    rw [min_eq_left hlt.le, Nat.mod_eq_of_lt hlt, hzero, Nat.add_mod_right, Nat.sub_self,
      Nat.zero_add]

/-- A read by index finds the value, counted from the oldest that is kept. -/
theorem Holds.read {slots : Vector α capacity} {size next count : Nat} {history : List α}
    (h : Holds slots size next count history) {index : Nat} (hindex : index < count) :
    slots[((next + size - count) % size + index) % size]? =
      history[history.length - count + index]? := by
  have hcount := h.count_eq
  rw [h.slot_eq index]
  exact h.slot _ (by omega) (by omega)

end Ring
