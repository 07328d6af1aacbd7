import Mathlib

set_option autoImplicit false

/-! # A stream that is assembled from pieces

A reader appends what each read brings until what it has is done, the stream is at its end or its
room is used up. Where the reads split the stream makes no difference exactly if no proper prefix
that a read can end at is done. -/

namespace Assembly

variable {α : Type}

/-- How the reads split a stream, for a reader with that much room. -/
structure Splitting (stream : List α) (room : Nat) where
  /-- What a read brings when so much has been read; nothing at the end of the stream. -/
  size : Nat → Nat
  size_pos : ∀ got, got < stream.length → got < room → 0 < size got
  size_le : ∀ got, size got ≤ min stream.length room - got

inductive Ending
  | done
  | closed
  | full
  deriving DecidableEq

variable {stream : List α} {room : Nat} (done : List α → Bool)

/-- Why the reader stops, and how much it has read then. -/
def run (split : Splitting stream room) (got : Nat) : Ending × Nat :=
  if got < room then
    if done (stream.take got) then (.done, got)
    else if split.size got = 0 then (.closed, got)
    else run split (got + split.size got)
  else (.full, got)
termination_by room - got

/-- What is left for the reader when it has taken everything it can. -/
def atEnd (stream : List α) (room : Nat) : Ending × Nat :=
  if stream.length < room then (if done stream then .done else .closed, stream.length)
  else (.full, room)

theorem run_limit (split : Splitting stream room) :
    run done split (min stream.length room) = atEnd done stream room := by
  rcases Nat.lt_or_ge stream.length room with hlt | hge
  · have hzero : split.size stream.length = 0 := by
      have hsize := split.size_le stream.length
      omega
    rw [Nat.min_eq_left hlt.le, run, if_pos hlt, List.take_length, if_pos hzero, atEnd, if_pos hlt]
    split_ifs <;> rfl
  · rw [Nat.min_eq_right hge, run, if_neg (Nat.lt_irrefl room), atEnd, if_neg (Nat.not_lt.mpr hge)]

/-- As long as nothing is done, the reads go on to the end. -/
theorem run_eq_atEnd (split : Splitting stream room) {got : Nat}
    (hquiet : ∀ p, p < min stream.length room → done (stream.take p) = false)
    (hle : got ≤ min stream.length room) : run done split got = atEnd done stream room := by
  induction hleft : min stream.length room - got using Nat.strong_induction_on
    generalizing got with
  | _ left ih =>
    rcases Nat.lt_or_ge got (min stream.length room) with hlt | hge
    · have hpos := split.size_pos got (by omega) (by omega)
      have hsize := split.size_le got
      rw [run, if_pos (by omega), hquiet got hlt, if_neg Bool.false_ne_true, if_neg (by omega)]
      exact ih _ (by omega) (by omega) rfl
    · obtain rfl := Nat.le_antisymm hle hge
      exact run_limit done split

/-- One read as far as a place, the next one as far as possible. -/
def cutAt (stream : List α) (room p : Nat) : Splitting stream room where
  size got := if got < p ∧ p ≤ min stream.length room then p - got else min stream.length room - got
  size_pos := by
    intro got hstream hroom
    split_ifs <;> omega
  size_le := by
    intro got
    split_ifs <;> omega

theorem run_cutAt {p : Nat} (hpos : 0 < p) (hlt : p < min stream.length room)
    (hnil : done [] = false) (hdone : done (stream.take p) = true) :
    run done (cutAt stream room p) 0 = (.done, p) := by
  have hsize : (cutAt stream room p).size 0 = p := if_pos ⟨hpos, hlt.le⟩
  rw [run, if_pos (by omega), List.take_zero, hnil, if_neg Bool.false_ne_true, hsize,
    if_neg (by omega), Nat.zero_add, run, if_pos (by omega), if_pos hdone]

/-- Everything in one read. -/
def atOnce (stream : List α) (room : Nat) : Splitting stream room := cutAt stream room 0

theorem run_atOnce (hnil : done [] = false) :
    run done (atOnce stream room) 0 = atEnd done stream room := by
  rcases Nat.eq_zero_or_pos (min stream.length room) with hzero | hpos
  · have h := run_limit done (atOnce stream room)
    rwa [hzero] at h
  · have hsize : (atOnce stream room).size 0 = min stream.length room := by
      show (if 0 < 0 ∧ 0 ≤ min stream.length room then 0 - 0 else min stream.length room - 0) = _
      rw [if_neg (fun h => Nat.lt_irrefl 0 h.1), Nat.sub_zero]
    rw [run, if_pos (by omega), List.take_zero, hnil, if_neg Bool.false_ne_true, hsize,
      if_neg (by omega), Nat.zero_add]
    exact run_limit done _

end Assembly
