import Mathlib

set_option autoImplicit false

/-! # Search ranges (`search_range.c`, `search_value.c`)

Addresses are natural numbers below `2 ^ 64`. Where the source adds two that may exceed it, the sum
is taken modulo `2 ^ 64`. -/

namespace SysAgent

def UINT64_MAX : Nat := 2 ^ 64 - 1

/-- A `uint64_t` result. -/
def u64 (n : Nat) : Nat :=
  n % 2 ^ 64

theorem u64_of_lt {n : Nat} (h : n < 2 ^ 64) : u64 n = n :=
  Nat.mod_eq_of_lt h

/-- What `processMemoryQuery` reports about the mapping at an address. -/
structure MemoryInfo where
  addr : Nat
  size : Nat
  perm : UInt32

def Perm_R : UInt32 := 1

def MemoryInfo.readable (info : MemoryInfo) : Bool :=
  info.perm &&& Perm_R != 0

inductive SearchRangeAction
  | invalid
  | skip
  | read
  deriving DecidableEq, Repr

structure SearchRangePlan where
  action : SearchRangeAction
  start : Nat
  finish : Nat
  deriving DecidableEq, Repr

/-- `searchPlanMapping`: what to do with the range from `cursor` on, and up to where. -/
def searchPlanMapping (cursor searchEnd mappingAddress mappingSize : Nat) (readable : Bool) :
    SearchRangePlan :=
  let invalid : SearchRangePlan := { action := .invalid, start := cursor, finish := cursor }
  if cursor ≥ searchEnd ∨ mappingSize = 0 ∨
      u64 (mappingAddress + mappingSize) ≤ mappingAddress then invalid
  else if mappingAddress > cursor then
    let gap : SearchRangePlan :=
      { action := .skip, start := cursor,
        finish := if mappingAddress < searchEnd then mappingAddress else searchEnd }
    if gap.finish > gap.start then gap else invalid
  else
    let mappingEnd := u64 (mappingAddress + mappingSize)
    let mappingEnd := if mappingEnd > searchEnd then searchEnd else mappingEnd
    if mappingEnd ≤ cursor then invalid
    else { action := if readable then .read else .skip, start := cursor, finish := mappingEnd }

/-- A plan that is not invalid moves the cursor on, and not past the end of the search. -/
theorem searchPlanMapping_progress {cursor searchEnd mappingAddress mappingSize : Nat}
    {readable : Bool}
    (h : (searchPlanMapping cursor searchEnd mappingAddress mappingSize readable).action ≠
      .invalid) :
    cursor < (searchPlanMapping cursor searchEnd mappingAddress mappingSize readable).finish ∧
      (searchPlanMapping cursor searchEnd mappingAddress mappingSize readable).finish ≤
        searchEnd := by
  revert h
  simp only [searchPlanMapping]
  split_ifs <;> intro h
  any_goals exact absurd rfl h
  all_goals
    simp only [not_or, not_le, gt_iff_lt] at *
    omega

/-- `searchAlignmentIsValid`. -/
def searchAlignmentIsValid (alignment : Nat) : Bool :=
  alignment != 0 && alignment ≤ 256 && alignment &&& (alignment - 1) == 0

end SysAgent
