import Mathlib

set_option autoImplicit false

/-! # The freeze table (`freeze.c`)

`freezes` is a calloc'ed array of `FREEZE_DIC_LENGTH` blocks. A slot is free when its `address` is
`0`, and live when its `state` is not `0`; the two disagree for an entry frozen *at* address `0`,
and a slot that `removeFromFreezeMap` emptied keeps its old `vData` pointer.

A data buffer is one allocation of the caller (`parseStringToByteBuffer`), so it is modelled by its
identity; `none` is `NULL`. `freed` logs the non-`NULL` arguments of `free`, the latest first. -/

namespace SysAgent

@[irreducible] def FREEZE_DIC_LENGTH : Nat := 255

/-- One allocated data buffer. -/
abbrev Buffer := Nat

structure FreezeBlock where
  state : UInt8
  address : UInt64
  vData : Option Buffer
  size : UInt64
  titleId : UInt64

/-- `calloc` clears every field. -/
def FreezeBlock.zero : FreezeBlock :=
  { state := 0, address := 0, vData := none, size := 0, titleId := 0 }

structure Freezes where
  freezes : Fin FREEZE_DIC_LENGTH → FreezeBlock
  freed : List Buffer

namespace Freezes

/-- `free(buffer)`; freeing `NULL` does nothing. -/
def free (t : Freezes) : Option Buffer → Freezes
  | none => t
  | some b => { t with freed := b :: t.freed }

/-- `freezes[slot] = block`. -/
def setSlot (t : Freezes) (slot : Fin FREEZE_DIC_LENGTH) (block : FreezeBlock) : Freezes :=
  { t with freezes := Function.update t.freezes slot block }

def initFreezes : Freezes :=
  { freezes := fun _ => FreezeBlock.zero, freed := [] }

/-- The first slot whose address is `addr`; the source's `-1` is `none`. -/
def findAddrSlot (t : Freezes) (addr : UInt64) : Option (Fin FREEZE_DIC_LENGTH) :=
  Fin.find? fun i => (t.freezes i).address == addr

def findNextEmptySlot (t : Freezes) : Option (Fin FREEZE_DIC_LENGTH) :=
  t.findAddrSlot 0

/-- Returns the emptied slot, `0` when there is none. -/
def removeFromFreezeMap (t : Freezes) (addr : UInt64) : Freezes × Nat :=
  match t.findAddrSlot addr with
  | none => (t, 0)
  | some slot =>
    -- `vData` is freed but stays in the block
    ((t.setSlot slot { t.freezes slot with address := 0, state := 0 }).free (t.freezes slot).vData,
      slot)

/-- Returns the slot used, `0` when the table is full. -/
def addToFreezeMap (t : Freezes) (addr : UInt64) (v_data : Option Buffer) (v_size tid : UInt64) :
    Freezes × Nat :=
  let found := t.findAddrSlot addr
  let slot := if found.isNone then t.findNextEmptySlot else found
  let t := if found.isNone then t else (t.removeFromFreezeMap addr).1
  match slot with
  | none => (t, 0)
  | some slot =>
    (t.setSlot slot { address := addr, vData := v_data, size := v_size, state := 1, titleId := tid },
      slot)

def getFreezeCount (t : Freezes) : Nat :=
  Fin.countP fun i => (t.freezes i).state != 0

/-- The body of the `clearFreezes` loop, with the `clearedOne` flag. -/
def clearSlot (acc : Freezes × Bool) (i : Fin FREEZE_DIC_LENGTH) : Freezes × Bool :=
  if (acc.1.freezes i).state != 0 then
    ((acc.1.removeFromFreezeMap (acc.1.freezes i).address).1, true)
  else acc

/-- Returns `false` if there was nothing to clear. -/
def clearFreezes (t : Freezes) : Freezes × Bool :=
  (List.finRange FREEZE_DIC_LENGTH).foldl clearSlot (t, false)

/-! ## What each function does to the slots -/

/-- The slot holds an entry, whatever its address. -/
def Live (t : Freezes) (i : Fin FREEZE_DIC_LENGTH) : Prop :=
  (t.freezes i).state ≠ 0

instance (t : Freezes) (i : Fin FREEZE_DIC_LENGTH) : Decidable (t.Live i) :=
  inferInstanceAs (Decidable (_ ≠ _))

@[simp] theorem free_freezes (t : Freezes) (b : Option Buffer) :
    (t.free b).freezes = t.freezes := by
  cases b <;> rfl

@[simp] theorem free_freed (t : Freezes) (b : Option Buffer) :
    (t.free b).freed = b.toList ++ t.freed := by
  cases b <;> rfl

@[simp] theorem setSlot_freezes (t : Freezes) (s : Fin FREEZE_DIC_LENGTH) (block : FreezeBlock) :
    (t.setSlot s block).freezes = Function.update t.freezes s block := rfl

@[simp] theorem setSlot_freed (t : Freezes) (s : Fin FREEZE_DIC_LENGTH) (block : FreezeBlock) :
    (t.setSlot s block).freed = t.freed := rfl

theorem findAddrSlot_eq_some {t : Freezes} {addr : UInt64} {s : Fin FREEZE_DIC_LENGTH} :
    t.findAddrSlot addr = some s ↔
      (t.freezes s).address = addr ∧ ∀ j, j < s → (t.freezes j).address ≠ addr := by
  simp [findAddrSlot]

theorem findAddrSlot_eq_none {t : Freezes} {addr : UInt64} :
    t.findAddrSlot addr = none ↔ ∀ i, (t.freezes i).address ≠ addr := by
  simp [findAddrSlot]

/-- Empty slot `s`: its buffer is freed, its address and state are cleared. -/
def release (t : Freezes) (s : Fin FREEZE_DIC_LENGTH) : Freezes :=
  (t.setSlot s { t.freezes s with address := 0, state := 0 }).free (t.freezes s).vData

@[simp] theorem release_freezes (t : Freezes) (s : Fin FREEZE_DIC_LENGTH) :
    (t.release s).freezes =
      Function.update t.freezes s { t.freezes s with address := 0, state := 0 } := by
  simp [release]

@[simp] theorem release_freed (t : Freezes) (s : Fin FREEZE_DIC_LENGTH) :
    (t.release s).freed = (t.freezes s).vData.toList ++ t.freed := by
  simp [release]

theorem live_release {t : Freezes} {s i : Fin FREEZE_DIC_LENGTH} :
    (t.release s).Live i ↔ i ≠ s ∧ t.Live i := by
  by_cases h : i = s
  · simp [Live, h]
  · simp [Live, h]

theorem live_setSlot {t : Freezes} {s i : Fin FREEZE_DIC_LENGTH} {block : FreezeBlock}
    (hblock : block.state ≠ 0) : (t.setSlot s block).Live i ↔ i = s ∨ t.Live i := by
  by_cases h : i = s
  · simp [Live, h, hblock]
  · simp [Live, h]

theorem removeFromFreezeMap_of_some {t : Freezes} {addr : UInt64} {s : Fin FREEZE_DIC_LENGTH}
    (h : t.findAddrSlot addr = some s) : t.removeFromFreezeMap addr = (t.release s, s.val) := by
  rw [removeFromFreezeMap, h]
  rfl

theorem removeFromFreezeMap_of_none {t : Freezes} {addr : UInt64}
    (h : t.findAddrSlot addr = none) : t.removeFromFreezeMap addr = (t, 0) := by
  rw [removeFromFreezeMap, h]

theorem addToFreezeMap_of_some {t : Freezes} {addr : UInt64} {s : Fin FREEZE_DIC_LENGTH}
    (h : t.findAddrSlot addr = some s) (b : Option Buffer) (size tid : UInt64) :
    (t.addToFreezeMap addr b size tid).1 = (t.release s).setSlot s
      { address := addr, vData := b, size := size, state := 1, titleId := tid } := by
  simp [addToFreezeMap, h, removeFromFreezeMap_of_some h]

theorem addToFreezeMap_of_none {t : Freezes} {addr : UInt64} {s : Fin FREEZE_DIC_LENGTH}
    (h : t.findAddrSlot addr = none) (h0 : t.findAddrSlot 0 = some s) (b : Option Buffer)
    (size tid : UInt64) :
    (t.addToFreezeMap addr b size tid).1 = t.setSlot s
      { address := addr, vData := b, size := size, state := 1, titleId := tid } := by
  simp [addToFreezeMap, h, findNextEmptySlot, h0]

theorem getFreezeCount_eq_card (t : Freezes) :
    t.getFreezeCount = (Finset.univ.filter t.Live).card := by
  have hcount : ∀ l : List (Fin FREEZE_DIC_LENGTH), l.Nodup →
      l.countP (fun i => (t.freezes i).state != 0) = (l.toFinset.filter t.Live).card := by
    intro l hl
    rw [List.countP_eq_length_filter, ← List.toFinset_card_of_nodup (hl.filter _)]
    congr 1
    ext i
    simp [Live]
  have huniv : (List.finRange FREEZE_DIC_LENGTH).toFinset = Finset.univ := by
    ext i
    simp
  rw [← huniv, ← hcount _ (List.nodup_finRange _), getFreezeCount,
    Fin.countP_eq_countP_map_finRange]

end Freezes

end SysAgent
