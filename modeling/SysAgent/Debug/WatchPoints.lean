import SysAgent.Debug.Breakpoints

set_option autoImplicit false

/-! # Watchpoints (`debug_hwbp.c`)

A watched range is programmed in one of two ways: up to 8 bytes of one doubleword are selected by a
bit each (BAS), and a power of two above that by the number of low address bits that are ignored
(MASK). The rules of the architecture are given first, as a function of the two registers alone;
that they match the range and nothing else is then a fact about the words that are computed. -/

namespace SysAgent

/-! ## What the processor makes of the two registers -/

/-- The bits of a register from `low` on. -/
def bitField (word : UInt64) (low width : Nat) : Nat := word.toNat / 2 ^ low % 2 ^ width

/-- The fields of a watchpoint control register (DBGWCR). -/
structure WatchpointControl where
  enable : Nat
  pac : Nat
  lsc : Nat
  bas : Nat
  hmc : Nat
  ssc : Nat
  lbn : Nat
  wt : Nat
  mask : Nat
  /-- Bits 21 to 23, and those from 29 on. -/
  reserved : Nat × Nat
  deriving DecidableEq

def WatchpointControl.ofWord (word : UInt64) : WatchpointControl where
  enable := bitField word 0 1
  pac := bitField word 1 2
  lsc := bitField word 3 2
  bas := bitField word 5 8
  hmc := bitField word 13 1
  ssc := bitField word 14 2
  lbn := bitField word 16 4
  wt := bitField word 20 1
  mask := bitField word 24 5
  reserved := (bitField word 21 3, bitField word 29 35)

/-- The bits that are set are next to each other. -/
def contiguousSelect (bas : UInt8) : Bool :=
  let lsb := bas &&& ~~~(bas - 1)
  let msb := bas + lsb
  msb &&& (msb - 1) == 0

/-- Whether a byte is watched, by the ARMv8 rules for BAS and MASK; `none` where they leave it
    open. -/
def watchpointByteMatch (control value byte : UInt64) : Option Bool :=
  let bas := (WatchpointControl.ofWord control).bas
  let mask := (WatchpointControl.ofWord control).mask
  let bottom := if value.toNat.testBit 2 then 2 else 3
  let selected := bas.testBit (byte.toNat % 2 ^ bottom)
  if 0 < mask ∧ bas ≠ 0xFF ∨ ¬ contiguousSelect (UInt8.ofNat bas) then none
  -- the masks 1 and 2 are reserved
  else if mask = 1 ∨ mask = 2 then none
  else if bottom < mask then
    if value.toNat / 2 ^ bottom % 2 ^ (mask - bottom) ≠ 0 then none
    else some (selected && byte.toNat / 2 ^ mask == value.toNat / 2 ^ mask)
  else some (selected && byte.toNat / 2 ^ bottom == value.toNat / 2 ^ bottom)

/-! ## The words -/

/-- `debugHwBpIsValidWatchPoint`. -/
def debugHwBpIsValidWatchPoint (address size : UInt64) : Bool :=
  if size = 0 then false
  else if size ≤ 8 then
    address &&& ~~~7 == (address + size - 1) &&& ~~~7
  else if 0x80000000 < size then false
  else if size &&& (size - 1) ≠ 0 then false
  else if address &&& (size - 1) ≠ 0 then false
  else true

/-- `__builtin_popcountll` -/
def popcountll (x : UInt64) : Nat := x.toBitVec.cpop.toNat

def loadStoreControl (read write : Bool) : UInt8 :=
  (if read then 1 else 0) ||| (if write then 2 else 0)

/-- `bas` of a size up to 8. -/
def byteSelect (address size : UInt64) : UInt8 :=
  ((((1 : UInt32) <<< size.toUInt32) - 1) <<< (address &&& 7).toUInt32).toUInt8

/-- The control word of these fields. -/
def dataControl (mask bas lsc : UInt8) (contextSlot : UInt32) : UInt64 :=
  (mask.toUInt64 <<< 24) ||| (contextSlot.toUInt64 <<< 16) ||| (bas.toUInt64 <<< 5) |||
    (lsc.toUInt64 <<< 3) ||| (if lsc ≠ 0 then 1 else 0)

/-- What `debugHwBpSetData` programs, unless it refuses. -/
def dataSetting (dataSlot contextSlot : UInt32) (address size : UInt64) (read write : Bool) :
    Option BreakpointSetting :=
  let lsc := loadStoreControl read write
  if lsc ≠ 0 ∧ ¬ debugHwBpIsValidWatchPoint address size then none
  else if size ≤ 8 then
    some ⟨dataSlot, dataControl 0 (byteSelect address size) lsc contextSlot, address &&& ~~~7⟩
  else
    some ⟨dataSlot, dataControl (UInt8.ofNat (popcountll (size - 1))) 0xFF lsc contextSlot,
      address⟩

/-- `debugHwBpSetAllCores`. -/
def debugHwBpSetAllCores (answers : BreakpointAnswers) (setting : BreakpointSetting)
    (s : BreakpointState) : UInt32 × BreakpointState :=
  s.setRegistersOnAllCores answers [setting]

/-- `debugHwBpSetData`. -/
def debugHwBpSetData (answers : BreakpointAnswers) (dataSlot contextSlot : UInt32)
    (address size : UInt64) (read write : Bool) (s : BreakpointState) :
    UInt32 × BreakpointState :=
  match dataSetting dataSlot contextSlot address size read write with
  | none => (badInputResult, s)
  | some setting => debugHwBpSetAllCores answers setting s

/-! ## What is accepted -/

/-- A part of one doubleword, or an aligned power of two from 16 to 2^31. -/
def WatchableRange (address size : Nat) : Prop :=
  (1 ≤ size ∧ address % 8 + size ≤ 8) ∨ ∃ k, 4 ≤ k ∧ k ≤ 31 ∧ size = 2 ^ k ∧ address % size = 0

theorem and_not_seven (x : UInt64) : (x &&& ~~~7).toNat = x.toNat / 8 * 8 := by
  have hmask : (~~~7 : UInt64).toNat = (2 ^ 61 - 1) * 2 ^ 3 := by decide
  rw [UInt64.toNat_and, hmask, show (8 : Nat) = 2 ^ 3 from rfl]
  refine Nat.eq_of_testBit_eq fun i => ?_
  rw [Nat.testBit_and, Nat.testBit_mul_two_pow, Nat.testBit_mul_two_pow,
    Nat.testBit_two_pow_sub_one, Nat.testBit_div_two_pow]
  by_cases hlow : 3 ≤ i
  · have hback : i - 3 + 3 = i := Nat.sub_add_cancel hlow
    rw [hback]
    by_cases hhigh : i - 3 < 61
    · simp [hlow, hhigh]
    · have hpow : 2 ^ 64 ≤ 2 ^ i := Nat.pow_le_pow_right (by decide) (by omega)
      have hbit : x.toNat.testBit i = false :=
        Nat.testBit_lt_two_pow (lt_of_lt_of_le x.toNat_lt hpow)
      simp [hbit]
  · simp [hlow]

theorem le_eight_iff {size : UInt64} : size ≤ 8 ↔ size.toNat ≤ 8 :=
  UInt64.le_iff_toNat_le

theorem not_le_eight {size : UInt64} {k : Nat} (hk : 4 ≤ k) (hsize : size.toNat = 2 ^ k) :
    ¬ size ≤ 8 := by
  have hpow := Nat.pow_le_pow_right (show 0 < 2 by decide) hk
  rw [le_eight_iff, hsize]
  omega

/-- The range of an accepted size above 8. -/
theorem power_iff {address size : UInt64} (hsize : 8 < size.toNat) (hmax : size.toNat ≤ 2 ^ 31) :
    (size &&& (size - 1) = 0 ∧ address &&& (size - 1) = 0) ↔
      ∃ k, 4 ≤ k ∧ k ≤ 31 ∧ size.toNat = 2 ^ k ∧ address.toNat % size.toNat = 0 := by
  have hpred : (size - 1).toNat = size.toNat - 1 := by
    rw [UInt64.toNat_sub_of_le size 1 (UInt64.le_iff_toNat_le.2 (show 1 ≤ size.toNat by omega))]
    rfl
  have hzero (x : UInt64) : x = 0 ↔ x.toNat = 0 := by
    rw [← UInt64.toNat_inj]
    rfl
  rw [hzero, hzero, UInt64.toNat_and, UInt64.toNat_and, hpred,
    Nat.and_sub_one_eq_zero_iff_isPowerOfTwo (by omega)]
  constructor
  · rintro ⟨⟨k, hk⟩, haligned⟩
    rw [hk, Nat.and_two_pow_sub_one_eq_mod] at haligned
    have hlow : 3 < k := by
      by_contra hle
      have := Nat.pow_le_pow_right (show 0 < 2 by decide) (Nat.le_of_not_lt hle)
      omega
    have hhigh : k ≤ 31 := (Nat.pow_le_pow_iff_right (by decide)).1 (hk ▸ hmax)
    exact ⟨k, hlow, hhigh, hk, by rw [hk]; exact haligned⟩
  · rintro ⟨k, -, -, hk, haligned⟩
    refine ⟨⟨k, hk⟩, ?_⟩
    rw [hk, Nat.and_two_pow_sub_one_eq_mod, ← hk]
    exact haligned

theorem watchpoint_accepted_iff (address size : UInt64) :
    debugHwBpIsValidWatchPoint address size = true ↔ WatchableRange address.toNat size.toNat := by
  have hlarge : size.toNat ≤ 8 →
      ¬ ∃ k, 4 ≤ k ∧ k ≤ 31 ∧ size.toNat = 2 ^ k ∧ address.toNat % size.toNat = 0 := by
    rintro hle ⟨k, hk, -, hpow, -⟩
    have := Nat.pow_le_pow_right (show 0 < 2 by decide) hk
    omega
  have hmaximum : 0x80000000 < size ↔ 2 ^ 31 < size.toNat := UInt64.lt_iff_toNat_lt
  unfold debugHwBpIsValidWatchPoint WatchableRange
  simp only [le_eight_iff, hmaximum]
  split_ifs with hzero hsmall hmax hpower haligned
  · subst hzero
    simpa using hlarge (by decide)
  · have hpos : size.toNat ≠ 0 := fun h => hzero (UInt64.toNat_inj.1 h)
    have hlast : (address + size - 1).toNat = (address.toNat + size.toNat - 1) % 2 ^ 64 := by
      have hone : (1 : UInt64).toNat = 1 := rfl
      rw [UInt64.toNat_sub, UInt64.toNat_add, hone]
      omega
    have haddress := address.toNat_lt
    rw [or_iff_left (hlarge hsmall), beq_iff_eq, ← UInt64.toNat_inj, and_not_seven, and_not_seven,
      hlast]
    omega
  · refine iff_of_false (by simp) ?_
    rintro (⟨-, hle⟩ | ⟨k, -, hk, hpow, -⟩)
    · omega
    · have := Nat.pow_le_pow_right (show 0 < 2 by decide) hk
      omega
  all_goals
    rw [or_iff_right (by omega), ← power_iff (by omega) (by omega)]
  · exact iff_of_false (by simp) fun h => hpower h.1
  · exact iff_of_false (by simp) fun h => haligned h.2
  · exact iff_of_true rfl ⟨not_not.1 hpower, not_not.1 haligned⟩

/-! ## The fields of the words -/

/-- Ones in the low places. -/
theorem cpopNatRec_ones {w k : Nat} {x : BitVec w} (h : ∀ i, x.getLsbD i = decide (i < k))
    (n acc : Nat) : x.cpopNatRec n acc = acc + min n k := by
  induction n generalizing acc with
  | zero => simp
  | succ n ih =>
    rw [BitVec.cpopNatRec_succ, ih, h]
    by_cases hn : n < k
    · simp only [hn, decide_true, Bool.toNat_true]
      omega
    · simp only [hn, decide_false, Bool.toNat_false]
      omega

theorem popcountll_mask {size : UInt64} {k : Nat} (hk : k < 64) (hsize : size.toNat = 2 ^ k) :
    popcountll (size - 1) = k := by
  have hpos : 1 ≤ 2 ^ k := Nat.one_le_two_pow
  have hpred : (size - 1).toNat = 2 ^ k - 1 := by
    rw [UInt64.toNat_sub_of_le size 1 (UInt64.le_iff_toNat_le.2 (hsize ▸ hpos)), hsize]
    rfl
  have hbits : ∀ i, (size - 1).toBitVec.getLsbD i = decide (i < k) := by
    intro i
    rw [← BitVec.testBit_toNat, UInt64.toNat_toBitVec, hpred, Nat.testBit_two_pow_sub_one]
  rw [popcountll, BitVec.cpop, cpopNatRec_ones hbits, BitVec.toNat_ofNat, Nat.zero_add,
    Nat.min_eq_right hk.le, Nat.mod_eq_of_lt (by omega)]

theorem dataControl_toNat (mask bas : UInt8) {lsc : UInt8} {contextSlot : UInt32}
    (hmask : mask.toNat < 32) (hlsc : lsc.toNat < 4) (hslot : contextSlot.toNat < 16) :
    (dataControl mask bas lsc contextSlot).toNat = 2 ^ 24 * mask.toNat +
      2 ^ 16 * contextSlot.toNat + 2 ^ 5 * bas.toNat + 2 ^ 3 * lsc.toNat +
        if lsc ≠ 0 then 1 else 0 := by
  have hbas := bas.toNat_lt
  have hshift : ∀ x k : UInt64, k.toNat < 64 → x.toNat * 2 ^ k.toNat < 2 ^ 64 →
      (x <<< k).toNat = 2 ^ k.toNat * x.toNat := by
    intro x k hk hx
    rw [UInt64.toNat_shiftLeft, Nat.mod_eq_of_lt hk, Nat.shiftLeft_eq, Nat.mod_eq_of_lt hx,
      Nat.mul_comm]
  have henable : (if lsc ≠ 0 then (1 : UInt64) else 0).toNat = if lsc ≠ 0 then 1 else 0 := by
    split_ifs <;> rfl
  have hone : (if lsc ≠ 0 then 1 else 0) < 2 := by
    split_ifs <;> decide
  have hplaces : (24 : UInt64).toNat = 24 ∧ (16 : UInt64).toNat = 16 ∧ (5 : UInt64).toNat = 5 ∧
      (3 : UInt64).toNat = 3 := by decide
  obtain ⟨h24, h16, h5, h3⟩ := hplaces
  rw [dataControl, UInt64.toNat_or, UInt64.toNat_or, UInt64.toNat_or, UInt64.toNat_or, henable,
    hshift _ 24 (by decide) (by rw [UInt8.toNat_toUInt64, h24]; omega),
    hshift _ 16 (by decide) (by rw [UInt32.toNat_toUInt64, h16]; omega),
    hshift _ 5 (by decide) (by rw [UInt8.toNat_toUInt64, h5]; omega),
    hshift _ 3 (by decide) (by rw [UInt8.toNat_toUInt64, h3]; omega),
    UInt8.toNat_toUInt64, UInt32.toNat_toUInt64, UInt8.toNat_toUInt64, UInt8.toNat_toUInt64,
    h24, h16, h5, h3]
  generalize (if lsc ≠ 0 then 1 else 0) = enable at hone ⊢
  -- each field is put below the lowest place of those before it
  rw [← Nat.two_pow_add_eq_or_of_lt (by omega),
    show 2 ^ 24 * mask.toNat + 2 ^ 16 * contextSlot.toNat =
      2 ^ 16 * (2 ^ 8 * mask.toNat + contextSlot.toNat) by ring,
    ← Nat.two_pow_add_eq_or_of_lt (by omega),
    show 2 ^ 16 * (2 ^ 8 * mask.toNat + contextSlot.toNat) + 2 ^ 5 * bas.toNat =
      2 ^ 5 * (2 ^ 11 * (2 ^ 8 * mask.toNat + contextSlot.toNat) + bas.toNat) by ring,
    ← Nat.two_pow_add_eq_or_of_lt (by omega),
    show 2 ^ 5 * (2 ^ 11 * (2 ^ 8 * mask.toNat + contextSlot.toNat) + bas.toNat) +
        2 ^ 3 * lsc.toNat = 2 ^ 3 * (2 ^ 2 * (2 ^ 11 * (2 ^ 8 * mask.toNat + contextSlot.toNat) +
          bas.toNat) + lsc.toNat) by ring,
    ← Nat.two_pow_add_eq_or_of_lt (by omega)]

/-- No field spills into another. -/
theorem ofWord_dataControl {mask : UInt8} (bas : UInt8) {lsc : UInt8} {contextSlot : UInt32}
    (hmask : mask.toNat < 32) (hlsc : lsc.toNat < 4) (hslot : contextSlot.toNat < 16) :
    WatchpointControl.ofWord (dataControl mask bas lsc contextSlot) =
      { enable := if lsc ≠ 0 then 1 else 0, pac := 0, lsc := lsc.toNat, bas := bas.toNat, hmc := 0,
        ssc := 0, lbn := contextSlot.toNat, wt := 0, mask := mask.toNat, reserved := (0, 0) } := by
  have hword := dataControl_toNat mask bas hmask hlsc hslot
  have hbas := bas.toNat_lt
  have hone : (if lsc ≠ 0 then 1 else 0) < 2 := by
    split_ifs <;> decide
  generalize (if lsc ≠ 0 then 1 else 0) = enable at hone hword ⊢
  simp only [WatchpointControl.ofWord, bitField, hword, WatchpointControl.mk.injEq, Prod.mk.injEq]
  omega

/-! ## The bytes that are matched -/

/-- The selected bytes are next to each other, from the first one of the range on. -/
theorem byteSelect_spec {address size : UInt64} (hfits : address.toNat % 8 + size.toNat ≤ 8) :
    (byteSelect address size).toNat = (2 ^ size.toNat - 1) * 2 ^ (address.toNat % 8) ∧
      contiguousSelect (byteSelect address size) = true ∧ ∀ i < 8,
        (byteSelect address size).toNat.testBit i =
          decide (address.toNat % 8 ≤ i ∧ i < address.toNat % 8 + size.toNat) := by
  have hall : ∀ first < 8, ∀ count < 9, first + count ≤ 8 →
      let bas := ((((1 : UInt32) <<< UInt32.ofNat count) - 1) <<< UInt32.ofNat first).toUInt8
      bas.toNat = (2 ^ count - 1) * 2 ^ first ∧ contiguousSelect bas = true ∧
        ∀ i < 8, bas.toNat.testBit i = decide (first ≤ i ∧ i < first + count) := by
    decide
  have hlow : (address &&& 7).toUInt32 = UInt32.ofNat (address.toNat % 8) := by
    rw [← UInt32.toNat_inj, UInt64.toNat_toUInt32, UInt64.toNat_and, UInt32.toNat_ofNat']
    exact congrArg (· % 2 ^ 32) (Nat.and_two_pow_sub_one_eq_mod address.toNat 3)
  have hcount : size.toUInt32 = UInt32.ofNat size.toNat := by
    rw [← UInt32.toNat_inj, UInt64.toNat_toUInt32, UInt32.toNat_ofNat']
  rw [byteSelect, hlow, hcount]
  exact hall (address.toNat % 8) (Nat.mod_lt _ (by decide)) size.toNat (by omega) hfits

/-- What the control of an accepted range holds. -/
def watchpointFields (contextSlot : UInt32) (address size : UInt64) (read write : Bool) :
    WatchpointControl where
  enable := if read || write then 1 else 0
  pac := 0
  lsc := (if read then 1 else 0) + if write then 2 else 0
  bas := if size ≤ 8 then (2 ^ size.toNat - 1) * 2 ^ (address.toNat % 8) else 2 ^ 8 - 1
  hmc := 0
  ssc := 0
  lbn := contextSlot.toNat
  wt := 0
  mask := if size ≤ 8 then 0 else Nat.log2 size.toNat
  reserved := (0, 0)

/-- The two words match the bytes of the range and nothing else. -/
structure WatchesExactly (contextSlot : UInt32) (address size : UInt64) (read write : Bool)
    (setting : BreakpointSetting) : Prop where
  fields : WatchpointControl.ofWord setting.control =
    watchpointFields contextSlot address size read write
  doubleword : setting.value.toNat % 8 = 0
  noWrap : address.toNat + size.toNat ≤ 2 ^ 64
  matched : ∀ byte, watchpointByteMatch setting.control setting.value byte =
    some (decide (address.toNat ≤ byte.toNat ∧ byte.toNat < address.toNat + size.toNat))

/-- The match is decided by the fields BAS and MASK alone. -/
theorem watchpointByteMatch_select {control value : UInt64} {bas : UInt8}
    (hbas : (WatchpointControl.ofWord control).bas = bas.toNat)
    (hmask : (WatchpointControl.ofWord control).mask = 0) (hselect : contiguousSelect bas = true)
    (hvalue : value.toNat % 8 = 0) (byte : UInt64) :
    watchpointByteMatch control value byte =
      some (bas.toNat.testBit (byte.toNat % 8) && byte.toNat / 8 == value.toNat / 8) := by
  have hbit : value.toNat.testBit 2 = false := by
    rw [Nat.testBit_eq_decide_div_mod_eq]
    simp only [decide_eq_false_iff_not]
    omega
  simp only [watchpointByteMatch, hbas, hmask, hbit, UInt8.ofNat_toNat, hselect]
  simp

theorem watchpointByteMatch_mask {control value : UInt64} {k : Nat}
    (hbas : (WatchpointControl.ofWord control).bas = 0xFF)
    (hmask : (WatchpointControl.ofWord control).mask = k) (hk : 4 ≤ k)
    (hvalue : value.toNat % 2 ^ k = 0) (byte : UInt64) :
    watchpointByteMatch control value byte =
      some (byte.toNat / 2 ^ k == value.toNat / 2 ^ k) := by
  obtain ⟨quotient, hquotient⟩ := Nat.dvd_of_mod_eq_zero hvalue
  have hsplit : 2 ^ k = 8 * 2 ^ (k - 3) := by
    rw [show 8 = 2 ^ 3 from rfl, ← Nat.pow_add, Nat.add_sub_cancel' (by omega)]
  have hbit : value.toNat.testBit 2 = false := by
    rw [Nat.testBit_eq_decide_div_mod_eq, hquotient, hsplit]
    simp only [decide_eq_false_iff_not]
    rw [Nat.mul_assoc]
    omega
  have hlow : value.toNat / 2 ^ 3 % 2 ^ (k - 3) = 0 := by
    rw [hquotient, hsplit, Nat.mul_assoc, show 2 ^ 3 = 8 from rfl,
      Nat.mul_div_cancel_left _ (by decide), Nat.mul_mod_right]
  have hones : ∀ i < 2 ^ 3, Nat.testBit 0xFF i = true := by decide
  have hselect : contiguousSelect (UInt8.ofNat 0xFF) = true := by decide
  have hreserved : ¬ (k = 1 ∨ k = 2) := by omega
  simp only [watchpointByteMatch, hbas, hmask, hbit, hselect, Bool.false_eq_true, if_false,
    ne_eq, not_true_eq_false, and_false, or_self, hreserved, hlow]
  rw [if_pos (by omega), hones _ (Nat.mod_lt byte.toNat (by decide)), Bool.true_and]

theorem mem_block_iff {k address byte : Nat} (haligned : address % 2 ^ k = 0) :
    byte / 2 ^ k = address / 2 ^ k ↔ address ≤ byte ∧ byte < address + 2 ^ k := by
  obtain ⟨quotient, rfl⟩ := Nat.dvd_of_mod_eq_zero haligned
  have hpos : 0 < 2 ^ k := Nat.two_pow_pos k
  rw [Nat.mul_div_cancel_left _ hpos, Nat.div_eq_iff hpos, Nat.mul_comm quotient]
  omega

theorem loadStoreControl_spec (read write : Bool) :
    (loadStoreControl read write).toNat = (if read then 1 else 0) + (if write then 2 else 0) ∧
      (loadStoreControl read write).toNat < 4 ∧
        (loadStoreControl read write ≠ 0 ↔ (read || write) = true) := by
  cases read <;> cases write <;> decide

/-- A part of one doubleword. -/
theorem watchesExactly_select {address size : UInt64} (hpos : 1 ≤ size.toNat)
    (hfits : address.toNat % 8 + size.toNat ≤ 8) (dataSlot : UInt32) {contextSlot : UInt32}
    (hslot : contextSlot < 16) (read write : Bool) :
    WatchesExactly contextSlot address size read write
      ⟨dataSlot, dataControl 0 (byteSelect address size) (loadStoreControl read write) contextSlot,
        address &&& ~~~7⟩ := by
  obtain ⟨hlsc, hlscLt, henable⟩ := loadStoreControl_spec read write
  obtain ⟨hbas, hselect, hbits⟩ := byteSelect_spec hfits
  have hsmall : size ≤ 8 := le_eight_iff.2 (by omega)
  have hzero : (0 : UInt8).toNat < 32 := by decide
  have hfields := ofWord_dataControl (byteSelect address size) hzero hlscLt
    (UInt32.lt_iff_toNat_lt.1 hslot)
  have hvalue := and_not_seven address
  have haddress := address.toNat_lt
  refine ⟨?_, by rw [hvalue]; exact Nat.mul_mod_left _ _, by omega, ?_⟩
  · simp only [hfields, watchpointFields, henable, hlsc, hbas, if_pos hsmall]
    rfl
  · intro byte
    rw [watchpointByteMatch_select (congrArg _ hfields) (congrArg _ hfields) hselect
      (by rw [hvalue]; exact Nat.mul_mod_left _ _), hbits _ (Nat.mod_lt _ (by decide)), hvalue,
      Nat.mul_div_cancel _ (by decide), ← Bool.decide_coe (_ == _), ← Bool.decide_and]
    refine congrArg some (decide_eq_decide.2 ?_)
    rw [beq_iff_eq]
    omega

/-- An aligned power of two. -/
theorem watchesExactly_mask {address size : UInt64} {k : Nat} (hk : 4 ≤ k) (hmax : k ≤ 31)
    (hsize : size.toNat = 2 ^ k) (haligned : address.toNat % size.toNat = 0) (dataSlot : UInt32)
    {contextSlot : UInt32} (hslot : contextSlot < 16) (read write : Bool) :
    WatchesExactly contextSlot address size read write
      ⟨dataSlot, dataControl (UInt8.ofNat (popcountll (size - 1))) 0xFF
        (loadStoreControl read write) contextSlot, address⟩ := by
  obtain ⟨hlsc, hlscLt, henable⟩ := loadStoreControl_spec read write
  have hlarge : ¬ size ≤ 8 := not_le_eight hk hsize
  have hmask : (UInt8.ofNat (popcountll (size - 1))).toNat = k := by
    rw [popcountll_mask (by omega) hsize,
      UInt8.toNat_ofNat_of_lt' (lt_of_le_of_lt hmax (by decide))]
  have hfields := ofWord_dataControl 0xFF (by rw [hmask]; omega) hlscLt
    (UInt32.lt_iff_toNat_lt.1 hslot)
  rw [hmask] at hfields
  rw [hsize] at haligned
  have haddress := address.toNat_lt
  refine ⟨?_, ?_, ?_, ?_⟩
  · simp only [hfields, watchpointFields, henable, hlsc, if_neg hlarge, hsize, Nat.log2_two_pow]
    rfl
  · have hdvd : 8 ∣ 2 ^ k := Nat.pow_dvd_pow 2 (show 3 ≤ k by omega)
    exact Nat.mod_eq_zero_of_dvd (hdvd.trans (Nat.dvd_of_mod_eq_zero haligned))
  · have hdvd : 2 ^ k ∣ 2 ^ 64 := Nat.pow_dvd_pow 2 (by omega)
    obtain ⟨quotient, hquotient⟩ := Nat.dvd_of_mod_eq_zero haligned
    obtain ⟨blocks, hblocks⟩ := hdvd
    rw [hsize, hquotient, hblocks, ← Nat.mul_succ]
    rw [hquotient, hblocks] at haddress
    exact Nat.mul_le_mul_left _ (Nat.lt_of_mul_lt_mul_left haddress)
  · intro byte
    rw [watchpointByteMatch_mask (congrArg _ hfields) (congrArg _ hfields) hk haligned, hsize,
      ← decide_eq_decide.2 (mem_block_iff haligned)]
    rfl

/-- Exactly the parts of a doubleword and the aligned powers of two up to 2^31 are accepted, and for
    these the two words that `debugHwBpSetData` programs have every field in its place and match the
    bytes of the range, none of which lies beyond the last address. -/
theorem watchpoint_covers_request (address size : UInt64) :
    (debugHwBpIsValidWatchPoint address size = true ↔
        WatchableRange address.toNat size.toNat) ∧
      (debugHwBpIsValidWatchPoint address size = true →
        ∀ dataSlot contextSlot : UInt32, contextSlot < 16 → ∀ read write : Bool,
          ∃ setting : BreakpointSetting, setting.register = dataSlot ∧
            WatchesExactly contextSlot address size read write setting ∧
              ∀ answers s, debugHwBpSetData answers dataSlot contextSlot address size read write s =
                s.setRegistersOnAllCores answers [setting]) := by
  refine ⟨watchpoint_accepted_iff address size, ?_⟩
  intro hvalid dataSlot contextSlot hslot read write
  have hnot : ¬ (loadStoreControl read write ≠ 0 ∧ ¬ debugHwBpIsValidWatchPoint address size) :=
    fun h => h.2 hvalid
  have hrange := (watchpoint_accepted_iff address size).1 hvalid
  rcases hrange with ⟨hpos, hfits⟩ | ⟨k, hk, hmax, hsize, ha⟩
  · refine ⟨_, rfl, watchesExactly_select hpos hfits dataSlot hslot read write, ?_⟩
    intro answers s
    have hsmall : size ≤ 8 := le_eight_iff.2 (by omega)
    simp only [debugHwBpSetData, dataSetting, if_neg hnot, if_pos hsmall, debugHwBpSetAllCores]
  · refine ⟨_, rfl, watchesExactly_mask hk hmax hsize ha dataSlot hslot read write, ?_⟩
    intro answers s
    have hlarge : ¬ size ≤ 8 := not_le_eight hk hsize
    simp only [debugHwBpSetData, dataSetting, if_neg hnot, if_neg hlarge, debugHwBpSetAllCores]

/-- The last four bytes of a doubleword, watched for writes through the context slot 5. -/
theorem watchpoint_covers_request_word : ∃ setting : BreakpointSetting,
    setting.register = 16 ∧ WatchesExactly 5 0x1004 4 false true setting :=
  have hcovers := (watchpoint_covers_request 0x1004 4).2 (by decide) 16 5 (by decide) false true
  ⟨hcovers.choose, hcovers.choose_spec.1, hcovers.choose_spec.2.1⟩

end SysAgent
