import Mathlib

set_option autoImplicit false

/-! # Bits in byte lists

Bit `i` of a byte list is bit `i % 8` of byte `i / 8`. Bits are tested and set with a shifted one,
and a byte list as a set of indices is what the lemmas are about. -/

namespace ByteMask

/-- Bit `i`; bits behind the last byte are clear. -/
def test (mask : List UInt8) (i : Nat) : Bool :=
  (mask.getD (i / 8) 0).toNat.testBit (i % 8)

/-- `(1u << (i & 7))` as a byte. -/
def bit (i : Nat) : UInt8 :=
  1 <<< UInt8.ofNat (i % 8)

/-- Set bit `i`; a bit behind the last byte is not set. -/
def set (mask : List UInt8) (i : Nat) : List UInt8 :=
  mask.set (i / 8) (mask.getD (i / 8) 0 ||| bit i)

theorem bit_toNat (i : Nat) : (bit i).toNat = 2 ^ (i % 8) := by
  have hi : i % 8 < 8 := Nat.mod_lt _ (by decide)
  have hall : ∀ k < 8, ((1 : UInt8) <<< UInt8.ofNat k).toNat = 2 ^ k := by decide
  exact hall _ hi

/-- The way the bit is tested with a mask byte. -/
theorem and_bit_ne_zero (b : UInt8) (i : Nat) : (b &&& bit i != 0) = b.toNat.testBit (i % 8) := by
  have hand : (b &&& bit i).toNat = b.toNat &&& 2 ^ (i % 8) := by
    rw [UInt8.toNat_and, bit_toNat]
  have hzero : (b &&& bit i = 0) ↔ (b.toNat &&& 2 ^ (i % 8)) = 0 := by
    rw [← hand, ← UInt8.toNat_inj]
    rfl
  rw [Nat.and_two_pow] at hzero
  have hpow : 0 < 2 ^ (i % 8) := Nat.pow_pos (by decide)
  cases htest : b.toNat.testBit (i % 8) with
  | true =>
    simp only [htest, Bool.toNat_true, Nat.one_mul] at hzero
    simp [hzero]
  | false =>
    simp only [htest, Bool.toNat_false, Nat.zero_mul] at hzero
    simpa using hzero.2 trivial

@[simp] theorem length_set (mask : List UInt8) (i : Nat) : (set mask i).length = mask.length := by
  simp [set]

theorem test_set {mask : List UInt8} {i j : Nat} (hi : i / 8 < mask.length) :
    test (set mask i) j = (test mask j || decide (i = j)) := by
  unfold test set
  by_cases hbyte : i / 8 = j / 8
  · have hj : j / 8 < mask.length := hbyte ▸ hi
    simp only [List.getD_eq_getElem?_getD, hbyte, List.getElem?_set_self hj, Option.getD_some,
      UInt8.toNat_or, bit_toNat, Nat.testBit_or, Nat.testBit_two_pow]
    congr 1
    by_cases hij : i = j
    · simp [hij]
    · have hmod : i % 8 ≠ j % 8 := by omega
      simp [hij, hmod]
  · have hij : i ≠ j := fun h => hbyte (h ▸ rfl)
    simp [List.getD_eq_getElem?_getD, List.getElem?_set_ne hbyte, hij]

theorem test_of_length_le {mask : List UInt8} {i : Nat} (h : mask.length ≤ i / 8) :
    test mask i = false := by
  simp [test, List.getD_eq_getElem?_getD, List.getElem?_eq_none h]

theorem test_append_left {mask rest : List UInt8} {i : Nat} (h : i / 8 < mask.length) :
    test (mask ++ rest) i = test mask i := by
  simp [test, List.getD_eq_getElem?_getD, List.getElem?_append_left h]

theorem test_replicate_zero (n i : Nat) : test (List.replicate n 0) i = false := by
  rcases Nat.lt_or_ge (i / 8) n with h | h
  · simp [test, List.getD_eq_getElem?_getD, h]
  · exact test_of_length_le (by simpa using h)

theorem test_replicate_ones {n i : Nat} (h : i < 8 * n) :
    test (List.replicate n 0xFF) i = true := by
  have hbyte : i / 8 < n := by omega
  have hall : ∀ j < 8, (0xFF : UInt8).toNat.testBit j = true := by decide
  simpa [test, List.getD_eq_getElem?_getD, hbyte] using hall (i % 8) (Nat.mod_lt _ (by decide))

/-- Two masks of one length with the same bits are the same. -/
theorem ext {m n : List UInt8} (hlen : m.length = n.length)
    (h : ∀ i < 8 * m.length, test m i = test n i) : m = n := by
  refine List.ext_getElem hlen fun k hm hn => ?_
  apply UInt8.toNat_inj.1
  refine Nat.eq_of_testBit_eq fun j => ?_
  rcases Nat.lt_or_ge j 8 with hj | hj
  · have hbit := h (8 * k + j) (by omega)
    have hdiv : (8 * k + j) / 8 = k := by omega
    have hmod : (8 * k + j) % 8 = j := by omega
    simpa [test, hdiv, hmod, List.getD_eq_getElem?_getD, hm, hn] using hbit
  · have hbound : ∀ b : UInt8, b.toNat.testBit j = false := fun b =>
      Nat.testBit_lt_two_pow (lt_of_lt_of_le b.toNat_lt (Nat.pow_le_pow_right (by decide) hj))
    rw [hbound, hbound]

/-! ## The indices in a mask -/

/-- The set bits below `n`, in order. -/
def indices (mask : List UInt8) (n : Nat) : List Nat :=
  (List.range n).filter (test mask)

theorem length_foldl_set (mask : List UInt8) (is : List Nat) :
    (is.foldl set mask).length = mask.length := by
  induction is generalizing mask with
  | nil => rfl
  | cons i is ih => rw [List.foldl_cons, ih, length_set]

/-- Setting the bits of a list one after the other. -/
theorem test_foldl_set {mask : List UInt8} {is : List Nat} (h : ∀ i ∈ is, i / 8 < mask.length)
    (j : Nat) : test (is.foldl set mask) j = (test mask j || decide (j ∈ is)) := by
  induction is generalizing mask with
  | nil => simp
  | cons i is ih =>
    have hi := h i List.mem_cons_self
    rw [List.foldl_cons, ih fun k hk => by simpa using h k (List.mem_cons_of_mem _ hk),
      test_set hi, Bool.or_assoc]
    congr 1
    simp [List.mem_cons, @eq_comm _ i j]

end ByteMask
