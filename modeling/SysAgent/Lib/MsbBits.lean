import Mathlib

set_option autoImplicit false

/-! # Numbers as bits, the most significant first

`bitsOf n v` is the last `n` bits of `v`, `push` reads one more bit, and `pack` fills up the last of
the bytes with ones. -/

namespace MsbBits

def bitsOf : Nat → Nat → List Bool
  | 0, _ => []
  | n + 1, v => v.testBit n :: bitsOf n v

def push (v : Nat) (bit : Bool) : Nat := 2 * v + bit.toNat

def ofBits (bits : List Bool) : Nat := bits.foldl push 0

@[simp]
theorem length_bitsOf (n v : Nat) : (bitsOf n v).length = n := by
  induction n with
  | zero => rfl
  | succ n ih => rw [bitsOf, List.length_cons, ih]

theorem div_two_pow (v n : Nat) : v / 2 ^ n = push (v / 2 ^ (n + 1)) (v.testBit n) := by
  have hbit := Nat.toNat_testBit v n
  rw [push, hbit, pow_succ, ← Nat.div_div_eq_div_mul]
  omega

/-- Reading the bits of a number that fits gives the number. -/
theorem foldl_bitsOf (n v : Nat) : (bitsOf n v).foldl push (v / 2 ^ n) = v := by
  induction n with
  | zero => simp [bitsOf]
  | succ n ih => rw [bitsOf, List.foldl_cons, ← div_two_pow, ih]

theorem ofBits_bitsOf {n v : Nat} (h : v < 2 ^ n) : ofBits (bitsOf n v) = v := by
  have hfold := foldl_bitsOf n v
  rwa [Nat.div_eq_of_lt h] at hfold

theorem bitsOf_concat (n v : Nat) : bitsOf (n + 1) v = bitsOf n (v / 2) ++ [v.testBit 0] := by
  induction n with
  | zero => rfl
  | succ n ih =>
    rw [bitsOf, ih, bitsOf, List.cons_append, Nat.testBit_add_one]

theorem bitsOf_ofBits (bits : List Bool) : bitsOf bits.length (ofBits bits) = bits := by
  induction bits using List.reverseRecOn with
  | nil => rfl
  | append_singleton bits bit ih =>
    have hpush : ofBits (bits ++ [bit]) = push (ofBits bits) bit := by
      rw [ofBits, List.foldl_append]
      rfl
    have hdiv : push (ofBits bits) bit / 2 = ofBits bits := by
      cases bit
      · simp [push]
      · simp [push]
        omega
    have htest : (push (ofBits bits) bit).testBit 0 = bit := by
      cases bit <;> simp [push, Nat.testBit_zero]
    rw [hpush, List.length_append, List.length_singleton, bitsOf_concat, hdiv, htest, ih]

/-- `count` bytes of the bits, filled up with ones. -/
def packBytes : Nat → List Bool → List Nat
  | 0, _ => []
  | count + 1, bits =>
    ofBits ((bits ++ List.replicate 7 true).take 8) :: packBytes count (bits.drop 8)

def pack (bits : List Bool) : List Nat := packBytes ((bits.length + 7) / 8) bits

/-- The bits of the bytes are the bits that were packed, and less than a byte of ones. -/
theorem flatMap_pack (bits : List Bool) :
    ∃ count < 8, (pack bits).flatMap (bitsOf 8) = bits ++ List.replicate count true := by
  unfold pack
  generalize hcount : (bits.length + 7) / 8 = count
  induction count generalizing bits with
  | zero =>
    have hnil : bits = [] := List.eq_nil_of_length_eq_zero (by omega)
    exact ⟨0, by decide, by rw [hnil]; rfl⟩
  | succ count ih =>
    rw [packBytes, List.flatMap_cons]
    have hlength : ((bits ++ List.replicate 7 true).take 8).length = 8 := by
      rw [List.length_take, List.length_append, List.length_replicate]
      omega
    have hbyte := bitsOf_ofBits ((bits ++ List.replicate 7 true).take 8)
    rw [hlength] at hbyte
    rw [hbyte]
    by_cases hlong : 8 ≤ bits.length
    · obtain ⟨padding, hpadding, hrest⟩ := ih (bits.drop 8) (by rw [List.length_drop]; omega)
      refine ⟨padding, hpadding, ?_⟩
      rw [hrest, List.take_append_of_le_length hlong, ← List.append_assoc, List.take_append_drop]
    · refine ⟨8 - bits.length, by omega, ?_⟩
      have hzero : count = 0 := by omega
      rw [hzero, packBytes, List.flatMap_nil, List.append_nil, List.take_append,
        List.take_of_length_le (by omega), List.take_replicate]
      congr 2
      omega

end MsbBits
