import Mathlib

set_option autoImplicit false

/-! # Records of fixed size

A record type with a byte representation of one size, read back from the beginning of any bytes
that start with it. Records are built from little-endian words, byte vectors and pairs, and carried
over to a structure by an inverse. -/

namespace Codec

/-! ## Little-endian words -/

/-- The `n` low bytes of a number, the lowest first. -/
def leBytes : Nat → Nat → List UInt8
  | 0, _ => []
  | n + 1, x => UInt8.ofNat x :: leBytes n (x / 256)

/-- The number that the first `n` bytes represent. -/
def leNat : Nat → List UInt8 → Nat
  | 0, _ => 0
  | _ + 1, [] => 0
  | n + 1, b :: rest => b.toNat + 256 * leNat n rest

@[simp] theorem length_leBytes (n x : Nat) : (leBytes n x).length = n := by
  induction n generalizing x with
  | zero => rfl
  | succ n ih => rw [leBytes, List.length_cons, ih]

theorem leNat_leBytes_append (n x : Nat) (rest : List UInt8) :
    leNat n (leBytes n x ++ rest) = x % 256 ^ n := by
  induction n generalizing x with
  | zero => simp [leNat, Nat.mod_one]
  | succ n ih =>
    rw [leBytes, List.cons_append, leNat, ih, Nat.pow_succ', Nat.mod_mul]
    simp

theorem leNat_lt (n : Nat) (bytes : List UInt8) : leNat n bytes < 256 ^ n := by
  induction n generalizing bytes with
  | zero => simp [leNat]
  | succ n ih =>
    cases bytes with
    | nil => exact Nat.pow_pos (by decide)
    | cons b rest =>
      have hb := b.toNat_lt
      have hrest := ih rest
      rw [leNat, Nat.pow_succ']
      omega

end Codec

/-- A record type with a representation of `size` bytes. -/
structure Codec (α : Type) where
  size : Nat
  encode : α → List UInt8
  decode : List UInt8 → α
  length_encode : ∀ a, (encode a).length = size
  decode_append : ∀ a rest, decode (encode a ++ rest) = a

namespace Codec

variable {α β : Type}

attribute [simp] Codec.length_encode Codec.decode_append

@[simp] theorem decode_encode (c : Codec α) (a : α) : c.decode (c.encode a) = a := by
  simpa using c.decode_append a []

/-! ## Words and byte vectors -/

def u8 : Codec UInt8 where
  size := 1
  encode x := leBytes 1 x.toNat
  decode s := UInt8.ofNat (leNat 1 s)
  length_encode _ := length_leBytes _ _
  decode_append x rest := by
    rw [leNat_leBytes_append, Nat.mod_eq_of_lt (by have := x.toNat_lt; omega)]
    exact UInt8.ofNat_toNat

def u16 : Codec UInt16 where
  size := 2
  encode x := leBytes 2 x.toNat
  decode s := UInt16.ofNat (leNat 2 s)
  length_encode _ := length_leBytes _ _
  decode_append x rest := by
    rw [leNat_leBytes_append, Nat.mod_eq_of_lt (by have := x.toNat_lt; omega)]
    exact UInt16.ofNat_toNat

def u32 : Codec UInt32 where
  size := 4
  encode x := leBytes 4 x.toNat
  decode s := UInt32.ofNat (leNat 4 s)
  length_encode _ := length_leBytes _ _
  decode_append x rest := by
    rw [leNat_leBytes_append, Nat.mod_eq_of_lt (by have := x.toNat_lt; omega)]
    exact UInt32.ofNat_toNat

def u64 : Codec UInt64 where
  size := 8
  encode x := leBytes 8 x.toNat
  decode s := UInt64.ofNat (leNat 8 s)
  length_encode _ := length_leBytes _ _
  decode_append x rest := by
    rw [leNat_leBytes_append, Nat.mod_eq_of_lt (by have := x.toNat_lt; omega)]
    exact UInt64.ofNat_toNat

def bytes (n : Nat) : Codec (Vector UInt8 n) where
  size := n
  encode v := v.toList
  decode s := Vector.ofFn fun i : Fin n => s.getD i 0
  length_encode v := by simp
  decode_append v rest := by
    ext i hi
    simp [List.getD_eq_getElem?_getD, List.getElem?_append_left]

/-! ## Composition -/

/-- One record after the other. -/
def pair (c : Codec α) (d : Codec β) : Codec (α × β) where
  size := c.size + d.size
  encode p := c.encode p.1 ++ d.encode p.2
  decode s := (c.decode s, d.decode (s.drop c.size))
  length_encode p := by simp
  decode_append p rest := by
    have hdrop : (c.encode p.1 ++ (d.encode p.2 ++ rest)).drop c.size = d.encode p.2 ++ rest := by
      rw [← c.length_encode p.1, List.drop_left]
    rw [List.append_assoc, c.decode_append, hdrop, d.decode_append]

/-- The same bytes, read as another type. -/
def iso (c : Codec α) (build : α → β) (fields : β → α) (h : ∀ b, build (fields b) = b) :
    Codec β where
  size := c.size
  encode b := c.encode (fields b)
  decode s := build (c.decode s)
  length_encode b := c.length_encode _
  decode_append b rest := by rw [c.decode_append, h]

end Codec
