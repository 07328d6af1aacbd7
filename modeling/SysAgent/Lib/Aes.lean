import Mathlib
import SysAgent.Lib.Bytes

set_option autoImplicit false

/-! # The AES-128 cipher (FIPS-197)

The field of bytes, the S-box, the key expansion and the cipher as the standard defines them: a
product is one of polynomials modulo `x^8 + x^4 + x^3 + x + 1`, the S-box an inverse and an affine
map. A state is indexed by its row and its column. -/

namespace Aes

open Bytes

/-! ## The field -/

/-- The product of two polynomials over the field with two elements, as the bits of numbers. -/
def polyMul (a b : Nat) : Nat :=
  (List.range 8).foldl (fun product i => product ^^^ ((b >>> i) % 2 * (a <<< i))) 0

/-- The remainder of a polynomial of degree at most 14. -/
def polyMod (a : Nat) : Nat :=
  (List.range 7).reverse.foldl
    (fun rest i => rest ^^^ ((rest >>> (i + 8)) % 2 * (0x11B <<< i))) a

/-- The product of the field. -/
def mul (a b : UInt8) : UInt8 :=
  UInt8.ofNat (polyMod (polyMul a.toNat b.toNat))

def pow (a : UInt8) : Nat → UInt8
  | 0 => 1
  | n + 1 => mul (pow a n) a

/-- `b^254`, the multiplicative inverse of a byte that is not zero. -/
def inverse (a : UInt8) : UInt8 :=
  let a2 := mul a a
  let a4 := mul a2 a2
  let a8 := mul a4 a4
  let a16 := mul a8 a8
  let a32 := mul a16 a16
  let a64 := mul a32 a32
  let a128 := mul a64 a64
  mul a128 (mul a64 (mul a32 (mul a16 (mul a8 (mul a4 a2)))))

/-- The product of the numbers of two bytes, written out in operations that the kernel computes. -/
def mulNat (a b : Nat) : Nat :=
  let bit (i product : Nat) : Nat :=
    Nat.xor product (Nat.mul (Nat.mod (Nat.shiftRight b i) 2) (Nat.shiftLeft a i))
  let step (i rest : Nat) : Nat :=
    Nat.xor rest (Nat.mul (Nat.mod (Nat.shiftRight rest (i + 8)) 2) (Nat.shiftLeft 0x11B i))
  Nat.mod (step 0 (step 1 (step 2 (step 3 (step 4 (step 5 (step 6
    (bit 7 (bit 6 (bit 5 (bit 4 (bit 3 (bit 2 (bit 1 (bit 0 0))))))))))))))) 256

theorem toNat_mul (a b : UInt8) : (mul a b).toNat = mulNat a.toNat b.toNat :=
  UInt8.toNat_ofNat'

def inverseNat (a : Nat) : Nat :=
  let a2 := mulNat a a
  let a4 := mulNat a2 a2
  let a8 := mulNat a4 a4
  let a16 := mulNat a8 a8
  let a32 := mulNat a16 a16
  let a64 := mulNat a32 a32
  let a128 := mulNat a64 a64
  mulNat a128 (mulNat a64 (mulNat a32 (mulNat a16 (mulNat a8 (mulNat a4 a2)))))

theorem toNat_inverse (a : UInt8) : (inverse a).toNat = inverseNat a.toNat := by
  simp only [inverse, inverseNat, toNat_mul]

/-! ## The S-box -/

/-- The affine map: each bit is the sum of five bits and one of `0x63`. -/
def affine (a : UInt8) : UInt8 :=
  let bit (i : Nat) : Nat := (a.toNat >>> (i % 8)) % 2
  UInt8.ofNat ((List.range 8).foldl (fun sum i => sum +
    (bit i + bit (i + 4) + bit (i + 5) + bit (i + 6) + bit (i + 7) + (0x63 >>> i) % 2) % 2 *
      2 ^ i) 0)

def sbox (a : UInt8) : UInt8 :=
  affine (inverse a)

/-- The number of a byte of the S-box, the sum of the affine map written out. -/
def sboxNat (n : Nat) : Nat :=
  let bit (i : Nat) : Nat := inverseNat n >>> (i % 8) % 2
  let term (i sum : Nat) : Nat := sum +
    (bit i + bit (i + 4) + bit (i + 5) + bit (i + 6) + bit (i + 7) + (0x63 >>> i) % 2) % 2 * 2 ^ i
  term 7 (term 6 (term 5 (term 4 (term 3 (term 2 (term 1 (term 0 0))))))) % 256

theorem toNat_sbox (a : UInt8) : (sbox a).toNat = sboxNat a.toNat := by
  unfold sboxNat
  rw [← toNat_inverse]
  exact UInt8.toNat_ofNat'

/-- The inverse of the affine map. -/
def unaffine (a : UInt8) : UInt8 :=
  let bit (i : Nat) : Nat := (a.toNat >>> (i % 8)) % 2
  UInt8.ofNat ((List.range 8).foldl (fun sum i => sum +
    (bit (i + 2) + bit (i + 5) + bit (i + 7) + (0x05 >>> i) % 2) % 2 * 2 ^ i) 0)

/-- `InvSubBytes` of one byte. -/
def invSbox (a : UInt8) : UInt8 :=
  inverse (unaffine a)

def invSboxNat (n : Nat) : Nat :=
  let bit (i : Nat) : Nat := n >>> (i % 8) % 2
  let term (i sum : Nat) : Nat := sum +
    (bit (i + 2) + bit (i + 5) + bit (i + 7) + (0x05 >>> i) % 2) % 2 * 2 ^ i
  inverseNat (term 7 (term 6 (term 5 (term 4 (term 3 (term 2 (term 1 (term 0 0))))))) % 256)

theorem toNat_invSbox (a : UInt8) : (invSbox a).toNat = invSboxNat a.toNat := by
  have hunaffine : (unaffine a).toNat = _ := UInt8.toNat_ofNat'
  rw [invSbox, toNat_inverse, hunaffine]
  rfl

theorem invSboxNat_sboxNat : ∀ n < 256, invSboxNat (sboxNat n) = n := by
  decide +kernel

theorem invSbox_sbox (a : UInt8) : invSbox (sbox a) = a := by
  apply UInt8.toNat_inj.1
  rw [toNat_invSbox, toNat_sbox]
  exact invSboxNat_sboxNat a.toNat a.toNat_lt

theorem sbox_injective : Function.Injective sbox :=
  Function.LeftInverse.injective invSbox_sbox

/-! ## The key expansion -/

theorem neZero_four : NeZero 4 := ⟨Nat.succ_ne_zero 3⟩

-- one proof behind the indices of rows and columns, here and where the cipher is used
attribute [local instance] neZero_four

/-- Four bytes. -/
abbrev Word := Fin 4 → UInt8

def rotWord (w : Word) : Word := fun j => w (j + 1)

def subWord (w : Word) : Word := fun j => sbox (w j)

/-- `[x^(i-1), 0, 0, 0]` -/
def rcon (i : Nat) : Word := fun j => if j = 0 then pow 2 (i - 1) else 0

/-- The word with this index, after those before it. -/
def nextWord (words : List Word) (i : Nat) : Word :=
  let temp := words.getD (i - 1) 0
  let temp := if i % 4 = 0 then fun j => subWord (rotWord temp) j ^^^ rcon (i / 4) j else temp
  fun j => words.getD (i - 4) 0 j ^^^ temp j

/-- The 44 words of the key schedule. -/
def keyExpansion (key : Fin 16 → UInt8) : List Word :=
  (List.range' 4 40).foldl (fun words i => words ++ [nextWord words i])
    ((List.range 4).map fun i j => key (Fin.ofNat 16 (4 * i + j)))

/-! ## The cipher -/

/-- The bytes by row and column. -/
abbrev State := Fin 4 → Fin 4 → UInt8

def addRoundKey (words : List Word) (round : Nat) (s : State) : State :=
  fun r c => s r c ^^^ words.getD (4 * round + c) 0 r

def subBytes (s : State) : State := fun r c => sbox (s r c)

def shiftRows (s : State) : State := fun r c => s r (c + r)

/-- One row of `MixColumns`, from the bytes of a column below it in turn. -/
def mixRow (a b c d : UInt8) : UInt8 := mul 2 a ^^^ mul 3 b ^^^ c ^^^ d

def mixColumns (s : State) : State :=
  fun r c => mixRow (s r c) (s (r + 1) c) (s (r + 2) c) (s (r + 3) c)

def cipherRound (words : List Word) (s : State) (i : Nat) : State :=
  addRoundKey words i (mixColumns (shiftRows (subBytes s)))

def stateOf (input : Fin 16 → UInt8) : State :=
  fun r c => input (Fin.ofNat 16 (r + 4 * c))

/-- `Cipher`, with the key expansion of the key. -/
def encrypt (key block : Fin 16 → UInt8) : State :=
  let words := keyExpansion key
  let s := (List.range' 1 9).foldl (cipherRound words) (addRoundKey words 0 (stateOf block))
  addRoundKey words 10 (shiftRows (subBytes s))

/-- The bytes of a state, column by column. -/
def bytesOf (s : State) : List UInt8 :=
  (List.range 16).map fun i => s (Fin.ofNat 4 (i % 4)) (Fin.ofNat 4 (i / 4))

end Aes
