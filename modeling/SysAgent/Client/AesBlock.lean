import SysAgent.Lib.Aes

set_option autoImplicit false

/-! # The title key of a ticket (`_aes128_ecb_decrypt_block` in `sysagent.py`)

The client decrypts a block with tables and a key schedule of its own. It takes the rounds of the
standard backwards: each of its rounds undoes one, up to the order of the steps between two of
them. -/

namespace SysAgent

open Aes Bytes

attribute [local instance] neZero_four

/-- `_AES_SBOX` -/
def AES_SBOX : List UInt8 :=
  [0x63, 0x7C, 0x77, 0x7B, 0xF2, 0x6B, 0x6F, 0xC5, 0x30, 0x01, 0x67, 0x2B, 0xFE, 0xD7, 0xAB, 0x76,
  0xCA, 0x82, 0xC9, 0x7D, 0xFA, 0x59, 0x47, 0xF0, 0xAD, 0xD4, 0xA2, 0xAF, 0x9C, 0xA4, 0x72, 0xC0,
  0xB7, 0xFD, 0x93, 0x26, 0x36, 0x3F, 0xF7, 0xCC, 0x34, 0xA5, 0xE5, 0xF1, 0x71, 0xD8, 0x31, 0x15,
  0x04, 0xC7, 0x23, 0xC3, 0x18, 0x96, 0x05, 0x9A, 0x07, 0x12, 0x80, 0xE2, 0xEB, 0x27, 0xB2, 0x75,
  0x09, 0x83, 0x2C, 0x1A, 0x1B, 0x6E, 0x5A, 0xA0, 0x52, 0x3B, 0xD6, 0xB3, 0x29, 0xE3, 0x2F, 0x84,
  0x53, 0xD1, 0x00, 0xED, 0x20, 0xFC, 0xB1, 0x5B, 0x6A, 0xCB, 0xBE, 0x39, 0x4A, 0x4C, 0x58, 0xCF,
  0xD0, 0xEF, 0xAA, 0xFB, 0x43, 0x4D, 0x33, 0x85, 0x45, 0xF9, 0x02, 0x7F, 0x50, 0x3C, 0x9F, 0xA8,
  0x51, 0xA3, 0x40, 0x8F, 0x92, 0x9D, 0x38, 0xF5, 0xBC, 0xB6, 0xDA, 0x21, 0x10, 0xFF, 0xF3, 0xD2,
  0xCD, 0x0C, 0x13, 0xEC, 0x5F, 0x97, 0x44, 0x17, 0xC4, 0xA7, 0x7E, 0x3D, 0x64, 0x5D, 0x19, 0x73,
  0x60, 0x81, 0x4F, 0xDC, 0x22, 0x2A, 0x90, 0x88, 0x46, 0xEE, 0xB8, 0x14, 0xDE, 0x5E, 0x0B, 0xDB,
  0xE0, 0x32, 0x3A, 0x0A, 0x49, 0x06, 0x24, 0x5C, 0xC2, 0xD3, 0xAC, 0x62, 0x91, 0x95, 0xE4, 0x79,
  0xE7, 0xC8, 0x37, 0x6D, 0x8D, 0xD5, 0x4E, 0xA9, 0x6C, 0x56, 0xF4, 0xEA, 0x65, 0x7A, 0xAE, 0x08,
  0xBA, 0x78, 0x25, 0x2E, 0x1C, 0xA6, 0xB4, 0xC6, 0xE8, 0xDD, 0x74, 0x1F, 0x4B, 0xBD, 0x8B, 0x8A,
  0x70, 0x3E, 0xB5, 0x66, 0x48, 0x03, 0xF6, 0x0E, 0x61, 0x35, 0x57, 0xB9, 0x86, 0xC1, 0x1D, 0x9E,
  0xE1, 0xF8, 0x98, 0x11, 0x69, 0xD9, 0x8E, 0x94, 0x9B, 0x1E, 0x87, 0xE9, 0xCE, 0x55, 0x28, 0xDF,
  0x8C, 0xA1, 0x89, 0x0D, 0xBF, 0xE6, 0x42, 0x68, 0x41, 0x99, 0x2D, 0x0F, 0xB0, 0x54, 0xBB, 0x16]

/-- `_AES_INV_SBOX` -/
def AES_INV_SBOX : List UInt8 :=
  (List.range 256).map fun i => UInt8.ofNat (AES_SBOX.idxOf (UInt8.ofNat i))

/-- `_AES_RCON` -/
def AES_RCON : List UInt8 :=
  [0x00, 0x01, 0x02, 0x04, 0x08, 0x10, 0x20, 0x40, 0x80, 0x1B, 0x36]

/-- `_aes_gf_mul`, with `left` turns to go. -/
def aesGfMulLoop : Nat → UInt8 → UInt8 → UInt8 → UInt8
  | 0, result, _, _ => result
  | left + 1, result, a, b =>
    let result := if b &&& 1 ≠ 0 then result ^^^ a else result
    let high := a &&& 0x80
    let a := a <<< 1
    let a := if high ≠ 0 then a ^^^ 0x1B else a
    aesGfMulLoop left result a (b >>> 1)

def aesGfMul (a b : UInt8) : UInt8 :=
  aesGfMulLoop 8 0 a b

def sboxAt (b : UInt8) : UInt8 := AES_SBOX.getD b.toNat 0

def invSboxAt (b : UInt8) : UInt8 := AES_INV_SBOX.getD b.toNat 0

/-- One turn of the loop of `_aes_expand_key_128`: the word with this index. -/
def expandWord (words : List Word) (i : Nat) : Word :=
  let temp := words.getD (i - 1) 0
  let temp : Word :=
    if i % 4 = 0 then
      let temp : Word := fun j => sboxAt (temp (j + 1))
      fun j => if j = 0 then temp j ^^^ AES_RCON.getD (i / 4) 0 else temp j
    else temp
  fun j => words.getD (i - 4) 0 j ^^^ temp j

/-- The grid of a round key. -/
def roundKeyGrid (words : List Word) (rnd : Nat) : State := fun row col =>
  words.getD (4 * rnd + col) 0 row

/-- `_aes_expand_key_128`: the grids of the round keys. -/
def aesExpandKey128 (key : List UInt8) : Option (List State) :=
  if key.length ≠ 16 then none
  else
    let words := (List.range' 4 40).foldl (fun words i => words ++ [expandWord words i])
      ((List.range 4).map fun i j => key.getD (4 * i + j) 0)
    some ((List.range 11).map (roundKeyGrid words))

def invShiftRows (state : State) : State := fun row col => state row (col - row)

def invSubBytes (state : State) : State := fun row col => invSboxAt (state row col)

def xorKey (roundKey state : State) : State := fun row col => state row col ^^^ roundKey row col

/-- The four assignments of `InvMixColumns` for one column. -/
def invMixColumns (state : State) : State := fun row col =>
  let a0 := state 0 col
  let a1 := state 1 col
  let a2 := state 2 col
  let a3 := state 3 col
  match row with
  | 0 => aesGfMul a0 14 ^^^ aesGfMul a1 11 ^^^ aesGfMul a2 13 ^^^ aesGfMul a3 9
  | 1 => aesGfMul a0 9 ^^^ aesGfMul a1 14 ^^^ aesGfMul a2 11 ^^^ aesGfMul a3 13
  | 2 => aesGfMul a0 13 ^^^ aesGfMul a1 9 ^^^ aesGfMul a2 14 ^^^ aesGfMul a3 11
  | 3 => aesGfMul a0 11 ^^^ aesGfMul a1 13 ^^^ aesGfMul a2 9 ^^^ aesGfMul a3 14

/-- One turn of the loop over the rounds. -/
def decryptRound (roundKeys : List State) (state : State) (rnd : Nat) : State :=
  invMixColumns (xorKey (roundKeys.getD rnd 0) (invSubBytes (invShiftRows state)))

/-- `_aes128_ecb_decrypt_block`; a length that is not 16 raises. -/
def aes128EcbDecryptBlock (key block : List UInt8) : Option (List UInt8) :=
  if block.length ≠ 16 then none
  else
    (aesExpandKey128 key).map fun roundKeys =>
      let state : State := fun row col => block.getD (row + 4 * col) 0
      let state := xorKey (roundKeys.getD 10 0) state
      let state := (List.range' 1 9).reverse.foldl (decryptRound roundKeys) state
      let state := xorKey (roundKeys.getD 0 0) (invSubBytes (invShiftRows state))
      (List.finRange 4).flatMap fun col => (List.finRange 4).map fun row => state row col

/-! ## Tables and products -/

/-- The table is that of the standard. -/
theorem AES_SBOX_eq : AES_SBOX = (List.range 256).map fun n => sbox (UInt8.ofNat n) := by
  apply table_eq toNat_sbox
  decide +kernel

theorem sboxAt_eq (a : UInt8) : sboxAt a = sbox a := by
  rw [sboxAt, AES_SBOX_eq, List.getD_eq_getElem?_getD, List.getElem?_map,
    List.getElem?_range a.toNat_lt, Option.map_some, Option.getD_some, UInt8.ofNat_toNat]

theorem nodup_AES_SBOX : AES_SBOX.Nodup := by
  rw [AES_SBOX_eq]
  refine List.Nodup.map_on (fun n hn m hm hsame => ?_) List.nodup_range
  have h := congrArg UInt8.toNat (sbox_injective hsame)
  rwa [UInt8.toNat_ofNat', UInt8.toNat_ofNat', Nat.mod_eq_of_lt (List.mem_range.1 hn),
    Nat.mod_eq_of_lt (List.mem_range.1 hm)] at h

theorem invSboxAt_sbox (a : UInt8) : invSboxAt (sbox a) = a := by
  have hlength : a.toNat < AES_SBOX.length := by
    rw [AES_SBOX_eq, List.length_map, List.length_range]
    exact a.toNat_lt
  have hget : AES_SBOX[a.toNat] = sbox a := by
    rw [← sboxAt_eq, sboxAt, List.getD_eq_getElem?_getD, List.getElem?_eq_getElem hlength,
      Option.getD_some]
  have hindex : AES_SBOX.idxOf (sbox a) = a.toNat := by
    rw [← hget]
    exact nodup_AES_SBOX.idxOf_getElem a.toNat hlength
  rw [invSboxAt, AES_INV_SBOX, List.getD_eq_getElem?_getD, List.getElem?_map,
    List.getElem?_range (sbox a).toNat_lt, Option.map_some, Option.getD_some, UInt8.ofNat_toNat,
    hindex, UInt8.ofNat_toNat]

theorem rcon_eq {i : Nat} (hpos : 0 < i) (h : i < 11) : AES_RCON.getD i 0 = rcon i 0 := by
  interval_cases i <;> rfl

/-- The other factor after one turn. -/
def xtime (a : UInt8) : UInt8 := if a &&& 0x80 ≠ 0 then (a <<< 1) ^^^ 0x1B else a <<< 1

theorem and_xor (a b c : UInt8) : (a ^^^ b) &&& c = (a &&& c) ^^^ (b &&& c) := by
  refine UInt8.toBitVec_inj.1 (BitVec.eq_of_getLsbD_eq fun i _ => ?_)
  simp only [UInt8.toBitVec_and, UInt8.toBitVec_xor, BitVec.getLsbD_and, BitVec.getLsbD_xor,
    Bool.and_xor_distrib_right]

/-- The highest bit is set or not. -/
theorem and_high (a : UInt8) : a &&& 0x80 = 0 ∨ a &&& 0x80 = 0x80 := by
  have hbit : (a &&& 0x80).toNat = (a.toNat.testBit 7).toNat * 2 ^ 7 := by
    rw [UInt8.toNat_and]
    exact Nat.and_two_pow a.toNat 7
  rw [← UInt8.toNat_inj, ← UInt8.toNat_inj, hbit]
  cases a.toNat.testBit 7
  · exact Or.inl rfl
  · exact Or.inr rfl

theorem xtime_xor (a b : UInt8) : xtime (a ^^^ b) = xtime a ^^^ xtime b := by
  unfold xtime
  rw [and_xor, UInt8.shiftLeft_xor]
  have hcancel : ∀ x y k : UInt8, (x ^^^ k) ^^^ (y ^^^ k) = x ^^^ y := by
    intro x y k
    rw [show (x ^^^ k) ^^^ (y ^^^ k) = (x ^^^ y) ^^^ (k ^^^ k) by ac_rfl, UInt8.xor_self,
      UInt8.xor_zero]
  rcases and_high a with ha | ha <;> rcases and_high b with hb | hb <;> rw [ha, hb]
  · simp
  · simp [UInt8.xor_assoc]
  · have hswap : ∀ x y k : UInt8, (x ^^^ y) ^^^ k = (x ^^^ k) ^^^ y := by
      intro x y k
      ac_rfl
    simp [hswap]
  · simp [hcancel]

theorem aesGfMulLoop_succ (left : Nat) (result a b : UInt8) :
    aesGfMulLoop (left + 1) result a b =
      aesGfMulLoop left (if b &&& 1 ≠ 0 then result ^^^ a else result) (xtime a) (b >>> 1) := rfl

theorem aesGfMulLoop_xor (left : Nat) (r r' a a' b : UInt8) :
    aesGfMulLoop left (r ^^^ r') (a ^^^ a') b =
      aesGfMulLoop left r a b ^^^ aesGfMulLoop left r' a' b := by
  induction left generalizing r r' a a' b with
  | zero => rfl
  | succ left ih =>
    rw [aesGfMulLoop_succ, aesGfMulLoop_succ, aesGfMulLoop_succ, xtime_xor]
    split_ifs with hbit
    · rw [show r ^^^ r' ^^^ (a ^^^ a') = (r ^^^ a) ^^^ (r' ^^^ a') by ac_rfl]
      exact ih (r ^^^ a) (r' ^^^ a') (xtime a) (xtime a') (b >>> 1)
    · exact ih r r' (xtime a) (xtime a') (b >>> 1)

theorem aesGfMul_xor (a a' b : UInt8) :
    aesGfMul (a ^^^ a') b = aesGfMul a b ^^^ aesGfMul a' b := by
  have h := aesGfMulLoop_xor 8 0 0 a a' b
  rwa [UInt8.xor_self] at h

/-! ## Each step undoes one of the standard -/

/-- The factors of `MixColumns`. -/
theorem mul_two_three (a : UInt8) : mul 2 a = xtime a ∧ mul 3 a = xtime a ^^^ a :=
  forall_byte (p := fun a => mul 2 a = xtime a ∧ mul 3 a = xtime a ^^^ a) (by decide +kernel) a

theorem aesGfMul_9 (a : UInt8) : aesGfMul a 9 = 0 ^^^ a ^^^ xtime (xtime (xtime a)) := rfl

theorem aesGfMul_11 (a : UInt8) :
    aesGfMul a 11 = 0 ^^^ a ^^^ xtime a ^^^ xtime (xtime (xtime a)) := rfl

theorem aesGfMul_13 (a : UInt8) :
    aesGfMul a 13 = 0 ^^^ a ^^^ xtime (xtime a) ^^^ xtime (xtime (xtime a)) := rfl

theorem aesGfMul_14 (a : UInt8) :
    aesGfMul a 14 = 0 ^^^ xtime a ^^^ xtime (xtime a) ^^^ xtime (xtime (xtime a)) := rfl

theorem xor_swap (x y z : UInt8) : x ^^^ (y ^^^ z) = y ^^^ (x ^^^ z) := by
  ac_rfl

theorem xor_xor_cancel (x y : UInt8) : x ^^^ (x ^^^ y) = y := by
  rw [← UInt8.xor_assoc, UInt8.xor_self, UInt8.zero_xor]

/-- The products of the two matrices, for one byte of a column: in each sum the powers of `x` come
in pairs, up to the byte itself in the first. -/
theorem mix_coefficients (a : UInt8) :
    (aesGfMul (mul 2 a) 14 ^^^ aesGfMul a 11 ^^^ aesGfMul a 13 ^^^ aesGfMul (mul 3 a) 9 = a) ∧
    (aesGfMul (mul 3 a) 14 ^^^ aesGfMul (mul 2 a) 11 ^^^ aesGfMul a 13 ^^^ aesGfMul a 9 = 0) ∧
    (aesGfMul a 14 ^^^ aesGfMul (mul 3 a) 11 ^^^ aesGfMul (mul 2 a) 13 ^^^ aesGfMul a 9 = 0) ∧
    aesGfMul a 14 ^^^ aesGfMul a 11 ^^^ aesGfMul (mul 3 a) 13 ^^^ aesGfMul (mul 2 a) 9 = 0 := by
  obtain ⟨htwo, hthree⟩ := mul_two_three a
  rw [htwo, hthree]
  simp only [aesGfMul_9, aesGfMul_11, aesGfMul_13, aesGfMul_14, xtime_xor, UInt8.zero_xor]
  -- the powers as bytes of their own
  generalize xtime (xtime (xtime (xtime a))) = x4
  generalize xtime (xtime (xtime a)) = x3
  generalize xtime (xtime a) = x2
  generalize xtime a = x1
  refine ⟨?_, ?_, ?_, ?_⟩
  all_goals simp only [UInt8.xor_comm, xor_swap, xor_xor_cancel, UInt8.xor_self, UInt8.xor_zero]

/-- A row of `InvMixColumns` finds the byte of its row again. -/
theorem mixRow_back (a b c d : UInt8) :
    aesGfMul (mixRow a b c d) 14 ^^^ aesGfMul (mixRow b c d a) 11 ^^^
      aesGfMul (mixRow c d a b) 13 ^^^ aesGfMul (mixRow d a b c) 9 = a := by
  obtain ⟨ha, -, -, -⟩ := mix_coefficients a
  obtain ⟨-, hb, -, -⟩ := mix_coefficients b
  obtain ⟨-, -, hc, -⟩ := mix_coefficients c
  obtain ⟨-, -, -, hd⟩ := mix_coefficients d
  unfold mixRow
  simp only [aesGfMul_xor]
  calc _ = (aesGfMul (mul 2 a) 14 ^^^ aesGfMul a 11 ^^^ aesGfMul a 13 ^^^ aesGfMul (mul 3 a) 9) ^^^
        (aesGfMul (mul 3 b) 14 ^^^ aesGfMul (mul 2 b) 11 ^^^ aesGfMul b 13 ^^^ aesGfMul b 9) ^^^
        (aesGfMul c 14 ^^^ aesGfMul (mul 3 c) 11 ^^^ aesGfMul (mul 2 c) 13 ^^^ aesGfMul c 9) ^^^
        (aesGfMul d 14 ^^^ aesGfMul d 11 ^^^ aesGfMul (mul 3 d) 13 ^^^
          aesGfMul (mul 2 d) 9) := by ac_rfl
    _ = a := by rw [ha, hb, hc, hd, UInt8.xor_zero, UInt8.xor_zero, UInt8.xor_zero]

theorem invMixColumns_mixColumns (s : State) : invMixColumns (mixColumns s) = s := by
  funext row col
  fin_cases row
  · exact mixRow_back (s 0 col) (s 1 col) (s 2 col) (s 3 col)
  · refine Eq.trans ?_ (mixRow_back (s 1 col) (s 2 col) (s 3 col) (s 0 col))
    show aesGfMul (mixColumns s 0 col) 9 ^^^ aesGfMul (mixColumns s 1 col) 14 ^^^
      aesGfMul (mixColumns s 2 col) 11 ^^^ aesGfMul (mixColumns s 3 col) 13 = _
    unfold mixColumns
    ac_rfl
  · refine Eq.trans ?_ (mixRow_back (s 2 col) (s 3 col) (s 0 col) (s 1 col))
    show aesGfMul (mixColumns s 0 col) 13 ^^^ aesGfMul (mixColumns s 1 col) 9 ^^^
      aesGfMul (mixColumns s 2 col) 14 ^^^ aesGfMul (mixColumns s 3 col) 11 = _
    unfold mixColumns
    ac_rfl
  · refine Eq.trans ?_ (mixRow_back (s 3 col) (s 0 col) (s 1 col) (s 2 col))
    show aesGfMul (mixColumns s 0 col) 11 ^^^ aesGfMul (mixColumns s 1 col) 13 ^^^
      aesGfMul (mixColumns s 2 col) 9 ^^^ aesGfMul (mixColumns s 3 col) 14 = _
    unfold mixColumns
    ac_rfl

theorem invShiftRows_shiftRows (s : State) : invShiftRows (shiftRows s) = s := by
  funext row col
  unfold invShiftRows shiftRows
  rw [sub_add_cancel]

theorem invSubBytes_subBytes (s : State) : invSubBytes (subBytes s) = s := by
  funext row col
  exact invSboxAt_sbox (s row col)

theorem invSubBytes_invShiftRows (s : State) :
    invSubBytes (invShiftRows (shiftRows (subBytes s))) = s := by
  rw [invShiftRows_shiftRows, invSubBytes_subBytes]

/-! ## The key schedule -/

theorem expandWord_eq {words : List Word} {i : Nat} (hlow : 4 ≤ i) (hhigh : i < 44) :
    expandWord words i = nextWord words i := by
  unfold expandWord nextWord
  dsimp only
  split_ifs with hround
  · funext j
    refine congrArg (words.getD (i - 4) 0 j ^^^ ·) ?_
    unfold subWord rotWord
    dsimp only
    split_ifs with hj
    · rw [sboxAt_eq, hj, rcon_eq (by omega) (by omega)]
    · rw [sboxAt_eq, rcon, if_neg hj, UInt8.xor_zero]
  · rfl

/-- The words of the client are those of the standard. -/
theorem expandWords_eq (key : Fin 16 → UInt8) :
    (List.range' 4 40).foldl (fun words i => words ++ [expandWord words i])
      ((List.range 4).map fun i j => (List.ofFn key).getD (4 * i + j) 0) = keyExpansion key := by
  have hfirst : ((List.range 4).map fun i (j : Fin 4) => (List.ofFn key).getD (4 * i + j) 0) =
      (List.range 4).map fun i (j : Fin 4) => key (Fin.ofNat 16 (4 * i + j)) := by
    refine List.map_congr_left fun i hi => ?_
    have hi := List.mem_range.1 hi
    funext j
    have hlt : 4 * i + j.val < 16 := by omega
    rw [List.getD_eq_getElem?_getD, List.getElem?_ofFn, dif_pos hlt, Option.getD_some]
    exact congrArg key (Fin.ext (Nat.mod_eq_of_lt hlt).symm)
  unfold keyExpansion
  rw [hfirst]
  refine List.foldl_ext _ _ _ fun words i hi => ?_
  rw [List.mem_range'_1] at hi
  rw [expandWord_eq hi.1 (by omega)]

/-! ## The rounds -/

section Rounds

variable {key : Fin 16 → UInt8} {roundKeys : List State}

theorem xorKey_addRoundKey {round : Nat}
    (hkeys : roundKeys.getD round 0 = roundKeyGrid (keyExpansion key) round)
    (s : State) :
    xorKey (roundKeys.getD round 0) (addRoundKey (keyExpansion key) round s) = s := by
  funext row col
  unfold xorKey addRoundKey
  rw [hkeys, roundKeyGrid, UInt8.xor_assoc, UInt8.xor_self, UInt8.xor_zero]

/-- A round of the client undoes one of the standard, one step out of phase. -/
theorem decryptRound_round {i : Nat}
    (hkeys : roundKeys.getD i 0 = roundKeyGrid (keyExpansion key) i)
    (s : State) :
    decryptRound roundKeys (shiftRows (subBytes (cipherRound (keyExpansion key) s i))) i =
      shiftRows (subBytes s) := by
  unfold decryptRound
  rw [invSubBytes_invShiftRows, cipherRound, xorKey_addRoundKey hkeys, invMixColumns_mixColumns]

/-- The rounds in the other order. -/
theorem decryptRounds_rounds (rounds : List Nat)
    (hkeys : ∀ i ∈ rounds,
      roundKeys.getD i 0 = roundKeyGrid (keyExpansion key) i) (s : State) :
    rounds.reverse.foldl (decryptRound roundKeys)
        (shiftRows (subBytes (rounds.foldl (cipherRound (keyExpansion key)) s))) =
      shiftRows (subBytes s) := by
  induction rounds generalizing s with
  | nil => rfl
  | cons i rounds ih =>
    simp only [List.reverse_cons, List.foldl_append, List.foldl_cons, List.foldl_nil]
    rw [ih fun j hj => hkeys j (List.mem_cons_of_mem i hj),
      decryptRound_round (hkeys i List.mem_cons_self)]

end Rounds

/-! ## A block -/

theorem aesExpandKey128_ofFn (key : Fin 16 → UInt8) :
    aesExpandKey128 (List.ofFn key) =
      some ((List.range 11).map (roundKeyGrid (keyExpansion key))) := by
  have hlength : ¬ (List.ofFn key).length ≠ 16 := not_not.2 List.length_ofFn
  unfold aesExpandKey128
  rw [if_neg hlength]
  dsimp only
  rw [expandWords_eq]

theorem roundKey_getD (words : List Word) {i : Nat} (h : i < 11) :
    ((List.range 11).map (roundKeyGrid words)).getD i 0 = roundKeyGrid words i := by
  rw [List.getD_eq_getElem?_getD, List.getElem?_map, List.getElem?_range h, Option.map_some,
    Option.getD_some]

/-- The grid of a state that was written out. -/
theorem bytesOf_getD (s : State) (row col : Fin 4) :
    (bytesOf s).getD (row + 4 * col) 0 = s row col := by
  have hlt : row.val + 4 * col.val < 16 := by omega
  have hrow : (row.val + 4 * col.val) % 4 = row.val := by omega
  have hcol : (row.val + 4 * col.val) / 4 = col.val := by omega
  rw [bytesOf, List.getD_eq_getElem?_getD, List.getElem?_map, List.getElem?_range hlt,
    Option.map_some, Option.getD_some, hrow, hcol, Fin.ofNat_val_eq_self, Fin.ofNat_val_eq_self]

theorem bytes_stateOf (block : Fin 16 → UInt8) :
    ((List.finRange 4).flatMap fun col => (List.finRange 4).map fun row => stateOf block row col) =
      List.ofFn block := rfl

/-- Decryption finds the block again that the standard has encrypted. -/
theorem decrypt_inverts_standard (key block : Fin 16 → UInt8) :
    aes128EcbDecryptBlock (List.ofFn key) (bytesOf (encrypt key block)) =
      some (List.ofFn block) := by
  have hlength : ¬ (bytesOf (encrypt key block)).length ≠ 16 := by
    rw [bytesOf, List.length_map, List.length_range]
    exact not_not.2 rfl
  have hstate : (fun (row col : Fin 4) =>
      (bytesOf (encrypt key block)).getD (row + 4 * col) 0) = encrypt key block := by
    funext row col
    exact bytesOf_getD _ row col
  unfold aes128EcbDecryptBlock
  rw [if_neg hlength, aesExpandKey128_ofFn, Option.map_some]
  dsimp only
  rw [hstate, encrypt, xorKey_addRoundKey (roundKey_getD _ (by decide)),
    decryptRounds_rounds _ fun i hi => roundKey_getD _ (by rw [List.mem_range'_1] at hi; omega),
    invSubBytes_invShiftRows, xorKey_addRoundKey (roundKey_getD _ (by decide)), bytes_stateOf]

end SysAgent
