import Mathlib.Data.Nat.Bitwise
import Mathlib.Algebra.Order.Ring.Nat
import Mathlib.Data.Nat.ModEq
import Mathlib.Tactic.Ring

set_option autoImplicit false

/-! # Words of bit fields

A word is a list of fields `(width, value)`, the lowest bits first. `pack` joins them; `extract` takes one
out again by a shift and a mask, and `unpack` takes out all. They are inverse: `unpack_pack` for
fields that fit their widths, `pack_unpack` for a word that the widths cover. -/

namespace BitFields

/-- The fields joined, the first in the lowest bits. -/
def pack : List (Nat × Nat) → Nat
  | [] => 0
  | (width, value) :: rest => value + 2 ^ width * pack rest

/-- The number of bits of the fields. -/
def bits : List (Nat × Nat) → Nat
  | [] => 0
  | (width, _) :: rest => width + bits rest

/-- Every value fits the width of its field. -/
def Fits : List (Nat × Nat) → Prop
  | [] => True
  | (width, value) :: rest => value < 2 ^ width ∧ Fits rest

/-- The bits of `word` from `low` on that `mask` leaves. -/
def extract (word low mask : Nat) : Nat := (word >>> low) &&& mask

theorem extract_eq {mask width : Nat} (hmask : mask + 1 = 2 ^ width) (word low : Nat) :
    extract word low mask = word / 2 ^ low % 2 ^ width := by
  have hm : mask = 2 ^ width - 1 := by omega
  rw [extract, hm, Nat.and_two_pow_sub_one_eq_mod, Nat.shiftRight_eq_div_pow]

theorem extract_lt {mask width : Nat} (hmask : mask + 1 = 2 ^ width) (word low : Nat) :
    extract word low mask < 2 ^ width := by
  rw [extract_eq hmask]
  exact Nat.mod_lt _ (Nat.two_pow_pos width)

theorem fits_append {below above : List (Nat × Nat)} (hbelow : Fits below) (habove : Fits above) :
    Fits (below ++ above) := by
  induction below with
  | nil => exact habove
  | cons head rest ih => exact ⟨hbelow.1, ih hbelow.2⟩

theorem bits_append (below above : List (Nat × Nat)) :
    bits (below ++ above) = bits below + bits above := by
  induction below with
  | nil => exact (Nat.zero_add _).symm
  | cons head rest ih => rw [List.cons_append, bits, bits, ih, Nat.add_assoc]

theorem pack_lt {fields : List (Nat × Nat)} (hfits : Fits fields) :
    pack fields < 2 ^ bits fields := by
  induction fields with
  | nil => exact Nat.one_pos
  | cons head rest ih =>
    obtain ⟨width, value⟩ := head
    obtain ⟨hvalue, hrest⟩ := hfits
    have hpack := ih hrest
    rw [pack, bits, Nat.pow_add]
    calc value + 2 ^ width * pack rest
        < 2 ^ width + 2 ^ width * pack rest := Nat.add_lt_add_right hvalue _
      _ = 2 ^ width * (pack rest + 1) := by ring
      _ ≤ 2 ^ width * 2 ^ bits rest := Nat.mul_le_mul_left _ hpack

/-- What stands above the first fields. -/
theorem pack_append_div {below : List (Nat × Nat)} (hfits : Fits below)
    (above : List (Nat × Nat)) : pack (below ++ above) / 2 ^ bits below = pack above := by
  induction below with
  | nil => simp [bits]
  | cons head rest ih =>
    obtain ⟨width, value⟩ := head
    obtain ⟨hvalue, hrest⟩ := hfits
    rw [List.cons_append, pack, bits, Nat.pow_add, ← Nat.div_div_eq_div_mul,
      Nat.add_mul_div_left _ _ (Nat.two_pow_pos width), Nat.div_eq_of_lt hvalue, Nat.zero_add,
      ih hrest]

/-- The fields of the given widths in a word, from the bit `low` on. -/
def unpack (word : Nat) : Nat → List Nat → List (Nat × Nat)
  | _, [] => []
  | low, width :: widths =>
    (width, extract word low (2 ^ width - 1)) :: unpack word (low + width) widths

theorem mask_add_one (width : Nat) : 2 ^ width - 1 + 1 = 2 ^ width :=
  Nat.sub_add_cancel (Nat.one_le_two_pow)

theorem fits_unpack (word low : Nat) (widths : List Nat) : Fits (unpack word low widths) := by
  induction widths generalizing low with
  | nil => trivial
  | cons width widths ih => exact ⟨extract_lt (mask_add_one width) word low, ih _⟩

/-- A word that the widths cover is its fields. -/
theorem pack_unpack {word low : Nat} {widths : List Nat} (hword : word < 2 ^ (low + widths.sum)) :
    pack (unpack word low widths) = word / 2 ^ low := by
  induction widths generalizing low with
  | nil =>
    have hzero : word / 2 ^ low = 0 := Nat.div_eq_of_lt (by simpa using hword)
    rw [unpack, pack, hzero]
  | cons width widths ih =>
    have hrest : word < 2 ^ (low + width + widths.sum) := by
      rwa [List.sum_cons, ← Nat.add_assoc] at hword
    rw [unpack, pack, ih hrest, extract_eq (mask_add_one width), Nat.pow_add,
      ← Nat.div_div_eq_div_mul]
    exact Nat.mod_add_div (word / 2 ^ low) (2 ^ width)

/-- The fields above the first ones. -/
theorem unpack_pack_append {below above : List (Nat × Nat)} (hbelow : Fits below)
    (habove : Fits above) :
    unpack (pack (below ++ above)) (bits below) (above.map Prod.fst) = above := by
  induction above generalizing below with
  | nil => rfl
  | cons head rest ih =>
    obtain ⟨width, value⟩ := head
    obtain ⟨hvalue, hrest⟩ := habove
    have hvalue' : extract (pack (below ++ (width, value) :: rest)) (bits below) (2 ^ width - 1) =
        value := by
      rw [extract_eq (mask_add_one width), pack_append_div hbelow, pack,
        Nat.add_mul_mod_self_left, Nat.mod_eq_of_lt hvalue]
    -- the rest follows with the head counted to the fields below
    have hhead : Fits [(width, value)] := ⟨hvalue, trivial⟩
    have hnext := ih (fits_append hbelow hhead) hrest
    rw [bits_append, List.append_assoc, List.singleton_append] at hnext
    rw [List.map_cons, unpack, hvalue']
    exact congrArg _ hnext

/-- The fields of a packed word are those that were packed. -/
theorem unpack_pack {fields : List (Nat × Nat)} (hfits : Fits fields) :
    unpack (pack fields) 0 (fields.map Prod.fst) = fields := by
  have hnone : Fits [] := trivial
  exact unpack_pack_append hnone hfits

/-- Two numbers of which one ends where the other begins. -/
theorem or_shiftLeft {low width : Nat} (hlow : low < 2 ^ width) (high : Nat) :
    low ||| (high <<< width) = low + 2 ^ width * high := by
  rw [Nat.or_comm, ← Nat.shiftLeft_add_eq_or_of_lt hlow, Nat.shiftLeft_eq, Nat.add_comm,
    Nat.mul_comm]

/-- A number of three parts. -/
theorem or_or_shiftLeft {low middle width width' : Nat} (hlow : low < 2 ^ width)
    (hmiddle : middle < 2 ^ width') (high : Nat) :
    low ||| (middle <<< width) ||| (high <<< (width + width')) =
      low + 2 ^ width * (middle + 2 ^ width' * high) := by
  have hshift : high <<< (width + width') = (high <<< width') <<< width := by
    rw [← Nat.shiftLeft_add, Nat.add_comm]
  rw [hshift, Nat.or_assoc, ← Nat.shiftLeft_or_distrib, or_shiftLeft hlow, or_shiftLeft hmiddle]

end BitFields
