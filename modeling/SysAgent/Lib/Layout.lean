import SysAgent.Lib.Codec

set_option autoImplicit false

/-! # Bytes at an offset

`At data offset bytes` says that `bytes` stands in `data` at `offset`. A layout is a list of such
facts, one after the other; `at_append` splits and joins them, and `at_flatMap` does so for a list of
records. -/

namespace Layout

variable {α β : Type}

def At (data : List α) (offset : Nat) (bytes : List α) : Prop := bytes <+: data.drop offset

@[simp] theorem at_nil (data : List α) (offset : Nat) : At data offset [] := List.nil_prefix

theorem at_append {data : List α} {offset : Nat} {front back : List α} :
    At data offset (front ++ back) ↔
      At data offset front ∧ At data (offset + front.length) back := by
  constructor
  · rintro ⟨rest, h⟩
    have hdrop : data.drop (offset + front.length) = back ++ rest := by
      rw [← List.drop_drop, ← h, List.append_assoc, List.drop_left]
    exact ⟨⟨back ++ rest, by rw [← h, List.append_assoc]⟩, ⟨rest, hdrop.symm⟩⟩
  · rintro ⟨⟨rest, hfront⟩, hback⟩
    have hdrop : data.drop (offset + front.length) = rest := by
      rw [← List.drop_drop, ← hfront, List.drop_left]
    rw [At, hdrop] at hback
    rw [At, ← hfront]
    exact (List.prefix_append_right_inj front).2 hback

theorem At.length_le {data bytes : List α} {offset : Nat} (h : At data offset bytes)
    (hne : bytes ≠ []) : offset + bytes.length ≤ data.length := by
  have hle := List.IsPrefix.length_le h
  have hpos := List.length_pos_of_ne_nil hne
  rw [List.length_drop] at hle
  omega

theorem At.take {data bytes : List α} {offset : Nat} (h : At data offset bytes) :
    (data.drop offset).take bytes.length = bytes :=
  (List.prefix_iff_eq_take.1 h).symm

theorem at_take (data : List α) (offset n : Nat) : At data offset ((data.drop offset).take n) :=
  List.take_prefix n _

/-- Bytes of one length at one offset are the same. -/
theorem At.unique {data a b : List α} {offset : Nat} (ha : At data offset a)
    (hb : At data offset b) (hlength : a.length = b.length) : a = b := by
  rw [← ha.take, ← hb.take, hlength]

theorem at_zero {data bytes : List α} : At data 0 bytes ↔ ∃ rest, data = bytes ++ rest := by
  constructor
  · rintro ⟨rest, h⟩
    exact ⟨rest, h.symm⟩
  · rintro ⟨rest, rfl⟩
    exact ⟨rest, rfl⟩

/-- Records of one size, one after the other. -/
theorem at_flatMap_cons {data : List α} {offset : Nat} (encode : β → List α) (b : β)
    (rest : List β) :
    At data offset ((b :: rest).flatMap encode) ↔
      At data offset (encode b) ∧ At data (offset + (encode b).length) (rest.flatMap encode) := by
  rw [List.flatMap_cons, at_append]

theorem length_flatMap_of_size {encode : β → List α} {size : Nat}
    (hsize : ∀ b, (encode b).length = size) (bs : List β) :
    (bs.flatMap encode).length = size * bs.length := by
  induction bs with
  | nil => rfl
  | cons b rest ih =>
    rw [List.flatMap_cons, List.length_append, hsize, ih, List.length_cons, Nat.mul_succ,
      Nat.add_comm]

/-! ## Little-endian words -/

theorem leBytes_leNat (n : Nat) (bytes : List UInt8) (h : n ≤ bytes.length) :
    Codec.leBytes n (Codec.leNat n bytes) = bytes.take n := by
  induction n generalizing bytes with
  | zero => rfl
  | succ n ih =>
    cases bytes with
    | nil => simp at h
    | cons b rest =>
      have hb := b.toNat_lt
      have hdiv : (b.toNat + 256 * Codec.leNat n rest) / 256 = Codec.leNat n rest := by omega
      have hbyte : UInt8.ofNat (b.toNat + 256 * Codec.leNat n rest) = b := by
        apply UInt8.toNat_inj.1
        rw [UInt8.toNat_ofNat']
        omega
      rw [Codec.leNat, Codec.leBytes, hdiv, hbyte, List.take_succ_cons,
        ih rest (by simpa using h)]

/-- The word at an offset is the number whose bytes stand there. -/
theorem at_leBytes_iff {data : List UInt8} {offset n value : Nat} (hn : 0 < n) :
    (value < 256 ^ n ∧ At data offset (Codec.leBytes n value)) ↔
      offset + n ≤ data.length ∧ Codec.leNat n (data.drop offset) = value := by
  constructor
  · rintro ⟨hvalue, rest, h⟩
    have hne : Codec.leBytes n value ≠ [] := by
      intro hnil
      have hlength := Codec.length_leBytes n value
      rw [hnil, List.length_nil] at hlength
      omega
    refine ⟨?_, ?_⟩
    · simpa using At.length_le ⟨rest, h⟩ hne
    · rw [← h, Codec.leNat_leBytes_append, Nat.mod_eq_of_lt hvalue]
  · rintro ⟨hlength, rfl⟩
    refine ⟨Codec.leNat_lt n _, ?_⟩
    rw [leBytes_leNat n _ (by rw [List.length_drop]; omega)]
    exact at_take data offset n

end Layout
