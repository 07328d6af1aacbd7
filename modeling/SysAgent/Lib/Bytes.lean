import Mathlib.Data.UInt

set_option autoImplicit false

/-! # Facts about every byte -/

namespace Bytes

/-- A fact about the 256 bytes, as one that can be decided. -/
theorem forall_byte {p : UInt8 → Prop} (h : ∀ n < 256, p (UInt8.ofNat n)) (b : UInt8) : p b := by
  have hb := h b.toNat b.toNat_lt
  rwa [UInt8.ofNat_toNat] at hb

/-- A table of all bytes, from the numbers in it. -/
theorem table_eq {table : List UInt8} {f : UInt8 → UInt8} {g : Nat → Nat}
    (hf : ∀ a, (f a).toNat = g a.toNat)
    (h : table.map UInt8.toNat = (List.range 256).map g) :
    table = (List.range 256).map fun n => f (UInt8.ofNat n) := by
  apply List.map_injective_iff.2 (fun _ _ => UInt8.toNat_inj.1)
  rw [h, List.map_map]
  apply List.map_congr_left
  intro n hn
  rw [Function.comp_apply, hf, UInt8.toNat_ofNat', Nat.mod_eq_of_lt (List.mem_range.1 hn)]

end Bytes
