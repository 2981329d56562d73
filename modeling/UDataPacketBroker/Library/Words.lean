/-
# Machine words as linear orders

`UInt8`, `UInt64` and `Int64` carry `≤`, `<`, `min`, `max` and `compare` in
core Lean.  The lattice and order lemmas of Mathlib are stated over
`LinearOrder`, so the three types get that structure here, with the operations
core already gives them: an order lemma then rewrites the very `min` and `max`
a program computes with.
-/

import Mathlib.Algebra.Order.Ring.Int
import Mathlib.Order.Defs.LinearOrder
import Mathlib.Order.Lattice

namespace UDataPacketBroker
namespace Library

instance linearOrderUInt8 : LinearOrder UInt8 where
  le_refl a := UInt8.le_refl a
  le_trans _ _ _ := UInt8.le_trans
  le_antisymm _ _ := UInt8.le_antisymm
  le_total := UInt8.le_total
  lt_iff_le_not_ge a b := by
    simp only [UInt8.lt_iff_toNat_lt, UInt8.le_iff_toNat_le]; omega
  toDecidableLE := inferInstance
  toDecidableEq := inferInstance
  toDecidableLT := inferInstance

instance linearOrderUInt64 : LinearOrder UInt64 where
  le_refl a := UInt64.le_refl a
  le_trans _ _ _ := UInt64.le_trans
  le_antisymm _ _ := UInt64.le_antisymm
  le_total := UInt64.le_total
  lt_iff_le_not_ge a b := by
    simp only [UInt64.lt_iff_toNat_lt, UInt64.le_iff_toNat_le]; omega
  toDecidableLE := inferInstance
  toDecidableEq := inferInstance
  toDecidableLT := inferInstance

instance linearOrderInt64 : LinearOrder Int64 where
  le_refl a := Int64.le_refl a
  le_trans _ _ _ := Int64.le_trans
  le_antisymm _ _ := Int64.le_antisymm
  le_total := Int64.le_total
  lt_iff_le_not_ge a b := by
    simp only [Int64.lt_iff_toInt_lt, Int64.le_iff_toInt_le]; omega
  toDecidableLE := inferInstance
  toDecidableEq := inferInstance
  toDecidableLT := inferInstance

/-- The zero byte is the least one. -/
theorem zero_le_uint8 (b : UInt8) : 0 ≤ b := by
  simp [UInt8.le_iff_toNat_le]

/-- Zero is the least 64-bit word. -/
theorem zero_le_uint64 (a : UInt64) : 0 ≤ a := by
  simp [UInt64.le_iff_toNat_le]

/-- The greatest 64-bit number. -/
theorem toNat_max_uint64 : (0xFFFFFFFFFFFFFFFF : UInt64).toNat = 2 ^ 64 - 1 := rfl

/-- The largest 64-bit word. -/
theorem le_max_uint64 (a : UInt64) : a ≤ 0xFFFFFFFFFFFFFFFF := by
  have hlt := a.toNat_lt
  rw [UInt64.le_iff_toNat_le, toNat_max_uint64]
  omega

/-! ### Signed words as integers -/

/-- The greater of two words is the word of the greater. -/
theorem toInt_max_int64 (a b : Int64) : (max a b).toInt = max a.toInt b.toInt := by
  have hmono : Monotone Int64.toInt := fun _ _ => Int64.le_iff_toInt_le.1
  exact hmono.map_max

/-- The smaller of two words is the word of the smaller. -/
theorem toInt_min_int64 (a b : Int64) : (min a b).toInt = min a.toInt b.toInt := by
  have hmono : Monotone Int64.toInt := fun _ _ => Int64.le_iff_toInt_le.1
  exact hmono.map_min

/-- A product that fits is exact. -/
theorem toInt_mul_int64 {a b : Int64} (hle : -2 ^ 63 ≤ a.toInt * b.toInt)
    (hlt : a.toInt * b.toInt < 2 ^ 63) : (a * b).toInt = a.toInt * b.toInt := by
  rw [Int64.toInt_mul]
  exact Int.bmod_eq_of_le hle hlt

/-- Half of a word that is not negative rounds down. -/
theorem toInt_half_int64 {a : Int64} (h : 0 ≤ a.toInt) : (a / 2).toInt = a.toInt / 2 := by
  have hlt := a.toInt_lt
  have htwo : (2 : Int64).toInt = 2 := rfl
  rw [Int64.toInt_div, htwo, Int.tdiv_eq_ediv_of_nonneg h]
  exact Int.bmod_eq_of_le (by omega) (by omega)

end Library
end UDataPacketBroker
