/-
# Numerals and separators in byte strings

A number written in decimal is made of digits (`digit_of_mem_decimal`), and a byte that
does not occur in a front part ends it (`append_cons_inj`).
-/

import Mathlib.Data.List.Basic

namespace UDataPacketBroker
namespace Library

/-! ### Decimal numerals -/

/-- The ASCII decimal digits of a number. -/
def decimal (n : ℕ) : List UInt8 := (Nat.toDigits 10 n).map fun c => c.toNat.toUInt8

/-- A numeral has a digit. -/
theorem decimal_ne_nil (n : ℕ) : decimal n ≠ [] :=
  fun h => Nat.toDigits_ne_nil (List.map_eq_nil_iff.1 h)

/-- The ASCII code of a digit is a byte. -/
theorem toNat_toUInt8_of_isDigit {c : Char} (h : c.isDigit = true) :
    c.toNat.toUInt8.toNat = c.toNat ∧ 48 ≤ c.toNat ∧ c.toNat ≤ 57 := by
  obtain ⟨hlow, hhigh⟩ : 48 ≤ c.toNat ∧ c.toNat ≤ 57 := Char.isDigit_iff_toNat.1 h
  have hlt : c.toNat < 256 := by omega
  exact ⟨by simp [Nat.mod_eq_of_lt hlt], hlow, hhigh⟩

/-- **A numeral is made of digits.** -/
theorem digit_of_mem_decimal {b : UInt8} {n : ℕ} (h : b ∈ decimal n) :
    48 ≤ b.toNat ∧ b.toNat ≤ 57 := by
  obtain ⟨c, hc, rfl⟩ := List.mem_map.1 h
  obtain ⟨hcode, hdigit⟩ :=
    toNat_toUInt8_of_isDigit (Nat.isDigit_of_mem_toDigits (by decide) (by decide) hc)
  rwa [hcode]

/-- A byte that is no digit is not in a numeral. -/
theorem notMem_decimal {b : UInt8} (h : ¬(48 ≤ b.toNat ∧ b.toNat ≤ 57)) (n : ℕ) : b ∉ decimal n :=
  fun hmem => h (digit_of_mem_decimal hmem)

/-! ### Separators -/

variable {α : Type*} {c : α} {a b x y : List α}

/-- **The first separator ends the front part.** -/
theorem append_cons_inj (ha : c ∉ a) (hb : c ∉ b) : a ++ c :: x = b ++ c :: y ↔ a = b ∧ x = y := by
  constructor
  · intro h
    rcases List.append_eq_append_iff.1 h with ⟨d, rfl, hd⟩ | ⟨d, rfl, hd⟩
    · cases d with
      | nil => exact ⟨(List.append_nil _).symm, (List.cons.inj hd).2⟩
      | cons e d =>
          rw [List.cons_append] at hd
          rw [(List.cons.inj hd).1] at hb
          exact absurd (List.mem_append_right _ List.mem_cons_self) hb
    · cases d with
      | nil => exact ⟨List.append_nil _, ((List.cons.inj hd).2).symm⟩
      | cons e d =>
          rw [List.cons_append] at hd
          rw [(List.cons.inj hd).1] at ha
          exact absurd (List.mem_append_right _ List.mem_cons_self) ha
  · rintro ⟨rfl, rfl⟩
    rfl

end Library
end UDataPacketBroker
