/-
# Big-endian 64-bit words

A 64-bit word written as eight bytes, most significant byte first, and read
back by shifting and or-ing.  Written this way the bytes compare as the words
do (`compare_bigEndian64`), because the eight bytes are the base-256 numeral
of the word (`numeral_bigEndian64`).
-/

import UDataPacketBroker.Library.LexCode
import UDataPacketBroker.Library.Words

namespace UDataPacketBroker
namespace Library

/-- The eight bytes of a word, from shift 56 down to shift 0. -/
def bigEndian64 (value : UInt64) : List UInt8 :=
  [56, 48, 40, 32, 24, 16, 8, 0].map fun shift : UInt64 => ((value >>> shift) &&& 0xFF).toUInt8

/-- The word read from bytes, each shifted in from the right. -/
def ofBigEndian64 (bytes : List UInt8) : UInt64 :=
  bytes.foldl (fun value byte => (value <<< 8) ||| byte.toUInt64) 0

/-- A 64-bit number takes eight bytes. -/
@[simp] theorem length_bigEndian64 (value : UInt64) : (bigEndian64 value).length = 8 := rfl

/-- One byte of a word, as a base-256 digit. -/
theorem toNat_byteAt (value shift : UInt64) :
    ((value >>> shift) &&& 0xFF).toUInt8.toNat = value.toNat / 2 ^ (shift.toNat % 64) % 256 := by
  rw [UInt64.toNat_toUInt8, UInt64.toNat_and, UInt64.toNat_shiftRight, Nat.shiftRight_eq_div_pow,
    show (0xFF : UInt64).toNat = 2 ^ 8 - 1 from rfl, Nat.and_two_pow_sub_one_eq_mod]
  omega

/-- One Horner step: the bytes above position `k` and the byte there. -/
theorem horner_byte (n k j : ℕ) (h : j = k + 8) :
    n / 2 ^ j * 256 + n / 2 ^ k % 256 = n / 2 ^ k := by
  rw [h, pow_add, ← Nat.div_div_eq_div_mul]
  omega

/-- **The bytes of a word are its base-256 numeral.** -/
theorem numeral_bigEndian64 (value : UInt64) :
    numeral 256 UInt8.toNat (bigEndian64 value) = value.toNat := by
  have htop : 0 * 256 + value.toNat / 2 ^ 56 % 256 = value.toNat / 2 ^ 56 := by
    have := value.toNat_lt
    omega
  have hshift (shift : UInt64) (k : ℕ) (h : shift.toNat % 64 = k) :
      ((value >>> shift) &&& 0xFF).toUInt8.toNat = value.toNat / 2 ^ k % 256 := by
    rw [toNat_byteAt, h]
  simp only [bigEndian64, numeral, List.map_cons, List.map_nil, List.foldl_cons, List.foldl_nil]
  rw [hshift 56 56 rfl, htop, hshift 48 48 rfl, horner_byte _ 48 56 rfl, hshift 40 40 rfl,
    horner_byte _ 40 48 rfl, hshift 32 32 rfl, horner_byte _ 32 40 rfl, hshift 24 24 rfl,
    horner_byte _ 24 32 rfl, hshift 16 16 rfl, horner_byte _ 16 24 rfl, hshift 8 8 rfl,
    horner_byte _ 8 16 rfl, hshift 0 0 rfl, horner_byte _ 0 8 rfl, pow_zero, Nat.div_one]

/-- Shifting a byte into a word that has room for it. -/
theorem toNat_shiftIn (value : UInt64) (byte : UInt8) (h : value.toNat < 2 ^ 56) :
    ((value <<< 8) ||| byte.toUInt64).toNat = value.toNat * 256 + byte.toNat := by
  have hbyte : byte.toNat < 2 ^ 8 := byte.toNat_lt
  have hroom : value.toNat <<< 8 % 2 ^ 64 = value.toNat <<< 8 := by
    rw [Nat.shiftLeft_eq]; omega
  rw [UInt64.toNat_or, UInt64.toNat_shiftLeft, UInt8.toNat_toUInt64,
    show (8 : UInt64).toNat % 64 = 8 from rfl, hroom, ← Nat.shiftLeft_add_eq_or_of_lt hbyte,
    Nat.shiftLeft_eq]

/-- Up to eight bytes are read as the numeral they are. -/
theorem toNat_ofBigEndian64 {bytes : List UInt8} (h : bytes.length ≤ 8) :
    (ofBigEndian64 bytes).toNat = numeral 256 UInt8.toNat bytes := by
  have hfold : ∀ (l : List UInt8) (v : UInt64), v.toNat < 256 ^ (8 - l.length) → l.length ≤ 8 →
      (l.foldl (fun (value : UInt64) (byte : UInt8) => (value <<< 8) ||| byte.toUInt64) v).toNat
        = l.foldl (fun n byte => n * 256 + byte.toNat) v.toNat := by
    intro l
    induction l with
    | nil => intros; rfl
    | cons b l ih =>
        intro v hv hl
        rw [List.length_cons] at hv hl
        have hpow : 256 ^ (8 - l.length) = 256 ^ (8 - (l.length + 1)) * 256 := by
          rw [show 8 - l.length = 8 - (l.length + 1) + 1 by omega, pow_succ]
        have hle : 256 ^ (8 - (l.length + 1)) ≤ 256 ^ 7 := Nat.pow_le_pow_right (by omega) (by omega)
        have hstep := toNat_shiftIn v b (by omega)
        have hb := b.toNat_lt
        rw [List.foldl_cons, List.foldl_cons, ih _ (by omega) (by omega), hstep]
  exact hfold bytes 0 (Nat.pos_of_ne_zero (by simp)) h

/-- Reading back a written word. -/
@[simp] theorem ofBigEndian64_bigEndian64 (value : UInt64) :
    ofBigEndian64 (bigEndian64 value) = value := by
  rw [← UInt64.toNat_inj, toNat_ofBigEndian64 (by simp), numeral_bigEndian64]

/-- **Big-endian bytes compare as the words they encode.** -/
theorem compare_bigEndian64 (v w : UInt64) :
    compare (bigEndian64 v) (bigEndian64 w) = compare v w := by
  have hmono : StrictMono UInt8.toNat := fun _ _ h => UInt8.lt_iff_toNat_lt.1 h
  rw [compare_numeral (fun b => b.toNat_lt) hmono (by simp), numeral_bigEndian64,
    numeral_bigEndian64]
  rcases lt_trichotomy v w with h | rfl | h
  · rw [compare_lt_iff_lt.2 h, compare_lt_iff_lt.2 (UInt64.lt_iff_toNat_lt.1 h)]
  · rw [compare_self, compare_self]
  · rw [compare_gt_iff_gt.2 h, compare_gt_iff_gt.2 (UInt64.lt_iff_toNat_lt.1 h)]

/-- Different numbers have different bytes. -/
@[simp] theorem bigEndian64_inj {v w : UInt64} : bigEndian64 v = bigEndian64 w ↔ v = w := by
  rw [← compare_word_eq, compare_bigEndian64, compare_eq_iff_eq]

end Library
end UDataPacketBroker
