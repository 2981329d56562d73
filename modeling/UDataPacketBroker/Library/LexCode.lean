/-
# Codes that keep the lexicographic order

A composite key is a concatenation of blocks, and a store compares keys symbol
by symbol.  The comparison agrees with the comparison of the tuples the blocks
encode as soon as every block has a fixed width (`compare_append`) and every
block is itself an order embedding.  Two block codes are covered:

* a variable-length word padded on the right with the least symbol
  (`compare_padRight`), provided the padding symbol does not occur in the word;
* a number written in a fixed number of digits, most significant digit first
  (`compare_numeral`).

All comparisons are three-valued (`compare`), so that one equation carries `<`,
`=` and `>` together; `compare_word_lt` reads the `<` of words off it.
-/

import Mathlib.Data.List.Lex
import Mathlib.Data.Prod.Lex
import Mathlib.Tactic.Ring

namespace UDataPacketBroker
namespace Library

/-! ### Tuples and concatenations -/

/-- A lexicographic pair is compared by its first component, then its second. -/
theorem compare_toLex {α β : Type*} [Ord α] [Ord β] (a a' : α) (b b' : β) :
    compare (toLex (a, b)) (toLex (a', b')) = (compare a a').then (compare b b') := rfl

section Words

variable {α : Type*} [LinearOrder α]

/-- Nothing differs from itself. -/
theorem compare_self (a : α) : compare a a = .eq := compare_eq_iff_eq.2 rfl

/-- Word comparison is the word order: the symbol-by-symbol comparison answers
`.lt` exactly on `l < m`, and `.eq` exactly on equal words. -/
theorem compare_word (l m : List α) :
    (compare l m = .lt ↔ l < m) ∧ (compare l m = .eq ↔ l = m) := by
  induction l generalizing m with
  | nil => cases m <;> simp
  | cons a l ih =>
      cases m with
      | nil => simp
      | cons b m =>
          rw [List.compare_cons_cons, Ordering.then_eq_lt, Ordering.then_eq_eq, compare_lt_iff_lt,
            compare_eq_iff_eq, (ih m).1, (ih m).2, List.cons_lt_cons_iff, List.cons.injEq]
          exact ⟨Iff.rfl, Iff.rfl⟩

/-- The word that compares as less is the smaller one. -/
theorem compare_word_lt {l m : List α} : compare l m = .lt ↔ l < m := (compare_word l m).1

/-- Words that compare as equal are equal. -/
theorem compare_word_eq {l m : List α} : compare l m = .eq ↔ l = m := (compare_word l m).2

/-- The word that compares as greater is the greater one. -/
theorem compare_word_gt {l m : List α} : compare l m = .gt ↔ m < l := by
  have hlt := (compare_word l m).1
  have heq := (compare_word l m).2
  rcases lt_trichotomy l m with h | h | h
  · rw [hlt.2 h]
    exact ⟨fun hgt => (by cases hgt), fun hgt => absurd hgt (lt_asymm h)⟩
  · rw [heq.2 h]
    exact ⟨fun hgt => (by cases hgt), fun hgt => absurd h hgt.ne'⟩
  · refine ⟨fun _ => h, fun _ => ?_⟩
    cases hc : compare l m with
    | lt => exact absurd (hlt.1 hc) (lt_asymm h)
    | eq => exact absurd (heq.1 hc) h.ne'
    | gt => rfl

/-- **Blocks of equal width compare in turn.** -/
theorem compare_append {l l' : List α} (h : l.length = l'.length) (m m' : List α) :
    compare (l ++ m) (l' ++ m') = (compare l l').then (compare m m') := by
  induction l generalizing l' with
  | nil =>
      obtain rfl : l' = [] := List.length_eq_zero_iff.1 h.symm
      rfl
  | cons a l ih =>
      cases l' with
      | nil => simp at h
      | cons b l' =>
          rw [List.cons_append, List.cons_append, List.compare_cons_cons, List.compare_cons_cons,
            ih (by simpa using h), Ordering.then_assoc]

end Words

/-! ### Right padding -/

section Padding

variable {α : Type*}

/-- `l` followed by as many copies of `z` as fill a block of width `w`. -/
def padRight (w : ℕ) (z : α) (l : List α) : List α :=
  l ++ List.replicate (w - l.length) z

/-- A padded word is as long as it was to be. -/
theorem length_padRight {w : ℕ} {l : List α} (z : α) (h : l.length ≤ w) :
    (padRight w z l).length = w := by
  simp [padRight]; omega

/-- Padding leaves the letters in front alone. -/
theorem padRight_cons (w : ℕ) (z a : α) (l : List α) :
    padRight (w + 1) z (a :: l) = a :: padRight w z l := by
  simp [padRight]

/-- After the last letter there is padding only. -/
theorem padRight_nil (w : ℕ) (z : α) :
    padRight (w + 1) z [] = z :: padRight w z [] := by
  simp [padRight, List.replicate_succ]

/-- Cutting a padded block at the first padding symbol recovers the word. -/
theorem takeWhile_padRight [DecidableEq α] (w : ℕ) {z : α} {l : List α} (h : z ∉ l) :
    (padRight w z l).takeWhile (· ≠ z) = l := by
  have hl : ∀ a ∈ l, decide (a ≠ z) = true := by
    intro a ha
    exact decide_eq_true fun hz => h (hz ▸ ha)
  rw [padRight, List.takeWhile_append_of_pos hl]
  cases w - l.length <;> simp [List.replicate_succ]

/-- **Padding with the least symbol keeps the order,** provided that symbol
occurs in neither word: a proper prefix meets the padding where the longer
word has something greater. -/
theorem compare_padRight [LinearOrder α] {z : α} (hz : ∀ a, z ≤ a) {l m : List α}
    (hl : z ∉ l) (hm : z ∉ m) {w : ℕ} (hlw : l.length ≤ w) (hmw : m.length ≤ w) :
    compare (padRight w z l) (padRight w z m) = compare l m := by
  have hlt {a : α} {k : List α} (hk : z ∉ a :: k) : z < a :=
    lt_of_le_of_ne (hz a) fun h => hk (h ▸ List.mem_cons_self ..)
  induction l generalizing m w with
  | nil =>
      cases m with
      | nil => rw [compare_word_eq.2 rfl, compare_word_eq.2 rfl]
      | cons b m =>
          obtain ⟨v, rfl⟩ : ∃ v, w = v + 1 := ⟨w - 1, by simp at hmw; omega⟩
          rw [padRight_cons, padRight_nil, List.compare_cons_cons, compare_lt_iff_lt.2 (hlt hm)]
          rfl
  | cons a l ih =>
      obtain ⟨v, rfl⟩ : ∃ v, w = v + 1 := ⟨w - 1, by simp at hlw; omega⟩
      cases m with
      | nil =>
          rw [padRight_cons, padRight_nil, List.compare_cons_cons, compare_gt_iff_gt.2 (hlt hl)]
          rfl
      | cons b m =>
          rw [padRight_cons, padRight_cons, List.compare_cons_cons, List.compare_cons_cons,
            ih (fun h => hl (List.mem_cons_of_mem _ h)) (fun h => hm (List.mem_cons_of_mem _ h))
              (by simpa using hlw) (by simpa using hmw)]

end Padding

/-! ### Numerals, most significant digit first -/

section Numerals

variable {α : Type*} (B : ℕ) (digit : α → ℕ)

/-- The number a word of digits denotes in base `B`. -/
def numeral (l : List α) : ℕ :=
  l.foldl (fun v a => v * B + digit a) 0

/-- A numeral is read from the left, from any value. -/
theorem foldl_numeral (l : List α) (v : ℕ) :
    l.foldl (fun v a => v * B + digit a) v = v * B ^ l.length + numeral B digit l := by
  induction l generalizing v with
  | nil => simp [numeral]
  | cons a l ih =>
      rw [numeral, List.foldl_cons, ih, List.foldl_cons, ih (0 * B + digit a), List.length_cons]
      ring

/-- The first digit counts most. -/
theorem numeral_cons (a : α) (l : List α) :
    numeral B digit (a :: l) = digit a * B ^ l.length + numeral B digit l := by
  rw [numeral, List.foldl_cons, foldl_numeral, Nat.zero_mul, Nat.zero_add]

variable {B digit}

/-- A numeral has no more digits than its length says. -/
theorem numeral_lt (hB : ∀ a, digit a < B) (l : List α) :
    numeral B digit l < B ^ l.length := by
  induction l with
  | nil => simp [numeral]
  | cons a l ih =>
      have hstep := Nat.mul_le_mul_right (B ^ l.length) (Nat.succ_le_of_lt (hB a))
      rw [Nat.succ_mul] at hstep
      rw [numeral_cons, List.length_cons, pow_succ, Nat.mul_comm (B ^ l.length)]
      omega

/-- **Numerals of one length compare as numbers.** -/
theorem compare_numeral [LinearOrder α] (hB : ∀ a, digit a < B) (hd : StrictMono digit)
    {l m : List α} (h : l.length = m.length) :
    compare l m = compare (numeral B digit l) (numeral B digit m) := by
  induction l generalizing m with
  | nil =>
      obtain rfl : m = [] := List.length_eq_zero_iff.1 h.symm
      rw [compare_word_eq.2 rfl, compare_self]
  | cons a l ih =>
      cases m with
      | nil => simp at h
      | cons b m =>
          have hlen : l.length = m.length := by simpa using h
          have hl := hlen ▸ numeral_lt hB l
          have hm := numeral_lt hB m
          -- the leading digits decide unless they agree
          have hlead {c d : α} (hcd : c < d) :
              digit c * B ^ m.length + B ^ m.length ≤ digit d * B ^ m.length := by
            rw [← Nat.succ_mul]
            exact Nat.mul_le_mul_right _ (Nat.succ_le_of_lt (hd hcd))
          rw [List.compare_cons_cons, numeral_cons, numeral_cons, hlen, ih hlen]
          rcases lt_trichotomy a b with hab | rfl | hab
          · have hnum : digit a * B ^ m.length + numeral B digit l
                < digit b * B ^ m.length + numeral B digit m := by have := hlead hab; omega
            rw [compare_lt_iff_lt.2 hab, compare_lt_iff_lt.2 hnum]; rfl
          · rw [compare_self]
            rcases lt_trichotomy (numeral B digit l) (numeral B digit m) with hlt | heq | hgt
            · rw [compare_lt_iff_lt.2 hlt, compare_lt_iff_lt.2 (by omega)]; rfl
            · rw [heq, compare_self, compare_self]; rfl
            · rw [compare_gt_iff_gt.2 hgt, compare_gt_iff_gt.2 (by omega)]; rfl
          · have hnum : digit b * B ^ m.length + numeral B digit m
                < digit a * B ^ m.length + numeral B digit l := by have := hlead hab; omega
            rw [compare_gt_iff_gt.2 hab, compare_gt_iff_gt.2 hnum]; rfl

end Numerals

end Library
end UDataPacketBroker
