/-
# Queues that drop their oldest entries

A bounded queue makes room by popping its front until it is short enough; its
consumers pop the front as well.  So whatever is dropped, what remains is a
suffix of everything that was pushed, and when the pushed entries carry
consecutive numbers the queue carries a run of them that ends with the last.
`Admitted` says which entries are dropped for a new one.
-/

import Mathlib.Data.List.Infix
import Mathlib.Data.List.Nodup
import Mathlib.Data.List.Range

namespace UDataPacketBroker
namespace Library

variable {α : Type}

/-- `while (queue.size() >= maximum) queue.pop()`: what remains, and how often it
popped. -/
def popWhileFull (maximum : ℕ) : List α → List α × ℕ
  | [] => ([], 0)
  | a :: queue =>
    if (a :: queue).length ≥ maximum then
      let (remaining, popped) := popWhileFull maximum queue
      (remaining, popped + 1)
    else (a :: queue, 0)

/-- What is left is the end of the queue. -/
theorem popWhileFull_suffix (maximum : ℕ) (queue : List α) :
    (popWhileFull maximum queue).1 <:+ queue := by
  induction queue with
  | nil => exact List.suffix_rfl
  | cons a queue ih =>
      rw [popWhileFull]
      split_ifs
      · exact ih.trans (List.suffix_cons a queue)
      · exact List.suffix_rfl

/-- Every entry is popped or remains. -/
theorem length_popWhileFull (maximum : ℕ) (queue : List α) :
    (popWhileFull maximum queue).1.length + (popWhileFull maximum queue).2 = queue.length := by
  induction queue with
  | nil => rfl
  | cons a queue ih =>
      rw [popWhileFull]
      split_ifs
      · rw [List.length_cons, ← ih]
        rfl
      · rfl

/-- What remains are the newest entries. -/
theorem popWhileFull_eq_drop (maximum : ℕ) (queue : List α) :
    (popWhileFull maximum queue).1 = queue.drop (queue.length + 1 - maximum) := by
  induction queue with
  | nil => exact List.drop_nil.symm
  | cons a queue ih =>
      rw [popWhileFull]
      split_ifs with hfull
      · rw [List.length_cons] at hfull ⊢
        rw [Nat.succ_sub hfull, List.drop_succ_cons]
        exact ih
      · rw [not_le, List.length_cons] at hfull
        rw [List.length_cons, Nat.sub_eq_zero_of_le hfull, List.drop_zero]

/-- What is popped comes off the front. -/
theorem popWhileFull_fst (maximum : ℕ) (queue : List α) :
    (popWhileFull maximum queue).1 = queue.drop (popWhileFull maximum queue).2 := by
  induction queue with
  | nil => exact List.drop_nil.symm
  | cons a queue ih =>
      rw [popWhileFull]
      split_ifs
      · exact ih
      · rfl

/-- Nothing is popped where there is room. -/
theorem take_popWhileFull_eq_nil_iff {maximum : ℕ} (h : 0 < maximum) (queue : List α) :
    queue.take (popWhileFull maximum queue).2 = [] ↔ queue.length < maximum := by
  have hlength := length_popWhileFull maximum queue
  rw [popWhileFull_eq_drop, List.length_drop] at hlength
  rw [List.take_eq_nil_iff, ← List.length_eq_zero_iff]
  omega

/-- **`a` is admitted to a queue of at most `maximum` entries:** the oldest entries
make room for it, only when the queue is full, and only as many as it takes. -/
def Admitted (maximum : ℕ) (queue : List α) (a : α) (queue' : List α) : Prop :=
  ∃ discarded kept, queue = discarded ++ kept ∧ queue' = kept ++ [a] ∧
    (discarded ≠ [] → maximum ≤ queue.length) ∧
    discarded.length = queue.length + 1 - maximum

/-- The queue does not outgrow its maximum. -/
theorem Admitted.length_le {maximum : ℕ} {queue queue' : List α} {a : α}
    (h : Admitted maximum queue a queue') : queue'.length ≤ maximum := by
  obtain ⟨discarded, kept, rfl, rfl, -, hlength⟩ := h
  rw [List.length_append] at hlength
  rw [List.length_append, List.length_singleton]
  omega

/-- The loop that pops while the queue is full makes room for one entry. -/
theorem admitted_popWhileFull {maximum : ℕ} (h : 0 < maximum) (queue : List α) (a : α) :
    Admitted maximum queue a ((popWhileFull maximum queue).1 ++ [a]) := by
  have hlength : (queue.take (queue.length + 1 - maximum)).length = queue.length + 1 - maximum := by
    rw [List.length_take]
    omega
  refine ⟨_, _, (List.take_append_drop (queue.length + 1 - maximum) queue).symm, ?_, ?_, hlength⟩
  · rw [popWhileFull_eq_drop]
  · intro hdiscarded
    have hpos := List.length_pos_iff.2 hdiscarded
    omega

/-- An entry that is pushed and no other popped is admitted where there is room. -/
theorem admitted_concat_iff {maximum : ℕ} (queue : List α) (a : α) :
    Admitted maximum queue a (queue ++ [a]) ↔ queue.length < maximum := by
  constructor
  · rintro ⟨discarded, kept, hqueue, hconcat, -, hlength⟩
    obtain rfl := List.append_cancel_right hconcat
    obtain rfl : discarded = [] := List.append_left_eq_self.1 hqueue.symm
    rw [List.length_nil] at hlength
    omega
  · intro hroom
    refine ⟨[], queue, rfl, rfl, fun h => absurd rfl h, ?_⟩
    rw [List.length_nil]
    omega

/-- Pushing the next entry on a suffix. -/
theorem suffix_concat {queue pushed : List α} (h : queue <:+ pushed) (a : α) :
    queue ++ [a] <:+ pushed ++ [a] := by
  obtain ⟨dropped, rfl⟩ := h
  exact ⟨dropped, by rw [List.append_assoc]⟩

/-- **A suffix of consecutively numbered entries is a run that ends with the last.** -/
theorem map_suffix_eq_range' {number : α → ℕ} {queue pushed : List α} {first : ℕ}
    (hpushed : pushed.map number = List.range' first pushed.length) (h : queue <:+ pushed) :
    queue.map number = List.range' (first + (pushed.length - queue.length)) queue.length := by
  obtain ⟨dropped, rfl⟩ := h
  rw [List.map_append, List.length_append, ← List.range'_append_1] at hpushed
  have hlen : (dropped.map number).length = (List.range' first dropped.length).length := by
    rw [List.length_map, List.length_range']
  rw [(List.append_inj hpushed hlen).2, List.length_append, Nat.add_sub_cancel_right]

/-- Consecutively numbered entries are told apart by their numbers. -/
theorem eq_of_number_eq {number : α → ℕ} {pushed : List α} {first n : ℕ}
    (hpushed : pushed.map number = List.range' first n) {a b : α} (ha : a ∈ pushed)
    (hb : b ∈ pushed) (h : number a = number b) : a = b := by
  refine List.inj_on_of_nodup_map ?_ ha hb h
  rw [hpushed]
  exact List.nodup_range'

end Library
end UDataPacketBroker
