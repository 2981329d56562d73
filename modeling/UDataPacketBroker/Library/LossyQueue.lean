/-
# Queues that lose entries

A queue is pushed at its back, and its entries leave it at the front in the order they
were pushed: its consumer takes the front, or an overflow drops it.  With the fate of
every entry that left, what was pushed is accounted for exactly once (`Passage`).  So
what the consumer was given and what still waits are pushed entries in their order, and
they are all of them exactly when nothing was lost (`Passage.delivered_append_eq_iff`).
-/

import Mathlib.Data.List.Basic

namespace UDataPacketBroker
namespace Library

variable {α β : Type}

/-- How an entry left a queue. -/
inductive Fate where
  | delivered | lost
deriving DecidableEq

/-- The entries that left in one way. -/
def leftAs (fate : Fate) (fates : List (Fate × α)) : List α :=
  (fates.filter fun e => e.1 = fate).map Prod.snd

/-- What left in one way, in two parts. -/
theorem leftAs_append (fate : Fate) (fates fates' : List (Fate × α)) :
    leftAs fate (fates ++ fates') = leftAs fate fates ++ leftAs fate fates' := by
  rw [leftAs, List.filter_append, List.map_append]
  rfl

/-- What left in one way left. -/
theorem leftAs_sublist (fate : Fate) (fates : List (Fate × α)) :
    (leftAs fate fates).Sublist (fates.map Prod.snd) := List.filter_sublist.map _

/-- What left in one way, under another view. -/
theorem leftAs_map (fate : Fate) (f : α → β) (fates : List (Fate × α)) :
    leftAs fate (fates.map fun e => (e.1, f e.2)) = (leftAs fate fates).map f := by
  simp [leftAs, List.filter_map, Function.comp_def]

/-- The first `n` entries of a queue leave it in one way. -/
def leave (fate : Fate) (n : ℕ) (queue : List α) : List (Fate × α) :=
  (queue.take n).map fun a => (fate, a)

/-- What leaves comes off the front of the queue. -/
theorem map_snd_leave (fate : Fate) (n : ℕ) (queue : List α) :
    (leave fate n queue).map Prod.snd = queue.take n := by
  simp [leave, Function.comp_def]

/-- It leaves in the way it leaves. -/
theorem leftAs_leave_self (fate : Fate) (n : ℕ) (queue : List α) :
    leftAs fate (leave fate n queue) = queue.take n := by
  have hall : (leave fate n queue).filter (fun e => e.1 = fate) = leave fate n queue := by
    refine List.filter_eq_self.2 fun e he => ?_
    obtain ⟨a, -, rfl⟩ := List.mem_map.1 he
    exact decide_eq_true rfl
  rw [leftAs, hall, map_snd_leave]

/-- It leaves in no other way. -/
theorem leftAs_leave_of_ne {fate fate' : Fate} (h : fate' ≠ fate) (n : ℕ) (queue : List α) :
    leftAs fate (leave fate' n queue) = [] := by
  have hnone : (leave fate' n queue).filter (fun e => e.1 = fate) = [] := by
    refine List.filter_eq_nil_iff.2 fun e he => ?_
    obtain ⟨a, -, rfl⟩ := List.mem_map.1 he
    simpa using h
  rw [leftAs, hnone, List.map_nil]

/-- Every entry that left was delivered or lost. -/
theorem length_leftAs_add (fates : List (Fate × α)) :
    (leftAs .delivered fates).length + (leftAs .lost fates).length = fates.length := by
  induction fates with
  | nil => rfl
  | cons e fates ih =>
      obtain ⟨fate, a⟩ := e
      cases fate <;> simp [leftAs] at ih ⊢ <;> omega

/-- What left a queue without a consumer was lost. -/
theorem map_snd_of_delivered_nil {fates : List (Fate × α)} (h : leftAs .delivered fates = []) :
    fates.map Prod.snd = leftAs .lost fates := by
  have hlost : fates.filter (fun e => e.1 = .lost) = fates := by
    refine List.filter_eq_self.2 fun e he => ?_
    obtain ⟨fate, a⟩ := e
    cases fate with
    | lost => exact decide_eq_true rfl
    | delivered =>
        rw [leftAs, List.map_eq_nil_iff, List.filter_eq_nil_iff] at h
        exact absurd (decide_eq_true rfl) (h _ he)
  rw [leftAs, hlost]

/-- Nothing left in one way exactly if it did at no step. -/
theorem leftAs_flatMap_eq_nil_iff (fate : Fate) (f : β → List (Fate × α)) (l : List β) :
    leftAs fate (l.flatMap f) = [] ↔ ∀ b ∈ l, leftAs fate (f b) = [] := by
  induction l with
  | nil => exact iff_of_true rfl fun _ h => absurd h List.not_mem_nil
  | cons b l ih =>
      rw [List.flatMap_cons, leftAs_append, List.append_eq_nil_iff, ih, List.forall_mem_cons]

/-- **The account of a queue:** what was pushed left it, in order, or is still there. -/
def Passage (pushed : List α) (fates : List (Fate × α)) (queue : List α) : Prop :=
  pushed = fates.map Prod.snd ++ queue

namespace Passage

variable {pushed queue : List α} {fates : List (Fate × α)}

/-- An empty queue that nothing was pushed to. -/
theorem nil : Passage ([] : List α) [] [] := rfl

/-- Entries leave at the front. -/
theorem leave (h : Passage pushed fates queue) (fate : Fate) (n : ℕ) :
    Passage pushed (fates ++ Library.leave fate n queue) (queue.drop n) := by
  rw [Passage, List.map_append, map_snd_leave, List.append_assoc, List.take_append_drop]
  exact h

/-- An entry is pushed at the back. -/
theorem push (h : Passage pushed fates queue) (a : α) :
    Passage (pushed ++ [a]) fates (queue ++ [a]) := by
  rw [Passage, ← List.append_assoc, ← h]

/-- A view of the elements of a queue. -/
theorem map (h : Passage pushed fates queue) (f : α → β) :
    Passage (pushed.map f) (fates.map fun e => (e.1, f e.2)) (queue.map f) := by
  rw [Passage, h, List.map_append, List.map_map, List.map_map]
  rfl

/-- What was delivered and what still waits are in the order they were pushed. -/
theorem delivered_append_sublist (h : Passage pushed fates queue) :
    (leftAs .delivered fates ++ queue).Sublist pushed :=
  h ▸ (leftAs_sublist .delivered fates).append_right queue

/-- **Everything is delivered or waits exactly when nothing is lost.** -/
theorem delivered_append_eq_iff (h : Passage pushed fates queue) :
    leftAs .delivered fates ++ queue = pushed ↔ leftAs .lost fates = [] := by
  have hfates := length_leftAs_add fates
  have hlength : pushed.length = fates.length + queue.length := by
    rw [h, List.length_append, List.length_map]
  rw [← List.length_eq_zero_iff]
  constructor
  · intro heq
    have hall := congrArg List.length heq
    rw [List.length_append] at hall
    omega
  · intro hnone
    refine h.delivered_append_sublist.eq_of_length ?_
    rw [List.length_append]
    omega

end Passage

end Library
end UDataPacketBroker
