/-
# Logs that are truncated from below

Many streams share one log: a write puts a value at a position of a stream, a
cut drops every position below a bound in all of them.  What the log holds at a
position is computed event by event (`contents`); it is the last value written
there, unless a later cut went past the position (`contents_eq_some_iff`).
-/

import Mathlib.Data.List.Induction
import Mathlib.Logic.Function.Basic

namespace UDataPacketBroker
namespace Library

variable {K V : Type}

/-- What happens to a log. -/
inductive LogEvent (K V : Type) where
  | wrote (key : K) (position : ℕ) (value : V)
  | cut (bound : ℕ)
deriving DecidableEq

namespace LogEvent

/-- `v` was the last value written at a position, and no later cut went past it. -/
def Stands (log : List (LogEvent K V)) (k : K) (p : ℕ) (v : V) : Prop :=
  ∃ before after, log = before ++ wrote k p v :: after ∧ (∀ w, wrote k p w ∉ after) ∧
    ∀ bound, cut bound ∈ after → bound ≤ p

/-- Only a later event can unseat a value. -/
theorem stands_concat_iff {log : List (LogEvent K V)} {e : LogEvent K V} {k : K} {p : ℕ} {v : V} :
    Stands (log ++ [e]) k p v ↔ e = wrote k p v ∨
      (Stands log k p v ∧ (∀ w, e ≠ wrote k p w) ∧ ∀ bound, e = cut bound → bound ≤ p) := by
  constructor
  · rintro ⟨before, after, hlog, hwrote, hcut⟩
    rcases List.eq_nil_or_concat after with rfl | ⟨after, last, rfl⟩
    · obtain ⟨-, he⟩ := List.append_inj' hlog rfl
      exact Or.inl (List.head_eq_of_cons_eq he)
    · rw [List.concat_eq_append] at hlog hwrote hcut
      rw [← List.cons_append, ← List.append_assoc] at hlog
      obtain ⟨hfront, he⟩ := List.append_inj' hlog rfl
      obtain rfl := List.head_eq_of_cons_eq he
      refine Or.inr ⟨⟨before, after, hfront, fun w hw => hwrote w (List.mem_append_left _ hw),
        fun bound hb => hcut bound (List.mem_append_left _ hb)⟩, ?_, ?_⟩
      · rintro w rfl
        exact hwrote w (List.mem_append_right _ List.mem_cons_self)
      · rintro bound rfl
        exact hcut bound (List.mem_append_right _ List.mem_cons_self)
  · rintro (rfl | ⟨⟨before, after, rfl, hwrote, hcut⟩, hnot, hbound⟩)
    · exact ⟨log, [], rfl, fun _ h => absurd h List.not_mem_nil, fun _ h => absurd h List.not_mem_nil⟩
    · refine ⟨before, after ++ [e], by simp, fun w hw => ?_, fun bound hb => ?_⟩
      · rcases List.mem_append.1 hw with h | h
        · exact hwrote w h
        · exact hnot w (List.mem_singleton.1 h).symm
      · rcases List.mem_append.1 hb with h | h
        · exact hcut bound h
        · exact hbound bound (List.mem_singleton.1 h).symm

variable [DecidableEq K]

/-- The effect of one event on what is held. -/
def apply (held : K → ℕ → Option V) : LogEvent K V → K → ℕ → Option V
  | wrote k p v => Function.update held k (Function.update (held k) p (some v))
  | cut bound => fun k p => if p < bound then none else held k p

/-- What the log holds at each position of each stream. -/
def contents (log : List (LogEvent K V)) : K → ℕ → Option V :=
  log.foldl apply fun _ _ => none

/-- One more event. -/
theorem contents_concat (log : List (LogEvent K V)) (e : LogEvent K V) :
    contents (log ++ [e]) = apply (contents log) e := by rw [contents, List.foldl_append]; rfl

/-- **What is held after an event** was written by it, or was held before and is past its cut. -/
theorem apply_eq_some_iff {held : K → ℕ → Option V} {e : LogEvent K V} {k : K} {p : ℕ} {v : V} :
    apply held e k p = some v ↔ e = wrote k p v ∨
      (held k p = some v ∧ (∀ w, e ≠ wrote k p w) ∧ ∀ bound, e = cut bound → bound ≤ p) := by
  cases e with
  | wrote k' p' v' =>
      by_cases hk : k = k'
      · subst hk
        by_cases hp : p = p'
        · subst hp
          simp [apply]
        · simp [apply, hp, Ne.symm hp]
      · simp [apply, hk, Ne.symm hk]
  | cut bound =>
      by_cases hp : p < bound
      · simp [apply, hp]
      · simp [apply, hp, Nat.le_of_not_lt hp]

/-- **A log holds exactly the values that stand.** -/
theorem contents_eq_some_iff {log : List (LogEvent K V)} {k : K} {p : ℕ} {v : V} :
    contents log k p = some v ↔ Stands log k p v := by
  induction log using List.reverseRecOn with
  | nil =>
      refine iff_of_false (Option.some_ne_none v).symm ?_
      rintro ⟨before, after, h, -⟩
      exact absurd h.symm (by simp)
  | append_singleton log e ih => rw [contents_concat, apply_eq_some_iff, stands_concat_iff, ih]

end LogEvent

end Library
end UDataPacketBroker
