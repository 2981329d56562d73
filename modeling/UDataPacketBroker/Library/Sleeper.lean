/-
# Threads that sleep on a condition variable

A thread works in passes.  It starts one as long as a flag lets it, and after each it waits,
under a mutex and for a limited time, until a predicate holds; when it holds the thread
ends.  The wait tests the predicate, and blocks if it does not hold.  Both happen under the
mutex, but who makes the predicate hold need not take it, and may notify the condition
variable between the two.

A thread that is asked to end has a bounded number of steps left besides the work of a
pass (`Move.rank_lt`), and of several threads under one mutex one can always take a step
(`exists_move`).
-/

import Mathlib.Tactic.Common

namespace UDataPacketBroker
namespace Library

/-- What a thread is at. -/
inductive Sleeper where
  | top
  | working
  /-- The pass is over, and it needs the mutex. -/
  | locking
  | testing
  /-- It found that the predicate does not hold, and is about to block. -/
  | unheeding
  | blocked
  /-- It no longer is blocked, and needs the mutex again. -/
  | woken (timedOut : Bool)
  /-- The wait is over. -/
  | leaving
  | ended
deriving DecidableEq

namespace Sleeper

/-- The thread holds the mutex. -/
def holds : Sleeper → Bool
  | .testing | .unheeding | .leaving => true
  | _ => false

/-- **One step of a thread.**  `keepRunning` is the flag, `requested` is the predicate, and
`free` says that nobody holds the mutex.  A thread that does not sleep goes from one pass
to the next. -/
inductive Move (sleeps keepRunning requested : Bool) (free : Prop) : Sleeper → Sleeper → Prop
  | begin (keeps : keepRunning = true) : Move sleeps keepRunning requested free .top .working
  | quit (stops : keepRunning = false) : Move sleeps keepRunning requested free .top .ended
  | poll (awake : sleeps = false) : Move sleeps keepRunning requested free .working .top
  | finish (asleep : sleeps = true) : Move sleeps keepRunning requested free .working .locking
  | lock (unlocked : free) : Move sleeps keepRunning requested free .locking .testing
  | heed (holds : requested = true) : Move sleeps keepRunning requested free .testing .leaving
  | ignore (fails : requested = false) :
      Move sleeps keepRunning requested free .testing .unheeding
  | block : Move sleeps keepRunning requested free .unheeding .blocked
  /-- The time is over, or the wakeup is spurious. -/
  | wake (timedOut : Bool) : Move sleeps keepRunning requested free .blocked (.woken timedOut)
  | relock (unlocked : free) : Move sleeps keepRunning requested free (.woken false) .testing
  | giveUp (unlocked : free) : Move sleeps keepRunning requested free (.woken true) .leaving
  | leave (holds : requested = true) : Move sleeps keepRunning requested free .leaving .ended
  | again (fails : requested = false) : Move sleeps keepRunning requested free .leaving .top

/-- `notify_all` wakes the threads that are blocked. -/
def notify : Sleeper → Sleeper
  | .blocked => .woken false
  | phase => phase

/-- The steps that a thread has left once it is asked to end. -/
def rank : Sleeper → ℕ
  | .ended => 0
  | .top | .leaving => 1
  | .testing | .woken true => 2
  | .locking | .woken false => 3
  | .working | .blocked => 4
  | .unheeding => 5

/-- A thread has five steps left at most. -/
theorem rank_le (phase : Sleeper) : phase.rank ≤ 5 := by
  unfold rank
  split <;> decide

/-- A notification takes it no step back. -/
theorem rank_notify_le (phase : Sleeper) : phase.notify.rank ≤ phase.rank := by
  cases phase with
  | blocked => exact Nat.le_succ 3
  | _ => exact Nat.le_refl _

variable {sleeps : Bool} {free : Prop} {phase phase' : Sleeper}

/-- **Each step of a thread that is asked to end brings it closer to its end.** -/
theorem Move.rank_lt (h : Move sleeps false true free phase phase') : phase'.rank < phase.rank := by
  cases h with
  | begin keeps => cases keeps
  | ignore fails => cases fails
  | again fails => cases fails
  | wake timedOut => cases timedOut <;> decide
  | _ => decide

/-- A thread that is asked to end blocks only if it was about to. -/
theorem Move.eq_unheeding {keepRunning : Bool} (h : Move sleeps keepRunning true free phase phase') :
    phase' ≠ .unheeding ∧ (phase' = .blocked → phase = .unheeding) := by
  cases h with
  | ignore fails => cases fails
  | block => exact ⟨by rintro ⟨⟩, fun _ => rfl⟩
  | _ => exact ⟨by rintro ⟨⟩, by rintro ⟨⟩⟩

/-- A thread that does not need the mutex can take a step. -/
theorem exists_move_of_holds (hfree : ¬free → phase.holds = true) (hended : phase ≠ .ended) :
    ∃ phase', Move sleeps false true free phase phase' := by
  have hunlocked (hholds : phase.holds = false) : free := by
    by_contra hnot
    rw [hfree hnot] at hholds
    cases hholds
  cases phase with
  | top => exact ⟨_, .quit rfl⟩
  | working =>
      cases sleeps with
      | true => exact ⟨_, .finish rfl⟩
      | false => exact ⟨_, .poll rfl⟩
  | locking => exact ⟨_, .lock (hunlocked rfl)⟩
  | testing => exact ⟨_, .heed rfl⟩
  | unheeding => exact ⟨_, .block⟩
  | blocked => exact ⟨_, .wake true⟩
  | woken timedOut =>
      cases timedOut with
      | true => exact ⟨_, .giveUp (hunlocked rfl)⟩
      | false => exact ⟨_, .relock (hunlocked rfl)⟩
  | leaving => exact ⟨_, .leave rfl⟩
  | ended => exact absurd rfl hended

/-- **The mutex keeps nobody from ending for good.**  Of threads that are asked to end one
can take a step, as long as not all have ended. -/
theorem exists_move {ι : Type*} (sleeps : ι → Bool) (phases : ι → Sleeper)
    (h : ∃ i, phases i ≠ .ended) :
    ∃ i phase', Move (sleeps i) false true (∀ j, (phases j).holds = false) (phases i) phase' := by
  by_cases hfree : ∀ j, (phases j).holds = false
  · obtain ⟨i, hi⟩ := h
    exact ⟨i, exists_move_of_holds (fun hnot => absurd hfree hnot) hi⟩
  · obtain ⟨j, hj⟩ := not_forall.1 hfree
    have hholds : (phases j).holds = true := Bool.not_eq_false _ ▸ hj
    refine ⟨j, exists_move_of_holds (fun _ => hholds) fun hended => ?_⟩
    rw [hended] at hholds
    cases hholds

end Sleeper

end Library
end UDataPacketBroker
