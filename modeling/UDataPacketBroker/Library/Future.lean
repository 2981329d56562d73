/-
# One-shot futures

The `std::future<void>` of a task on a thread of its own.  The task ends once, by
returning or with an exception, and the future keeps how.  `get` waits for that and
hands it over: it returns, or it raises the exception of the task.  After that the
future has no state, and its members raise a `std::future_error`.  `wait_for` hands
nothing over.
-/

import Mathlib.Tactic.SplitIfs

namespace UDataPacketBroker
namespace Library

/-- How a task ends. -/
inductive Outcome where
  | returned | threw
deriving DecidableEq, Repr

/-- `outcome?` is how the task ended, and `valid` whether that is still to be taken. -/
structure Future where
  outcome? : Option Outcome := none
  valid : Bool := true
deriving DecidableEq, Repr

/-- `std::future_status` of a task that was not deferred. -/
inductive FutureStatus where
  | ready | timeout
deriving DecidableEq, Repr

/-- What the members raise: `std::future_errc::no_state`, or the exception of the task. -/
inductive Raised where
  | noState | task
deriving DecidableEq, Repr

/-- What taking the result of a task does. -/
def Outcome.take : Outcome → Except Raised Unit
  | .returned => .ok ()
  | .threw => .error .task

namespace Future

/-- The task ends. -/
def finish (future : Future) (outcome : Outcome) : Future :=
  { future with outcome? := some outcome }

/-- `wait_for`, as its time is over. -/
def waitFor (future : Future) : Except Raised FutureStatus :=
  if future.valid then .ok (if future.outcome?.isSome then .ready else .timeout)
  else .error .noState

/-- `get`, and the future after it; `none` while it waits for the task to end. -/
def get (future : Future) : Option (Except Raised Unit × Future) :=
  if future.valid then
    future.outcome?.map fun outcome => (outcome.take, { future with valid := false })
  else some (.error .noState, future)

/-! ### What `get` does -/

variable {future future' : Future} {result : Except Raised Unit}

/-- **A `get` that ends** takes the result, or finds that it was taken. -/
theorem get_eq_some (h : future.get = some (result, future')) :
    (∃ outcome, future.valid = true ∧ future.outcome? = some outcome ∧
      result = outcome.take ∧ future' = { future with valid := false }) ∨
    (future.valid = false ∧ result = .error .noState ∧ future' = future) := by
  unfold get at h
  split_ifs at h with hvalid
  · obtain ⟨outcome, houtcome, heq⟩ := Option.map_eq_some_iff.1 h
    cases heq
    exact Or.inl ⟨outcome, hvalid, houtcome, rfl, rfl⟩
  · cases h
    exact Or.inr ⟨eq_false_of_ne_true hvalid, rfl, rfl⟩

/-- **A future gives its result once.** -/
theorem valid_of_get (h : future.get = some (result, future')) : future'.valid = false := by
  obtain ⟨outcome, -, -, -, rfl⟩ | ⟨hvalid, -, rfl⟩ := get_eq_some h
  · rfl
  · exact hvalid

/-- A `get` that returns took the result. -/
theorem valid_of_get_ok (h : future.get = some (.ok (), future')) : future.valid = true := by
  obtain ⟨outcome, hvalid, -, -, -⟩ | ⟨-, hresult, -⟩ := get_eq_some h
  · exact hvalid
  · cases hresult

/-- **Only a second `get` finds no state.** -/
theorem valid_of_get_noState (h : future.get = some (.error .noState, future')) :
    future.valid = false := by
  obtain ⟨outcome, -, -, hresult, -⟩ | ⟨hvalid, -, -⟩ := get_eq_some h
  · cases outcome <;> cases hresult
  · exact hvalid

end Future

end Library
end UDataPacketBroker
