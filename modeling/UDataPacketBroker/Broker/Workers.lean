/-
# The worker threads

`src/broker.cpp`: `start`, `checkFuturesOkay` and `stop`.  `start` puts the future of
each worker thread into `mFuturesMap`; from then on the main thread alone uses them.
It calls `checkFuturesOkay` any number of times, which waits a while for every worker,
and then, when the broker is destroyed, `stop`, which gets every future.  Workers run
in between and end when they do.

A state is what lies between two operations on a future.  A worker is known by its
position in the map, whose keys are only logged.  The calls of the main thread are not
the broker's to choose, so a run has them in any number.
-/

import Mathlib.Data.List.Induction
import UDataPacketBroker.Library.Future

namespace UDataPacketBroker
namespace Broker
namespace Workers

open Library

/-! ### The health check and the shutdown -/

/-- The body of the loop of `checkFuturesOkay`, with its `catch`. -/
def checkFuture (isOkay : Bool) (future : Future) : Bool × Future :=
  match future.waitFor with
  | .ok .timeout => (isOkay, future)
  | .error _ => (false, future)
  | .ok .ready =>
    match future.get with
    | none => (isOkay, future)
    | some (.ok _, future) => (isOkay, future)
    | some (.error _, future) => (false, future)

/-- What the main thread is at.  `seen` are the futures of the workers that a check
waited for, as they were when the wait was over. -/
inductive MainThread where
  | idle
  | checking (isOkay : Bool) (seen : List Future)
  | stopping (next : ℕ)
  /-- `stop` returned, or something was raised out of it. -/
  | stopped (raised : Option Raised)

structure State where
  /-- The values of the map, in the order of its keys. -/
  futuresMap : List Future
  mainThread : MainThread := .idle

inductive Event where
  | ended (worker : ℕ) (outcome : Outcome)
  | checkStarted
  /-- `checkFuturesOkay` waited for a worker, and got its result if it had ended. -/
  | waited (worker : ℕ) (future : Future)
  | answered (isOkay : Bool) (seen : List Future)
  | stopStarted
  /-- `stop` got a future. -/
  | got (worker : ℕ) (future : Future)
  | stopEnded

/-- `start`, for any number of workers.  The source starts three: the compactor, the
truncator and the propagator. -/
def start (workers : ℕ) : State where
  futuresMap := List.replicate workers {}

/-- One operation on a future, or the end of a worker. -/
inductive Step : State → Event → State → Prop
  | ended {s : State} {worker : ℕ} {future : Future} (outcome : Outcome)
      (lives : s.futuresMap[worker]? = some future) (runs : future.outcome? = none) :
      Step s (.ended worker outcome) { s with
        futuresMap := s.futuresMap.set worker (future.finish outcome) }
  -- `bool isOkay{false};`
  | checkStarted {s : State} (idle : s.mainThread = .idle) :
      Step s .checkStarted { s with mainThread := .checking false [] }
  | waited {s : State} {isOkay : Bool} {seen : List Future} {future : Future}
      (checks : s.mainThread = .checking isOkay seen)
      (next : s.futuresMap[seen.length]? = some future) :
      Step s (.waited seen.length future)
        { futuresMap := s.futuresMap.set seen.length (checkFuture isOkay future).2
          mainThread := .checking (checkFuture isOkay future).1 (seen ++ [future]) }
  | answered {s : State} {isOkay : Bool} {seen : List Future}
      (checks : s.mainThread = .checking isOkay seen)
      (all : s.futuresMap.length = seen.length) :
      Step s (.answered isOkay seen) { s with mainThread := .idle }
  | stopStarted {s : State} (idle : s.mainThread = .idle) :
      Step s .stopStarted { s with mainThread := .stopping 0 }
  | got {s : State} {next : ℕ} {future future' : Future}
      (stops : s.mainThread = .stopping next) (lives : s.futuresMap[next]? = some future)
      (returns : future.get = some (.ok (), future')) :
      Step s (.got next future)
        { futuresMap := s.futuresMap.set next future', mainThread := .stopping (next + 1) }
  | gotRaised {s : State} {next : ℕ} {future future' : Future} {raised : Raised}
      (stops : s.mainThread = .stopping next) (lives : s.futuresMap[next]? = some future)
      (raises : future.get = some (.error raised, future')) :
      Step s (.got next future)
        { futuresMap := s.futuresMap.set next future', mainThread := .stopped (some raised) }
  | stopEnded {s : State} {next : ℕ} (stops : s.mainThread = .stopping next)
      (all : s.futuresMap.length = next) :
      Step s .stopEnded { s with mainThread := .stopped none }

/-- A run of a broker from its `start` on. -/
inductive Run (workers : ℕ) : List Event → State → Prop
  | nil : Run workers [] (start workers)
  | concat {trace : List Event} {e : Event} {s t : State} (run : Run workers trace s)
      (step : Step s e t) : Run workers (trace ++ [e]) t

/-- An event of a run was a step of it. -/
theorem Run.exists_step {workers : ℕ} {trace : List Event} {s : State}
    (hrun : Run workers trace s) {e : Event} (hmem : e ∈ trace) :
    ∃ before t u, Run workers before t ∧ Step t e u := by
  induction hrun with
  | nil => cases hmem
  | concat hfront hstep ih =>
      rcases List.mem_append.1 hmem with hbefore | hlast
      · exact ih hbefore
      · cases List.mem_singleton.1 hlast
        exact ⟨_, _, _, hfront, hstep⟩

/-! ### What a wait leaves -/

/-- **A check consumes the future of a worker that ended.** -/
theorem valid_checkFuture (isOkay : Bool) {future : Future} (h : future.outcome? ≠ none) :
    (checkFuture isOkay future).2.valid = false := by
  rcases future with ⟨_ | _ | _, _ | _⟩ <;> first | rfl | exact absurd rfl h

/-- A check leaves the future of a worker that runs alone. -/
theorem checkFuture_of_none (isOkay : Bool) {future : Future} (h : future.outcome? = none) :
    (checkFuture isOkay future).2 = future := by
  rcases future with ⟨_ | _ | _, _ | _⟩ <;> first | rfl | cases h

/-- A check does not make a consumed future valid. -/
theorem valid_checkFuture_of_consumed (isOkay : Bool) {future : Future}
    (h : future.valid = false) : (checkFuture isOkay future).2.valid = false := by
  rcases future with ⟨_ | _ | _, _ | _⟩ <;> first | rfl | cases h

/-- The answer starts as false, and no worker makes it true. -/
theorem checkFuture_false (future : Future) : (checkFuture false future).1 = false := by
  rcases future with ⟨_ | _ | _, _ | _⟩ <;> rfl

/-- The map after an operation on one of its futures. -/
theorem getElem?_set_of_some {futuresMap : List Future} {worker : ℕ} {future : Future}
    (h : futuresMap[worker]? = some future) (future' : Future) (other : ℕ) :
    (futuresMap.set worker future')[other]? =
      if worker = other then some future' else futuresMap[other]? := by
  obtain ⟨hlt, -⟩ := List.getElem?_eq_some_iff.1 h
  rw [List.getElem?_set, if_pos hlt]

/-- A property of futures that is kept by all that is done to one. -/
structure Kept (p : Future → Prop) : Prop where
  finish : ∀ future outcome, future.outcome? = none → p future → p (future.finish outcome)
  check : ∀ isOkay future, p future → p (checkFuture isOkay future).2
  get : ∀ future result future', future.get = some (result, future') → p future → p future'

/-- The future of a worker has the property. -/
def Holds (p : Future → Prop) (s : State) (worker : ℕ) : Prop :=
  ∃ future, s.futuresMap[worker]? = some future ∧ p future

/-- It holds of a worker still when one future is replaced, if that keeps it. -/
theorem holds_set {p : Future → Prop} {s t : State} {worker other : ℕ} {before after : Future}
    (hbefore : s.futuresMap[other]? = some before)
    (hafter : t.futuresMap = s.futuresMap.set other after) (hkeeps : p before → p after)
    (h : Holds p s worker) : Holds p t worker := by
  obtain ⟨future, hfuture, hp⟩ := h
  unfold Holds
  rw [hafter, getElem?_set_of_some hbefore]
  by_cases hsame : other = worker
  · subst hsame
    rw [hbefore] at hfuture
    cases hfuture
    exact ⟨after, if_pos rfl, hkeeps hp⟩
  · exact ⟨future, by rw [if_neg hsame, hfuture], hp⟩

/-- **What a step keeps of the futures.** -/
theorem Kept.step {p : Future → Prop} (hkept : Kept p) {s t : State} {e : Event}
    (hstep : Step s e t) {worker : ℕ} (h : Holds p s worker) : Holds p t worker := by
  cases hstep with
  | ended outcome lives runs => exact holds_set lives rfl (hkept.finish _ outcome runs) h
  | waited checks next => exact holds_set next rfl (hkept.check _ _) h
  | got stops lives returns => exact holds_set lives rfl (hkept.get _ _ _ returns) h
  | gotRaised stops lives raises => exact holds_set lives rfl (hkept.get _ _ _ raises) h
  | checkStarted idle => exact h
  | answered checks all => exact h
  | stopStarted idle => exact h
  | stopEnded stops all => exact h

/-- **A consumed future stays consumed.** -/
theorem kept_consumed : Kept fun future => future.valid = false where
  finish _ _ _ h := h
  check isOkay _ h := valid_checkFuture_of_consumed isOkay h
  get _ _ _ hget _ := Future.valid_of_get hget

/-- **What a wait saw of a worker lasts,** if it is of the kind that is kept and the wait
leaves it. -/
theorem holds_of_waited {p : Future → Prop} (hkept : Kept p) {workers : ℕ} {trace : List Event}
    {s : State} (hrun : Run workers trace s) {worker : ℕ} {future : Future}
    (hmem : .waited worker future ∈ trace)
    (hleaves : ∀ isOkay, p (checkFuture isOkay future).2) : Holds p s worker := by
  induction hrun with
  | nil => cases hmem
  | @concat trace e s t hfront hstep ih =>
      rcases List.mem_append.1 hmem with hmem | hmem
      · exact hkept.step hstep (ih hmem)
      · rw [List.mem_singleton] at hmem
        subst hmem
        cases hstep with
        | @waited isOkay seen future checks next =>
            refine ⟨_, ?_, hleaves isOkay⟩
            rw [getElem?_set_of_some next, if_pos rfl]

end Workers
end Broker
end UDataPacketBroker
