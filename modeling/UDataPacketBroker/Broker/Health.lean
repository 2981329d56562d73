/-
# The health check

`checkFuturesOkay` is to return true as long as no worker ended with an exception, and
the application terminates on false.  The code starts with false and has no branch that
sets true, so it returns false whatever the workers do (`answers_false`).  It is right
where a worker did fail, and nowhere else.
-/

import UDataPacketBroker.Broker.Workers

namespace UDataPacketBroker
namespace Broker
namespace Workers

open Library

variable {workers : ℕ} {trace : List Event} {s : State}

/-! ### What it answers -/

/-- A check has false in hand from its start on. -/
theorem checking_false (hrun : Run workers trace s) {isOkay : Bool} {seen : List Future}
    (hchecks : s.mainThread = .checking isOkay seen) : isOkay = false := by
  induction hrun generalizing isOkay seen with
  | nil => cases hchecks
  | concat _ hstep ih =>
      cases hstep with
      | ended outcome lives runs => exact ih hchecks
      | checkStarted idle =>
          cases hchecks
          rfl
      | @waited isOkay seen future checks next =>
          cases hchecks
          rw [ih checks]
          exact checkFuture_false future
      | answered checks all => cases hchecks
      | stopStarted idle => cases hchecks
      | got stops lives returns => cases hchecks
      | gotRaised stops lives raises => cases hchecks
      | stopEnded stops all => cases hchecks

/-- **Every check answers false.** -/
theorem answers_false (hrun : Run workers trace s) {isOkay : Bool} {seen : List Future}
    (hmem : .answered isOkay seen ∈ trace) : isOkay = false := by
  obtain ⟨before, t, u, hfront, hstep⟩ := hrun.exists_step hmem
  cases hstep with
  | answered checks all => exact checking_false hfront checks

/-- **A check that is exact:** it answers true if no worker had ended with an exception
when the check waited for it. -/
def Exact (isOkay : Bool) (seen : List Future) : Prop :=
  isOkay = true ↔ ∀ future ∈ seen, future.outcome? ≠ some .threw

/-- **When the health check is exact.**  All checks of a run are, exactly when each of
them came upon a worker that had ended with an exception. -/
theorem exact_iff (hrun : Run workers trace s) :
    (∀ isOkay seen, .answered isOkay seen ∈ trace → Exact isOkay seen) ↔
      ∀ isOkay seen, .answered isOkay seen ∈ trace →
        ∃ future ∈ seen, future.outcome? = some .threw := by
  refine forall₃_congr fun isOkay seen hmem => ?_
  rw [Exact, answers_false hrun hmem]
  constructor
  · intro hexact
    by_contra hnone
    have htrue := hexact.2 fun future hfuture hthrew => hnone ⟨future, hfuture, hthrew⟩
    exact Bool.false_ne_true htrue
  · rintro ⟨future, hfuture, hthrew⟩
    exact iff_of_false Bool.false_ne_true fun hnone => hnone future hfuture hthrew

/-- One worker that failed before the check. -/
theorem exact_iff_failed :
    ∃ s, Run 1 [.ended 0 .threw, .checkStarted, .waited 0 ⟨some .threw, true⟩,
        .answered false [⟨some .threw, true⟩]] s ∧ Exact false [⟨some .threw, true⟩] := by
  have hstart : Run 1 [] (start 1) := .nil
  have hrun : Run 1 [.ended 0 .threw, .checkStarted, .waited 0 ⟨some .threw, true⟩,
      .answered false [⟨some .threw, true⟩]] _ :=
    (((hstart.concat (@Step.ended _ 0 {} .threw rfl rfl)).concat
      (.checkStarted rfl)).concat (.waited rfl rfl)).concat (.answered rfl rfl)
  refine ⟨_, hrun, (exact_iff hrun).2 (fun isOkay seen hmem => ?_) _ _ (by simp)⟩
  obtain ⟨-, rfl⟩ : isOkay = false ∧ seen = [⟨some .threw, true⟩] := by simpa using hmem
  exact ⟨_, List.mem_singleton_self _, rfl⟩

/-- **A check of a worker that runs answers false.** -/
theorem not_exact_running :
    ¬ ∀ (workers : ℕ) (trace : List Event) (s : State), Run workers trace s →
      ∀ isOkay seen, .answered isOkay seen ∈ trace → Exact isOkay seen := by
  intro h
  have hstart : Run 1 [] (start 1) := .nil
  have hrun : Run 1 [.checkStarted, .waited 0 {}, .answered false [{}]] _ :=
    ((hstart.concat (.checkStarted rfl)).concat (.waited rfl rfl)).concat (.answered rfl rfl)
  have hexact := h _ _ _ hrun false [{}] (by simp)
  exact Bool.false_ne_true (hexact.2 (by simp))

end Workers
end Broker
end UDataPacketBroker
