/-
# The shutdown

A future gives its result once.  `checkFuturesOkay` gets the future of a worker that has
ended, and `stop`, which the destructor calls, gets them all again.  A worker that a
check found ended is therefore asked twice: by the next check, which catches the
`std::future_error`, or by `stop`, which does not and terminates the application.  As
long as no check finds a worker ended, each future is got once, by `stop`.
-/

import UDataPacketBroker.Broker.Workers

namespace UDataPacketBroker
namespace Broker
namespace Workers

open Library

/-- **No future is used after its result was taken.** -/
def ConsumedOnce (trace : List Event) : Prop :=
  ∀ worker future, .waited worker future ∈ trace ∨ .got worker future ∈ trace →
    future.valid = true

/-- No check found a worker ended. -/
def NoneFoundEnded (trace : List Event) : Prop :=
  ∀ worker future, .waited worker future ∈ trace → future.outcome? = none

/-- `stop` did not get the future of the worker yet. -/
def Ahead : MainThread → ℕ → Prop
  | .idle, _ => True
  | .checking _ _, _ => True
  | .stopping next, worker => next ≤ worker
  | .stopped _, _ => False

variable {workers : ℕ} {trace : List Event} {e : Event} {s t : State}

/-- One more event keeps it if it does not use a consumed future. -/
theorem ConsumedOnce.concat (h : ConsumedOnce trace)
    (he : ∀ worker future, e = .waited worker future ∨ e = .got worker future →
      future.valid = true) : ConsumedOnce (trace ++ [e]) := by
  rintro worker future (hmem | hmem) <;>
  · rw [List.mem_append, List.mem_singleton] at hmem
    rcases hmem with hmem | rfl
    · exact h worker future (by simp [hmem])
    · exact he worker future (by simp)

/-! ### Where no check finds a worker ended -/

/-- The futures that `stop` is still to get have their results. -/
def ValidAhead (s : State) : Prop :=
  ∀ worker future, s.futuresMap[worker]? = some future → Ahead s.mainThread worker →
    future.valid = true

/-- It is kept where one future changes, if that is behind or stays valid. -/
theorem ValidAhead.of_set {worker : ℕ} {before after : Future} (h : ValidAhead s)
    (hbefore : s.futuresMap[worker]? = some before)
    (hafter : t.futuresMap = s.futuresMap.set worker after)
    (hahead : ∀ other, Ahead t.mainThread other → Ahead s.mainThread other)
    (hvalid : before.valid = true → Ahead t.mainThread worker → after.valid = true) :
    ValidAhead t := by
  intro other future hfuture hother
  rw [hafter, getElem?_set_of_some hbefore] at hfuture
  split_ifs at hfuture with hsame
  · subst hsame
    cases hfuture
    exact hvalid (h worker before hbefore (hahead worker hother)) hother
  · exact h other future hfuture (hahead other hother)

/-- Where a check finds no worker ended, no future ahead of `stop` is consumed. -/
theorem ValidAhead.step (h : ValidAhead s) (hstep : Step s e t)
    (hrunning : ∀ worker future, e = .waited worker future → future.outcome? = none) :
    ValidAhead t := by
  cases hstep with
  | ended outcome lives runs => exact h.of_set lives rfl (fun _ ha => ha) fun hvalid _ => hvalid
  | checkStarted idle =>
      exact fun worker future hfuture _ => h worker future hfuture (by rw [idle]; trivial)
  | @waited isOkay seen future checks next =>
      refine h.of_set next rfl (fun _ _ => by rw [checks]; trivial) fun hvalid _ => ?_
      rwa [checkFuture_of_none isOkay (hrunning _ _ rfl)]
  | answered checks all =>
      exact fun worker future hfuture _ => h worker future hfuture (by rw [checks]; trivial)
  | stopStarted idle =>
      exact fun worker future hfuture _ => h worker future hfuture (by rw [idle]; trivial)
  | got stops lives returns =>
      refine h.of_set lives rfl (fun other hother => ?_) fun _ hahead => ?_
      · rw [stops]
        exact Nat.le_of_succ_le hother
      · exact absurd hahead (Nat.not_succ_le_self _)
  | gotRaised stops lives raises => exact fun _ _ _ hahead => hahead.elim
  | stopEnded stops all => exact fun _ _ _ hahead => hahead.elim

/-- The main thread uses futures that `stop` is still to get, and no others. -/
theorem ValidAhead.valid (h : ValidAhead s) (hstep : Step s e t) {worker : ℕ} {future : Future}
    (he : e = .waited worker future ∨ e = .got worker future) : future.valid = true := by
  cases hstep with
  | waited checks next =>
      obtain heq | heq := he <;> cases heq
      exact h _ _ next (by rw [checks]; trivial)
  | got stops lives returns =>
      obtain heq | heq := he <;> cases heq
      exact h _ _ lives (by rw [stops]; exact Nat.le_refl _)
  | gotRaised stops lives raises =>
      obtain heq | heq := he <;> cases heq
      exact h _ _ lives (by rw [stops]; exact Nat.le_refl _)
  | _ => obtain heq | heq := he <;> cases heq

/-- `stop` finds no state in a consumed future only. -/
theorem Step.got_consumed (hstep : Step s e t) (ht : t.mainThread = .stopped (some .noState)) :
    s.mainThread = .stopped (some .noState) ∨
      ∃ worker future, e = .got worker future ∧ future.valid = false := by
  cases hstep with
  | ended outcome lives runs => exact Or.inl ht
  | gotRaised stops lives raises =>
      cases ht
      exact Or.inr ⟨_, _, rfl, Future.valid_of_get_noState raises⟩
  | _ => cases ht

/-- **Where no check finds a worker ended, futures are consumed once.** -/
theorem consumedOnce_of_noneFoundEnded (hrun : Run workers trace s) (h : NoneFoundEnded trace) :
    ConsumedOnce trace ∧ s.mainThread ≠ .stopped (some .noState) ∧ ValidAhead s := by
  induction hrun with
  | nil =>
      refine ⟨fun worker future hmem => by simp at hmem, by simp [start], ?_⟩
      intro worker future hfuture _
      rw [start, List.getElem?_replicate] at hfuture
      split_ifs at hfuture
      cases hfuture
      rfl
  | @concat trace e s t _ hstep ih =>
      obtain ⟨honce, hraised, hahead⟩ := ih fun worker future hmem =>
        h worker future (List.mem_append_left _ hmem)
      have hvalid {worker : ℕ} {future : Future}
          (he : e = .waited worker future ∨ e = .got worker future) : future.valid = true :=
        hahead.valid hstep he
      refine ⟨honce.concat fun _ _ => hvalid, fun hstopped => ?_, hahead.step hstep ?_⟩
      · rcases hstep.got_consumed hstopped with hbefore | ⟨worker, future, he, hconsumed⟩
        · exact hraised hbefore
        · exact absurd (hconsumed.symm.trans (hvalid (Or.inr he))) Bool.false_ne_true
      · rintro worker future rfl
        exact h worker future (List.mem_append_right _ (List.mem_singleton_self _))

/-! ### Where a check found one -/

/-- The future of a worker that a check found ended is consumed from then on. -/
theorem consumed_of_found (hrun : Run workers trace s) {worker : ℕ} {future : Future}
    (hmem : .waited worker future ∈ trace) (hended : future.outcome? ≠ none) :
    Holds (fun future => future.valid = false) s worker :=
  holds_of_waited kept_consumed hrun hmem fun isOkay => valid_checkFuture isOkay hended

/-- **`stop` does not get past a worker that a check found ended.** -/
theorem le_of_found (hrun : Run workers trace s) {next : ℕ} (hstops : s.mainThread = .stopping next)
    {worker : ℕ} {future : Future} (hmem : .waited worker future ∈ trace)
    (hended : future.outcome? ≠ none) : next ≤ worker := by
  induction hrun generalizing next with
  | nil => cases hmem
  | @concat trace e s t hfront hstep ih =>
      rcases List.mem_append.1 hmem with hbefore | hlast
      · cases hstep with
        | ended outcome lives runs => exact ih hstops hbefore
        | stopStarted idle =>
            cases hstops
            exact Nat.zero_le _
        | @got next future' future'' stops lives returns =>
            cases hstops
            have hle := ih stops hbefore
            refine Nat.lt_of_le_of_ne hle fun heq => ?_
            subst heq
            obtain ⟨consumed, hconsumed, hvalid⟩ := consumed_of_found hfront hbefore hended
            rw [lives] at hconsumed
            cases hconsumed
            exact Bool.false_ne_true (hvalid.symm.trans (Future.valid_of_get_ok returns))
        | _ => cases hstops
      · rw [List.mem_singleton] at hlast
        subst hlast
        cases hstep
        cases hstops

/-- **A `stop` that returns** found the results of all workers. -/
theorem noneFoundEnded_of_stopped (hrun : Run workers trace s)
    (hstopped : s.mainThread = .stopped none) : NoneFoundEnded trace := by
  induction hrun with
  | nil => cases hstopped
  | @concat trace e s t hfront hstep ih =>
      cases hstep with
      | ended outcome lives runs =>
          intro worker future hmem
          exact ih hstopped worker future (by simpa using hmem)
      | stopEnded stops all =>
          intro worker future hmem
          have hbefore : .waited worker future ∈ trace := by simpa using hmem
          by_contra hended
          have hle := le_of_found hfront stops hbefore hended
          obtain ⟨consumed, hconsumed, -⟩ := consumed_of_found hfront hbefore hended
          obtain ⟨hlt, -⟩ := List.getElem?_eq_some_iff.1 hconsumed
          omega
      | _ => cases hstopped

/-- A shutdown that fails for want of a state used a future twice. -/
theorem not_consumedOnce_of_noState (hrun : Run workers trace s)
    (hstopped : s.mainThread = .stopped (some .noState)) : ¬ConsumedOnce trace := by
  induction hrun with
  | nil => cases hstopped
  | concat _ hstep ih =>
      intro honce
      rcases hstep.got_consumed hstopped with hbefore | ⟨worker, future, rfl, hconsumed⟩
      · refine ih hbefore fun worker future hmem => honce worker future ?_
        exact hmem.imp (List.mem_append_left _) (List.mem_append_left _)
      · have hvalid := honce worker future (Or.inr (by simp))
        exact Bool.false_ne_true (hconsumed.symm.trans hvalid)

/-! ### The shutdown -/

/-- **When the futures are consumed once.**  In every run whose checks find no worker
ended, no future is used after its result was taken, and nothing is raised for that
out of `stop`.  In a run that `stop` ended, unless a worker's own exception ended it,
that is the only way. -/
theorem consumedOnce_iff (hrun : Run workers trace s) :
    (NoneFoundEnded trace →
      ConsumedOnce trace ∧ s.mainThread ≠ .stopped (some .noState)) ∧
    ∀ raised, s.mainThread = .stopped raised → raised ≠ some .task →
      (ConsumedOnce trace ↔ NoneFoundEnded trace) := by
  refine ⟨fun h => ?_, fun raised hstopped htask => ⟨fun honce => ?_, fun h => ?_⟩⟩
  · obtain ⟨honce, hraised, -⟩ := consumedOnce_of_noneFoundEnded hrun h
    exact ⟨honce, hraised⟩
  · cases raised with
    | none => exact noneFoundEnded_of_stopped hrun hstopped
    | some raised =>
        cases raised with
        | task => exact absurd rfl htask
        | noState => exact absurd honce (not_consumedOnce_of_noState hrun hstopped)
  · exact (consumedOnce_of_noneFoundEnded hrun h).1

/-- A worker that runs until `stop` waits for it. -/
theorem consumedOnce_iff_running :
    ∃ s, Run 1 [.checkStarted, .waited 0 {}, .answered false [{}], .stopStarted,
        .ended 0 .returned, .got 0 ⟨some .returned, true⟩, .stopEnded] s ∧
      ConsumedOnce [.checkStarted, .waited 0 {}, .answered false [{}], .stopStarted,
        .ended 0 .returned, .got 0 ⟨some .returned, true⟩, .stopEnded] := by
  have hstart : Run 1 [] (start 1) := .nil
  have hchecked : Run 1 [.checkStarted, .waited 0 {}, .answered false [{}]] _ :=
    ((hstart.concat (.checkStarted rfl)).concat (.waited rfl rfl)).concat (.answered rfl rfl)
  have hrun : Run 1 [.checkStarted, .waited 0 {}, .answered false [{}], .stopStarted,
      .ended 0 .returned, .got 0 ⟨some .returned, true⟩, .stopEnded] _ :=
    (((hchecked.concat (.stopStarted rfl)).concat (@Step.ended _ 0 {} .returned rfl rfl)).concat
      (.got rfl rfl rfl)).concat (.stopEnded rfl rfl)
  refine ⟨_, hrun, ((consumedOnce_iff hrun).2 none rfl (by simp)).2 fun worker future hmem => ?_⟩
  obtain ⟨rfl, rfl⟩ : worker = 0 ∧ future = {} := by simpa using hmem
  rfl

/-- **A worker fails, a check finds it so, and the shutdown terminates the
application:** `stop` gets the future that the check consumed. -/
theorem not_consumedOnce_failed :
    ¬ ∀ (workers : ℕ) (trace : List Event) (s : State), Run workers trace s →
      ConsumedOnce trace ∧ s.mainThread ≠ .stopped (some .noState) := by
  intro h
  have hstart : Run 1 [] (start 1) := .nil
  have hchecked : Run 1 [.ended 0 .threw, .checkStarted, .waited 0 ⟨some .threw, true⟩,
      .answered false [⟨some .threw, true⟩]] _ :=
    (((hstart.concat (@Step.ended _ 0 {} .threw rfl rfl)).concat (.checkStarted rfl)).concat
      (.waited rfl rfl)).concat (.answered rfl rfl)
  have hrun := (hchecked.concat (.stopStarted rfl)).concat (.gotRaised rfl rfl rfl)
  exact (h 1 _ _ hrun).2 rfl

end Workers
end Broker
end UDataPacketBroker
