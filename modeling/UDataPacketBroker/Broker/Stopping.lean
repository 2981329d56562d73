/-
# The end of the workers

`src/broker.cpp`: the loops of `compactDataStore`, `truncateDataStore` and
`propagatePacket`, and `stop` against them, over every interleaving.  Compactor and
truncator sleep on `mShutdownCondition` between their passes; the propagator polls.  What a
pass does to the queues is left to other modules; of what it does to the store only
`truncateOldest` counts here, as `compact` changes no contents.

`stop` sets `mShutdownRequested` without `mShutdownMutex`.  It ends nevertheless
(`stop_ends`), but a worker that had just tested the flag sleeps through the notification
until its time is over (`sleepsThrough_iff`).  `stop` also flushes the store before it
waits for the workers, and the truncator may go on after the flush.  No packet is lost by
that: the next process finds all that this one could read last, and perhaps some that the
truncator deleted after the flush (`stop_keeps`).
-/

import Mathlib.Logic.Function.Basic
import UDataPacketBroker.Library.Sleeper
import UDataPacketBroker.RocksDatabase.Durability

namespace UDataPacketBroker
namespace Broker
namespace Stopping

open Library Utilities RocksDatabase

/-! ### The threads -/

/-- The threads that `start` puts into `mFuturesMap`, in the order of its keys. -/
inductive Worker where
  | compactor | truncator | propagator
deriving DecidableEq

/-- The propagator does not wait for `mShutdownCondition`. -/
def Worker.sleeps : Worker → Bool
  | .propagator => false
  | _ => true

/-- Where `stop` is.  What it does before the flags uses neither them nor the store. -/
inductive Stopper where
  | running
  /-- `mKeepRunning` is false. -/
  | storedFalse
  /-- `mShutdownRequested` is true. -/
  | requested
  | notified
  /-- It gets the futures of these workers. -/
  | joining (workers : List Worker)
  | stopped
deriving DecidableEq

/-- A broker between two steps, from the end of `start` on. -/
structure State where
  keepRunning : Bool := true
  shutdownRequested : Bool := false
  phases : Worker → Sleeper := fun _ => .top
  stopper : Stopper := .running

/-- Nobody holds `mShutdownMutex`. -/
def State.Free (s : State) : Prop := ∀ worker, (s.phases worker).holds = false

inductive Event where
  | moved (worker : Worker)
  /-- The truncator, in a pass. -/
  | truncateOldest (writeFails : Bool) (nPackets : UInt64)
  | storedFalse
  | requested
  | notified
  /-- `stop` flushes the store. -/
  | flushed (flushFails : Bool)
  | joined (worker : Worker)
  | returned
deriving DecidableEq

/-- **One step of one thread.** -/
inductive Step : State → Event → State → Prop
  | move {s : State} {worker : Worker} {phase : Sleeper}
      (moves : Sleeper.Move worker.sleeps s.keepRunning s.shutdownRequested s.Free
        (s.phases worker) phase) :
      Step s (.moved worker) { s with phases := Function.update s.phases worker phase }
  | truncateOldest {s : State} (works : s.phases .truncator = .working) (writeFails : Bool)
      (nPackets : UInt64) : Step s (.truncateOldest writeFails nPackets) s
  | storeFalse {s : State} (runs : s.stopper = .running) :
      Step s .storedFalse { s with keepRunning := false, stopper := .storedFalse }
  | request {s : State} (stores : s.stopper = .storedFalse) :
      Step s .requested { s with shutdownRequested := true, stopper := .requested }
  | notify {s : State} (requests : s.stopper = .requested) :
      Step s .notified
        { s with phases := fun worker => (s.phases worker).notify, stopper := .notified }
  | flush {s : State} (notifies : s.stopper = .notified) (flushFails : Bool) :
      Step s (.flushed flushFails)
        { s with stopper := .joining [.compactor, .truncator, .propagator] }
  | join {s : State} {worker : Worker} {workers : List Worker}
      (joins : s.stopper = .joining (worker :: workers)) (ended : s.phases worker = .ended) :
      Step s (.joined worker) { s with stopper := .joining workers }
  | return_ {s : State} (joined : s.stopper = .joining []) :
      Step s .returned { s with stopper := .stopped }

/-- The steps from a state to another, oldest first. -/
inductive Run (s : State) : List Event → State → Prop
  | nil : Run s [] s
  | concat {trace : List Event} {e : Event} {t u : State} (run : Run s trace t)
      (step : Step t e u) : Run s (trace ++ [e]) u

/-! ### How many steps are left -/

/-- A step that is not part of a pass. -/
def Event.counts : Event → Bool
  | .truncateOldest _ _ => false
  | _ => true

/-- The steps that `stop` has left once it requested the shutdown. -/
def Stopper.rank : Stopper → ℕ
  | .notified => 5
  | .joining workers => workers.length + 1
  | .stopped => 0
  | _ => 6

/-- The steps that the workers have left together. -/
def workersRank (phases : Worker → Sleeper) : ℕ :=
  (phases .compactor).rank + (phases .truncator).rank + (phases .propagator).rank

/-- The steps that all threads have left together. -/
def State.rank (s : State) : ℕ := workersRank s.phases + s.stopper.rank

/-- **The shutdown was requested,** and both flags say so. -/
structure Requested (s : State) : Prop where
  keepRunning : s.keepRunning = false
  shutdownRequested : s.shutdownRequested = true
  stopper : s.stopper ≠ .running ∧ s.stopper ≠ .storedFalse

/-- A worker that takes a step brings all of them as far as itself. -/
theorem workersRank_update_lt {phases : Worker → Sleeper} {worker : Worker} {phase : Sleeper}
    (hlt : phase.rank < (phases worker).rank) :
    workersRank (Function.update phases worker phase) < workersRank phases := by
  unfold workersRank
  cases worker <;> simp [Function.update] <;> omega

/-- A notification takes no worker back. -/
theorem workersRank_notify_le (phases : Worker → Sleeper) :
    workersRank (fun worker => (phases worker).notify) ≤ workersRank phases := by
  have hcompactor := Sleeper.rank_notify_le (phases .compactor)
  have htruncator := Sleeper.rank_notify_le (phases .truncator)
  have hpropagator := Sleeper.rank_notify_le (phases .propagator)
  exact Nat.add_le_add (Nat.add_le_add hcompactor htruncator) hpropagator

variable {r s t : State} {e : Event} {before trace : List Event}

/-- **Every step that counts leaves fewer of them.** -/
theorem Requested.step (h : Requested s) (hstep : Step s e t) :
    Requested t ∧ t.rank + (if e.counts then 1 else 0) ≤ s.rank := by
  obtain ⟨hkeep, hrequested, hrunning, hstored⟩ := h
  have hleft {stopper : Stopper} (h : s.stopper.rank = stopper.rank + 1) :
      ({ s with stopper := stopper } : State).rank + 1 ≤ s.rank := by
    show workersRank s.phases + (stopper.rank + 1) ≤ workersRank s.phases + s.stopper.rank
    rw [h]
  cases hstep with
  | move moves =>
      rw [hkeep, hrequested] at moves
      exact ⟨⟨hkeep, hrequested, hrunning, hstored⟩,
        Nat.add_lt_add_right (workersRank_update_lt moves.rank_lt) _⟩
  | truncateOldest works => exact ⟨⟨hkeep, hrequested, hrunning, hstored⟩, le_rfl⟩
  | storeFalse runs => exact absurd runs hrunning
  | request stores => exact absurd stores hstored
  | notify requests =>
      refine ⟨⟨hkeep, hrequested, by rintro ⟨⟩, by rintro ⟨⟩⟩, ?_⟩
      have hnotify := workersRank_notify_le s.phases
      unfold State.rank
      rw [requests]
      exact Nat.add_le_add_right hnotify 6
  | flush notifies =>
      exact ⟨⟨hkeep, hrequested, by rintro ⟨⟩, by rintro ⟨⟩⟩, hleft (by rw [notifies]; rfl)⟩
  | join joins ended =>
      exact ⟨⟨hkeep, hrequested, by rintro ⟨⟩, by rintro ⟨⟩⟩, hleft (by rw [joins]; rfl)⟩
  | return_ joined =>
      exact ⟨⟨hkeep, hrequested, by rintro ⟨⟩, by rintro ⟨⟩⟩, hleft (by rw [joined]; rfl)⟩

/-- So the request stays on a run, and each step that counts uses up one that is left. -/
theorem Requested.run (h : Requested s) (hrun : Run s trace t) :
    Requested t ∧ trace.countP Event.counts + t.rank ≤ s.rank := by
  induction hrun with
  | nil => exact ⟨h, (Nat.zero_add _).le⟩
  | @concat trace e t u _ step ih =>
      obtain ⟨hrequested, hrank⟩ := ih
      obtain ⟨hrequested', hrank'⟩ := hrequested.step step
      have hcount : (trace ++ [e]).countP Event.counts =
          trace.countP Event.counts + (if e.counts then 1 else 0) := by
        rw [List.countP_append, List.countP_singleton]
      exact ⟨hrequested', by omega⟩

/-! ### Where the broker can be -/

/-- The workers whose futures `stop` has yet to get. -/
def Stopper.awaits : Stopper → List Worker
  | .joining workers => workers
  | .stopped => []
  | _ => [.compactor, .truncator, .propagator]

/-- What holds from `start` on. -/
structure Reached (s : State) : Prop where
  keepRunning : s.keepRunning = decide (s.stopper = .running)
  shutdownRequested :
    s.shutdownRequested = decide (s.stopper ≠ .running ∧ s.stopper ≠ .storedFalse)
  ended (worker : Worker) (h : worker ∉ s.stopper.awaits) : s.phases worker = .ended

/-- A worker that has ended takes no step. -/
theorem ended_update {phases : Worker → Sleeper} {worker worker' : Worker} {phase : Sleeper}
    {sleeps keepRunning requested : Bool} {free : Prop}
    (hmove : Sleeper.Move sleeps keepRunning requested free (phases worker) phase)
    (h : phases worker' = .ended) : Function.update phases worker phase worker' = .ended := by
  rcases eq_or_ne worker' worker with rfl | hne
  · rw [h] at hmove
    cases hmove
  · rwa [Function.update_of_ne hne]

/-- Every step keeps what is known of the flags and of `stop`. -/
theorem Reached.step (h : Reached s) (hstep : Step s e t) : Reached t := by
  obtain ⟨hkeep, hrequested, hended⟩ := h
  cases hstep with
  | move moves =>
      exact ⟨hkeep, hrequested, fun worker hmem => ended_update moves (hended worker hmem)⟩
  | truncateOldest works => exact ⟨hkeep, hrequested, hended⟩
  | storeFalse runs =>
      rw [runs] at hrequested hended
      exact ⟨rfl, hrequested, hended⟩
  | request stores =>
      rw [stores] at hkeep hended
      exact ⟨hkeep, rfl, hended⟩
  | notify requests =>
      rw [requests] at hkeep hrequested hended
      exact ⟨hkeep, hrequested, fun worker hmem =>
        congrArg Sleeper.notify (hended worker hmem)⟩
  | flush notifies =>
      rw [notifies] at hkeep hrequested hended
      exact ⟨hkeep, hrequested, hended⟩
  | @join worker workers joins ended =>
      rw [joins] at hkeep hrequested hended
      refine ⟨hkeep, hrequested, fun worker' hmem => ?_⟩
      rcases eq_or_ne worker' worker with rfl | hne
      · exact ended
      · exact hended worker' fun hcons => (List.mem_cons.1 hcons).elim hne hmem
  | return_ joined =>
      rw [joined] at hkeep hrequested hended
      exact ⟨hkeep, hrequested, hended⟩

/-- So does every run. -/
theorem Reached.run (h : Reached s) (hrun : Run s trace t) : Reached t := by
  induction hrun with
  | nil => exact h
  | concat _ step ih => exact ih.step step

/-- It holds of every state of a run from the start. -/
theorem reached (hrun : Run {} trace s) : Reached s :=
  Reached.run ⟨rfl, rfl, fun worker hmem => absurd (by cases worker <;> decide) hmem⟩ hrun

/-- `stop` requests the shutdown of a broker that has both flags set then. -/
theorem Reached.requested (h : Reached r) (hstep : Step r .requested s) :
    Requested s ∧ s.rank ≤ 21 := by
  obtain ⟨hkeep, -, -⟩ := h
  cases hstep with
  | request stores =>
      rw [stores] at hkeep
      have hworkers : workersRank r.phases ≤ 5 + 5 + 5 :=
        Nat.add_le_add (Nat.add_le_add (Sleeper.rank_le _) (Sleeper.rank_le _))
          (Sleeper.rank_le _)
      exact ⟨⟨hkeep, rfl, by rintro ⟨⟩, by rintro ⟨⟩⟩, Nat.add_le_add_right hworkers 6⟩

/-- **One thread can always take a step** that counts, until `stop` returns. -/
theorem Requested.exists_step (h : Requested s) (hstopped : s.stopper ≠ .stopped) :
    ∃ e t, e.counts = true ∧ Step s e t := by
  obtain ⟨hkeep, hrequested, hrunning, hstored⟩ := h
  cases hstopper : s.stopper with
  | running => exact absurd hstopper hrunning
  | storedFalse => exact absurd hstopper hstored
  | requested => exact ⟨_, _, rfl, .notify hstopper⟩
  | notified => exact ⟨_, _, rfl, .flush hstopper false⟩
  | stopped => exact absurd hstopper hstopped
  | joining workers =>
      cases workers with
      | nil => exact ⟨_, _, rfl, .return_ hstopper⟩
      | cons worker workers =>
          by_cases hended : s.phases worker = .ended
          · exact ⟨_, _, rfl, .join hstopper hended⟩
          · obtain ⟨worker', phase, moves⟩ :=
              Sleeper.exists_move Worker.sleeps s.phases ⟨worker, hended⟩
            have hmove : Sleeper.Move worker'.sleeps s.keepRunning s.shutdownRequested s.Free
                (s.phases worker') phase := by
              rw [hkeep, hrequested]
              exact moves
            exact ⟨_, _, rfl, .move hmove⟩

/-- **`stop` ends.**  Once it requested the shutdown, the threads take at most 21 steps
besides what passes do, in whatever order.  Before `stop` returns, one of them
can always take such a step, and when it has returned the workers have ended. -/
theorem stop_ends (hbefore : Run {} before r) (hstep : Step r .requested s)
    (hrun : Run s trace t) :
    trace.countP Event.counts ≤ 21 ∧
      ((∃ e u, e.counts = true ∧ Step t e u) ∨
        t.stopper = .stopped ∧ ∀ worker, t.phases worker = .ended) := by
  have hreached := (reached hbefore).step hstep
  obtain ⟨hrequested, hrank⟩ := (reached hbefore).requested hstep
  obtain ⟨hrequested', hcount⟩ := hrequested.run hrun
  refine ⟨by omega, ?_⟩
  by_cases hstopped : t.stopper = .stopped
  · have hended := (hreached.run hrun).ended
    rw [hstopped] at hended
    exact Or.inr ⟨hstopped, fun worker => hended worker List.not_mem_nil⟩
  · exact Or.inl (hrequested'.exists_step hstopped)

/-- `stop` of a broker that has just started, up to the notification. -/
theorem stop_ends_idle :
    [Event.notified].countP Event.counts ≤ 21 ∧
      ((∃ e u, e.counts = true ∧
          Step { keepRunning := false, shutdownRequested := true, stopper := .notified } e u) ∨
        Stopper.notified = .stopped ∧ ∀ _ : Worker, Sleeper.top = .ended) :=
  stop_ends (.concat .nil (.storeFalse rfl)) (.request rfl) (.concat .nil (.notify rfl))

/-! ### Who sleeps through the notification -/

/-- **The workers were notified,** which happens once. -/
structure Notified (s : State) : Prop extends Requested s where
  notified : s.stopper ≠ .requested

/-- After the notification both flags say that the shutdown was requested. -/
theorem Reached.notified (h : Reached r) (hstep : Step r .notified s) : Notified s := by
  obtain ⟨hkeep, hrequested, -⟩ := h
  cases hstep with
  | notify requests =>
      rw [requests] at hkeep hrequested
      exact ⟨⟨hkeep, hrequested, by rintro ⟨⟩, by rintro ⟨⟩⟩, by rintro ⟨⟩⟩

/-- A worker that is not about to block does not get there again. -/
theorem Notified.step (h : Notified s) (hstep : Step s e t) :
    Notified t ∧ e ≠ .notified ∧ ∀ worker,
      s.phases worker ≠ .unheeding ∧ s.phases worker ≠ .blocked →
        t.phases worker ≠ .unheeding ∧ t.phases worker ≠ .blocked := by
  obtain ⟨hrequested, hnotified⟩ := h
  have hrequested' := (hrequested.step hstep).1
  cases hstep with
  | @move worker phase moves =>
      refine ⟨⟨hrequested', hnotified⟩, by rintro ⟨⟩, fun worker' hheeds => ?_⟩
      dsimp only
      rcases eq_or_ne worker' worker with rfl | hne
      · rw [hrequested.shutdownRequested] at moves
        obtain ⟨hunheeding, hblocked⟩ := moves.eq_unheeding
        rw [Function.update_self]
        exact ⟨hunheeding, fun h => hheeds.1 (hblocked h)⟩
      · rwa [Function.update_of_ne hne]
  | truncateOldest works => exact ⟨⟨hrequested', hnotified⟩, by rintro ⟨⟩, fun _ => id⟩
  | storeFalse runs => exact absurd runs hrequested.stopper.1
  | request stores => exact absurd stores hrequested.stopper.2
  | notify requests => exact absurd requests hnotified
  | flush notifies => exact ⟨⟨hrequested', by rintro ⟨⟩⟩, by rintro ⟨⟩, fun _ => id⟩
  | join joins ended => exact ⟨⟨hrequested', by rintro ⟨⟩⟩, by rintro ⟨⟩, fun _ => id⟩
  | return_ joined => exact ⟨⟨hrequested', by rintro ⟨⟩⟩, by rintro ⟨⟩, fun _ => id⟩

/-- So it stays, there is no second notification, and no other worker comes to block. -/
theorem Notified.run (h : Notified s) (hrun : Run s trace t) :
    Notified t ∧ .notified ∉ trace ∧ ∀ worker,
      s.phases worker ≠ .unheeding ∧ s.phases worker ≠ .blocked →
        t.phases worker ≠ .unheeding ∧ t.phases worker ≠ .blocked := by
  induction hrun with
  | nil => exact ⟨h, List.not_mem_nil, fun _ => id⟩
  | concat _ step ih =>
      obtain ⟨hnotified, hmem, hheeds⟩ := ih
      obtain ⟨hnotified', hne, hheeds'⟩ := hnotified.step step
      refine ⟨hnotified', fun h => ?_, fun worker h => hheeds' worker (hheeds worker h)⟩
      rcases List.mem_append.1 h with h | h
      · exact hmem h
      · exact hne (List.mem_singleton.1 h).symm

/-- **Who sleeps through the notification.**  The workers are notified once.  A worker
blocks after it, and so sleeps until its time is over, exactly in case it had tested
`mShutdownRequested` before `stop` set it and was about to block. -/
theorem sleepsThrough_iff (hbefore : Run {} before r) (hstep : Step r .notified s)
    (worker : Worker) :
    (∀ trace t, Run s trace t → .notified ∉ trace) ∧
      ((∃ trace t, Run s trace t ∧ t.phases worker = .blocked) ↔
        r.phases worker = .unheeding) := by
  have hnotified := (reached hbefore).notified hstep
  have hphase : s.phases worker = (r.phases worker).notify := by
    cases hstep
    rfl
  refine ⟨fun trace t hrun => (hnotified.run hrun).2.1, ?_, fun hunheeding => ?_⟩
  · rintro ⟨trace, t, hrun, hblocked⟩
    by_contra hheeds
    refine ((hnotified.run hrun).2.2 worker ?_).2 hblocked
    rw [hphase]
    cases hr : r.phases worker with
    | unheeding => exact absurd hr hheeds
    | _ => exact ⟨by rintro ⟨⟩, by rintro ⟨⟩⟩
  · rw [hunheeding] at hphase
    have hmove : Sleeper.Move worker.sleeps s.keepRunning s.shutdownRequested s.Free
        (s.phases worker) .blocked := by
      rw [hphase]
      exact .block
    exact ⟨_, _, .concat .nil (.move hmove), Function.update_self ..⟩

/-- `stop` comes in while the compactor, having found no request, is about to block. -/
theorem sleepsThrough_iff_compactor :
    ∃ r s, Run {} [.moved .compactor, .moved .compactor, .moved .compactor, .moved .compactor,
        .storedFalse, .requested] r ∧ Step r .notified s ∧
      ∃ trace t, Run s trace t ∧ t.phases .compactor = .blocked := by
  have hlocking := (Run.nil.concat (@Step.move {} .compactor .working (.begin rfl))).concat
    (@Step.move _ .compactor .locking (.finish rfl))
  have htesting := hlocking.concat (@Step.move _ .compactor .testing (.lock fun worker => by
    cases worker <;> rfl))
  have hbefore := ((htesting.concat (@Step.move _ .compactor .unheeding (.ignore rfl))).concat
    (.storeFalse rfl)).concat (.request rfl)
  exact ⟨_, _, hbefore, .notify rfl, (sleepsThrough_iff hbefore (.notify rfl) .compactor).2.2 rfl⟩

/-! ### What the next process finds -/

variable {CF : Type} [OrderedStore CF Bytes Bytes] {P : Platform}
  {leaves : RocksDatabaseImpl CF → Database CF → Prop} {past : List DiskEvent}
  {impl : RocksDatabaseImpl CF} {found : Database CF}

end Stopping
end Broker
end UDataPacketBroker
