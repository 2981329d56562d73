/-
# What the propagator leaves behind

The loop of `propagatePacket` around its pass: it loads `mKeepRunning`, looks into
`mImportQueue`, and takes a packet through both outbound queues or goes back to load again.
`stop` makes the flag false at any moment, while callbacks and consumers go on.

From then on the propagator takes at most one packet, that of a pass it had begun, and
ends (`propagator_ends`).  What it took went to both outbound queues.  What is in
`mImportQueue` when it ends stays there, as does what a callback still pushes: these packets
were accepted, and no step numbers them (`stranded`).
-/

import UDataPacketBroker.Broker.Delivery
import UDataPacketBroker.Library.Sleeper

namespace UDataPacketBroker
namespace Broker
namespace Leftovers

open Library

variable {ι : Type}

/-! ### The loop -/

/-- Where the propagator is in its loop. -/
inductive Loop where
  | head
  /-- `mKeepRunning` was true. -/
  | looking
  /-- With a packet. -/
  | passing
  | ended
deriving DecidableEq

/-- A broker between two steps, with the loop of its propagator. -/
structure State (ι : Type) where
  broker : Broker.State ι
  keepRunning : Bool := true
  loop : Loop := .head

def State.initial (globalSequenceNumber : UInt64) : State ι :=
  { broker := Broker.State.initial globalSequenceNumber }

/-- The events of the propagator. -/
def propagates : Event ι → Bool
  | .took _ | .publishPushed | .dataStorePushed => true
  | _ => false

inductive Action (ι : Type) where
  | moved (transition : Transition ι)
  /-- The propagator loads `mKeepRunning`. -/
  | loaded
  /-- The import queue is empty, and the propagator sleeps. -/
  | idled
  | stopped

/-- **One step of one thread.** -/
inductive Step (maximum : ℕ) : State ι → Action ι → State ι → Prop
  | other {s : State ι} {e : Event ι} {broker : Broker.State ι}
      (step : StepUpTo maximum s.broker e broker) (elsewhere : propagates e = false) :
      Step maximum s (.moved ⟨s.broker, e, broker⟩) { s with broker := broker }
  | load {s : State ι} (atHead : s.loop = .head) :
      Step maximum s .loaded { s with loop := if s.keepRunning then .looking else .ended }
  | idle {s : State ι} (looks : s.loop = .looking) (empty : s.broker.importQueue = []) :
      Step maximum s .idled { s with loop := .head }
  | take {s : State ι} {packet : Packet} {broker : Broker.State ι} (looks : s.loop = .looking)
      (step : StepUpTo maximum s.broker (.took packet) broker) :
      Step maximum s (.moved ⟨s.broker, .took packet, broker⟩)
        { s with broker := broker, loop := .passing }
  | publish {s : State ι} {broker : Broker.State ι} (passes : s.loop = .passing)
      (step : StepUpTo maximum s.broker .publishPushed broker) :
      Step maximum s (.moved ⟨s.broker, .publishPushed, broker⟩) { s with broker := broker }
  | store {s : State ι} {broker : Broker.State ι} (passes : s.loop = .passing)
      (step : StepUpTo maximum s.broker .dataStorePushed broker) :
      Step maximum s (.moved ⟨s.broker, .dataStorePushed, broker⟩)
        { s with broker := broker, loop := .head }
  | stop {s : State ι} : Step maximum s .stopped { s with keepRunning := false }

/-- The actions from a state to another, oldest first. -/
inductive Run (maximum : ℕ) (s : State ι) : List (Action ι) → State ι → Prop
  | nil : Run maximum s [] s
  | concat {trace : List (Action ι)} {a : Action ι} {t u : State ι} (run : Run maximum s trace t)
      (step : Step maximum t a u) : Run maximum s (trace ++ [a]) u

def Action.transition? : Action ι → Option (Transition ι)
  | .moved transition => some transition
  | _ => none

/-- The steps of the broker in a run. -/
def transitions (trace : List (Action ι)) : List (Transition ι) :=
  trace.filterMap Action.transition?

/-- The transitions of a run in two parts. -/
theorem transitions_append (trace trace' : List (Action ι)) :
    transitions (trace ++ trace') = transitions trace ++ transitions trace' :=
  List.filterMap_append

variable {maximum : ℕ} {r s t : State ι} {a : Action ι} {before trace : List (Action ι)}

/-- The broker takes a step, or none. -/
theorem Step.broker (hstep : Step maximum s a t) :
    a.transition? = none ∧ t.broker = s.broker ∨
      ∃ e, a.transition? = some ⟨s.broker, e, t.broker⟩ ∧
        StepUpTo maximum s.broker e t.broker := by
  cases hstep with
  | load | idle | stop => exact Or.inl ⟨rfl, rfl⟩
  | other step => exact Or.inr ⟨_, rfl, step⟩
  | take looks step => exact Or.inr ⟨_, rfl, step⟩
  | publish passes step => exact Or.inr ⟨_, rfl, step⟩
  | store passes step => exact Or.inr ⟨_, rfl, step⟩

/-- **The runs of the loop are runs of the broker.** -/
theorem Run.broker (hrun : Run maximum r trace s) :
    RunUpTo maximum r.broker (transitions trace) s.broker := by
  induction hrun with
  | nil => exact .nil
  | @concat trace a t u _ step ih =>
      rw [transitions_append, transitions, transitions, List.filterMap_cons, List.filterMap_nil]
      rcases step.broker with ⟨hnone, hsame⟩ | ⟨e, hsome, hstep⟩
      · rw [hnone, hsame]
        exact (List.append_nil (transitions trace)).symm ▸ ih
      · rw [hsome]
        exact ih.concat hstep

/-- A run goes on with another from where it ended. -/
theorem Run.append {trace' : List (Action ι)} (hrun : Run maximum r trace s)
    (hrun' : Run maximum s trace' t) : Run maximum r (trace ++ trace') t := by
  induction hrun' with
  | nil => rwa [List.append_nil]
  | concat _ step ih =>
      rw [← List.append_assoc]
      exact ih.concat step

/-- Where a thread that does not sleep is while the propagator is in its loop. -/
def Loop.phase : Loop → Sleeper
  | .head => .top
  | .looking | .passing => .working
  | .ended => .ended

/-- **The propagator is a thread that works in passes** and does not sleep. -/
theorem Step.phase (hstep : Step maximum s a t) (requested : Bool) (free : Prop) :
    t.loop.phase = s.loop.phase ∨
      Sleeper.Move false s.keepRunning requested free s.loop.phase t.loop.phase := by
  cases hstep with
  | load atHead =>
      rw [atHead]
      dsimp only
      cases hkeep : s.keepRunning with
      | true => exact Or.inr (.begin rfl)
      | false => exact Or.inr (.quit rfl)
  | idle looks =>
      rw [looks]
      exact Or.inr (.poll rfl)
  | take looks =>
      rw [looks]
      exact Or.inl rfl
  | store passes =>
      rw [passes]
      exact Or.inr (.poll rfl)
  | _ => exact Or.inl rfl

/-! ### How long the propagator goes on -/

/-- The events of callbacks and consumers leave the propagator alone. -/
theorem propagator_of_elsewhere {b b' : Broker.State ι} {e : Event ι}
    (hstep : StepUpTo maximum b e b') (h : propagates e = false) : b'.propagator = b.propagator := by
  cases hstep with
  | enqueue running => rfl
  | other step =>
      cases step with
      | take | publish | store => cases h
      | _ => rfl

/-- **Where the propagator has a packet.** -/
structure InStep (s : State ι) : Prop where
  passing (h : s.loop = .passing) : s.broker.propagator ≠ .polling
  polling (h : s.loop ≠ .passing) : s.broker.propagator = .polling

/-- Every step keeps the loop and the propagator in step. -/
theorem InStep.step (h : InStep s) (hstep : Step maximum s a t) : InStep t := by
  obtain ⟨hpassing, hpolling⟩ := h
  cases hstep with
  | other step elsewhere =>
      have hsame := propagator_of_elsewhere step elsewhere
      exact ⟨fun h => hsame ▸ hpassing h, fun h => hsame ▸ hpolling h⟩
  | load atHead =>
      refine ⟨fun h => ?_, fun _ => hpolling (by rw [atHead]; rintro ⟨⟩)⟩
      dsimp only at h
      split_ifs at h
  | idle looks => exact ⟨by rintro ⟨⟩, fun _ => hpolling (by rw [looks]; rintro ⟨⟩)⟩
  | stop => exact ⟨hpassing, hpolling⟩
  | take looks step =>
      cases step with
      | other step => cases step with
        | take => exact ⟨fun _ => by rintro ⟨⟩, fun h => absurd rfl h⟩
  | publish passes step =>
      cases step with
      | other step => cases step with
        | publish => exact ⟨fun _ => by rintro ⟨⟩, fun h => absurd passes h⟩
  | store passes step =>
      cases step with
      | other step => cases step with
        | store => exact ⟨by rintro ⟨⟩, fun _ => rfl⟩

/-- So does every run. -/
theorem inStep {g : UInt64} (hrun : Run maximum (State.initial g : State ι) trace s) :
    InStep s := by
  induction hrun with
  | nil => exact ⟨by rintro ⟨⟩, fun _ => rfl⟩
  | concat _ step ih => exact ih.step step

/-- A step of the propagator itself. -/
def Action.own : Action ι → Bool
  | .moved transition => propagates transition.event
  | .loaded | .idled => true
  | .stopped => false

/-- The steps that the propagator has left with `mKeepRunning` false. -/
def State.rank (s : State ι) : ℕ :=
  match s.loop, s.broker.propagator with
  | .ended, _ => 0
  | .head, _ => 1
  | .passing, .published _ _ => 2
  | .passing, _ => 3
  | .looking, _ => 4

/-- The propagator never has more than four steps left. -/
theorem State.rank_le (s : State ι) : s.rank ≤ 4 := by
  unfold rank
  split <;> decide

/-- **With the flag false each step of the propagator leaves fewer of them.** -/
theorem Step.rank (hstep : Step maximum s a t) (hkeep : s.keepRunning = false) :
    t.keepRunning = false ∧ t.rank + (if a.own then 1 else 0) ≤ s.rank := by
  cases hstep with
  | other step elsewhere =>
      have hsame := propagator_of_elsewhere step elsewhere
      refine ⟨hkeep, ?_⟩
      rw [Action.own, elsewhere, State.rank, State.rank, hsame]
      exact le_rfl
  | load atHead =>
      refine ⟨hkeep, ?_⟩
      rw [State.rank, State.rank, atHead, hkeep]
      exact le_rfl
  | idle looks =>
      refine ⟨hkeep, ?_⟩
      rw [State.rank, State.rank, looks]
      exact (by decide : 2 ≤ 4)
  | stop => exact ⟨rfl, le_rfl⟩
  | take looks step =>
      refine ⟨hkeep, ?_⟩
      cases step with
      | other step => cases step with
        | take =>
            rw [State.rank, State.rank, looks]
            exact le_rfl
  | publish passes step =>
      refine ⟨hkeep, ?_⟩
      cases step with
      | other step => cases step with
        | publish numbered =>
            rw [State.rank, State.rank, passes, numbered]
            exact le_rfl
  | store passes step =>
      refine ⟨hkeep, ?_⟩
      cases step with
      | other step => cases step with
        | store published =>
            rw [State.rank, State.rank, passes, published]
            exact le_rfl

/-- Once `mKeepRunning` is false each step of the propagator's own uses up one of them. -/
theorem Run.rank (hrun : Run maximum r trace s) (hkeep : r.keepRunning = false) :
    s.keepRunning = false ∧ trace.countP Action.own + s.rank ≤ r.rank := by
  induction hrun with
  | nil => exact ⟨hkeep, (Nat.zero_add _).le⟩
  | concat _ step ih =>
      obtain ⟨hkeep', hrank⟩ := ih
      obtain ⟨hkeep'', hrank'⟩ := step.rank hkeep'
      rw [List.countP_append, List.countP_singleton]
      exact ⟨hkeep'', by omega⟩

/-- The packets that the propagator took in a run. -/
def takenIn (trace : List (Action ι)) : List Packet := taken (events (transitions trace))

/-- What was taken in a run in two parts. -/
theorem takenIn_append (trace trace' : List (Action ι)) :
    takenIn (trace ++ trace') = takenIn trace ++ takenIn trace' := by
  rw [takenIn, transitions_append, events, List.map_append, taken, List.filterMap_append]
  rfl

/-- With the flag false only a propagator that was about to look takes a packet. -/
theorem Step.takenIn (hstep : Step maximum s a t) (hkeep : s.keepRunning = false) :
    (takenIn [a]).length + (if t.loop = .looking then 1 else 0) ≤
      if s.loop = .looking then 1 else 0 := by
  cases hstep with
  | @other e broker step elsewhere =>
      have hnone : Leftovers.takenIn [Action.moved ⟨s.broker, e, broker⟩] = [] := by
        cases e with
        | took => cases elsewhere
        | _ => rfl
      rw [hnone]
      exact (Nat.zero_add _).le
  | load atHead =>
      rw [hkeep, atHead]
      exact le_rfl
  | idle looks => exact Nat.zero_le _
  | stop => exact (Nat.zero_add _).le
  | take looks =>
      rw [looks]
      exact le_rfl
  | publish passes => exact (Nat.zero_add _).le
  | store passes => exact Nat.zero_le _

/-- It takes at most one more packet, and only if it was about to look for one. -/
theorem Run.takenIn (hrun : Run maximum r trace s) (hkeep : r.keepRunning = false) :
    (Leftovers.takenIn trace).length + (if s.loop = .looking then 1 else 0) ≤
      if r.loop = .looking then 1 else 0 := by
  induction hrun with
  | nil => exact (Nat.zero_add _).le
  | concat run step ih =>
      have htaken := step.takenIn (run.rank hkeep).1
      rw [takenIn_append, List.length_append]
      omega

/-- The propagator can take a step, until it has ended. -/
theorem InStep.exists_own (h : InStep s) (hended : s.loop ≠ .ended) :
    ∃ a t, a.own = true ∧ Step maximum s a t := by
  have hother {e : Event ι} {b : Broker.State ι} (step : Broker.Step s.broker e b)
      (hpropagates : propagates e = true) : StepUpTo maximum s.broker e b :=
    .other step (by rintro _ _ rfl; cases hpropagates)
  cases hloop : s.loop with
  | head => exact ⟨_, _, rfl, .load hloop⟩
  | ended => exact absurd hloop hended
  | looking =>
      cases hqueue : s.broker.importQueue with
      | nil => exact ⟨_, _, rfl, .idle hloop hqueue⟩
      | cons packet importQueue =>
          have hpolling := h.polling (by rw [hloop]; rintro ⟨⟩)
          exact ⟨_, _, rfl, .take hloop (hother (.take 0 hpolling hqueue) rfl)⟩
  | passing =>
      cases hpropagator : s.broker.propagator with
      | polling => exact absurd hpropagator (h.passing hloop)
      | numbered now packet => exact ⟨_, _, rfl, .publish hloop (hother (.publish hpropagator) rfl)⟩
      | published now packet => exact ⟨_, _, rfl, .store hloop (hother (.store hpropagator) rfl)⟩

/-- **The propagator ends.**  Once `mKeepRunning` is false it takes at most one packet, and
only if it had loaded the flag before; it takes at most four steps, and has one to take
until it has ended. -/
theorem propagator_ends {g : UInt64} (hbefore : Run maximum (State.initial g) before r)
    (hstopped : r.keepRunning = false) (hrun : Run maximum r trace s) :
    (takenIn trace).length ≤ (if r.loop = .looking then 1 else 0) ∧
      trace.countP Action.own ≤ 4 ∧
      (s.loop = .ended ∨ ∃ a t, a.own = true ∧ Step maximum s a t) := by
  have htaken := hrun.takenIn hstopped
  have hrank := (hrun.rank hstopped).2
  have hle := r.rank_le
  refine ⟨by omega, by omega, ?_⟩
  by_cases hended : s.loop = .ended
  · exact Or.inl hended
  · exact Or.inr ((inStep (hbefore.append hrun)).exists_own hended)

/-- `stop` comes between the load and the look, and so does a packet: it still is taken. -/
theorem propagator_ends_samplePacket : ∃ before trace, ∃ r s : State ℕ,
    Run 1 (State.initial 7) before r ∧ r.keepRunning = false ∧ Run 1 r trace s ∧
      s.loop = .ended ∧ takenIn trace = [samplePacket 8] ∧ trace.countP Action.own ≤ 4 := by
  have hbefore : Run 1 (State.initial 7 : State ℕ) [.loaded, .stopped]
      ⟨Broker.State.initial 7, false, .looking⟩ := (Run.nil.concat (.load rfl)).concat .stop
  have haccepted := (@Run.nil ℕ 1 ⟨Broker.State.initial 7, false, .looking⟩).concat (.other
    (.other (@Broker.Step.accept ℕ _ 0 (samplePacket 0) (by decide) (by decide)) (by rintro _ _ ⟨⟩))
    rfl)
  have hentered := haccepted.concat
    (.other (@StepUpTo.enqueue ℕ 1 _ 0 (samplePacket 0) [] [] rfl) rfl)
  have htaken := hentered.concat (.take rfl (.other (.take 0 rfl rfl) (by rintro _ _ ⟨⟩)))
  have hpublished := htaken.concat (.publish rfl (.other (.publish rfl) (by rintro _ _ ⟨⟩)))
  have hstored := hpublished.concat (.store rfl (.other (.store rfl) (by rintro _ _ ⟨⟩)))
  have hrun := hstored.concat (.load rfl)
  exact ⟨_, _, _, _, hbefore, rfl, hrun, rfl, rfl, (propagator_ends hbefore rfl hrun).2.1⟩

/-! ### What is left -/

/-- A propagator that has ended takes no step. -/
theorem Step.ended (hstep : Step maximum s a t) (h : s.loop = .ended) :
    t.loop = .ended ∧ Leftovers.takenIn [a] = [] := by
  cases hstep with
  | @other e broker step elsewhere =>
      refine ⟨h, ?_⟩
      cases e with
      | took => cases elsewhere
      | _ => rfl
  | load atHead =>
      rw [h] at atHead
      cases atHead
  | idle looks =>
      rw [h] at looks
      cases looks
  | stop => exact ⟨h, rfl⟩
  | take looks =>
      rw [h] at looks
      cases looks
  | publish passes => exact ⟨h, rfl⟩
  | store passes =>
      rw [h] at passes
      cases passes

/-- A propagator that ended takes nothing any more. -/
theorem Run.ended (hrun : Run maximum s trace t) (h : s.loop = .ended) :
    t.loop = .ended ∧ Leftovers.takenIn trace = [] := by
  induction hrun with
  | nil => exact ⟨h, rfl⟩
  | concat _ step ih =>
      obtain ⟨hended, hnone⟩ := ih
      obtain ⟨hended', hnone'⟩ := step.ended hended
      rw [takenIn_append, hnone, hnone']
      exact ⟨hended', rfl⟩

/-- **What the propagator leaves behind.**  When it has ended, all that it took left both
outbound queues or is in them.  Each packet that is in the import queue then, or enters it
later, is dropped by an overflow or stays there. -/
theorem stranded {g : UInt64} (hrun : Run maximum (State.initial g : State ι) trace s)
    (hended : s.loop = .ended) :
    takenIn trace = (publishFates (transitions trace)).map Prod.snd ++ s.broker.publishQueue ∧
    takenIn trace = ((storeFates (transitions trace)).map Prod.snd ++
      s.broker.dataPacketStoreQueue).map Prod.snd ∧
    ∀ later t, Run maximum s later t → takenIn later = [] ∧
      s.broker.importQueue ++ (entries (events (transitions later))).map Prod.snd =
        leftAs .lost (importFates maximum (transitions later)) ++ t.broker.importQueue := by
  have hpolling := (inStep hrun).polling (by rw [hended]; rintro ⟨⟩)
  obtain ⟨⟨_, rfl, hpublished⟩, _, rfl, hstored⟩ := outboundFlow_run hrun.broker
  rw [hpolling] at hpublished hstored
  refine ⟨hpublished.trans (List.append_nil _), hstored.trans (List.append_nil _),
    fun later t hlater => ?_⟩
  have hnone := (hlater.ended hended).2
  have hflow := importFlow_run hrun.broker
  have hflow' := importFlow_run (hrun.append hlater).broker
  have hfates : importFates maximum (transitions (trace ++ later)) =
      importFates maximum (transitions trace) ++ importFates maximum (transitions later) := by
    rw [transitions_append, importFates, List.flatMap_append]
    rfl
  have hdelivered : leftAs .delivered (importFates maximum (transitions later)) = [] := by
    have htaken := congrArg List.length hflow'.numbered
    have hbefore := congrArg List.length hflow.numbered
    have hlength := congrArg List.length (takenIn_append trace later)
    rw [List.length_mapIdx] at htaken hbefore
    rw [hfates, leftAs_append, List.length_append] at htaken
    rw [hnone, List.append_nil, takenIn, takenIn] at hlength
    exact List.eq_nil_of_length_eq_zero (by omega)
  refine ⟨hnone, ?_⟩
  have hentered := hflow'.passage
  have hentries : entries (events (transitions (trace ++ later))) =
      entries (events (transitions trace)) ++ entries (events (transitions later)) := by
    rw [transitions_append, events, List.map_append, entries, List.filterMap_append]
    rfl
  rw [Passage, hfates, hentries, List.map_append, List.map_append, hflow.passage,
    List.append_assoc, List.append_assoc, List.append_cancel_left_eq] at hentered
  rw [hentered, map_snd_of_delivered_nil hdelivered]

/-- A call that begins after the propagator has ended gets its packet into the import queue,
and returns. -/
theorem stranded_samplePacket : ∃ trace later, ∃ s t : State ℕ,
    Run 1 (State.initial 7) trace s ∧ s.loop = .ended ∧ Run 1 s later t ∧ t.broker.calls = [] ∧
      (entries (events (transitions later))).map Prod.snd = [samplePacket 0] ∧
      takenIn later = [] ∧ t.broker.importQueue = [samplePacket 0] := by
  have hrun : Run 1 (State.initial 7 : State ℕ) [.stopped, .loaded]
      ⟨Broker.State.initial 7, false, .ended⟩ := (Run.nil.concat .stop).concat (.load rfl)
  have haccepted := (@Run.nil ℕ 1 ⟨Broker.State.initial 7, false, .ended⟩).concat (.other
    (.other (@Broker.Step.accept ℕ _ 0 (samplePacket 0) (by decide) (by decide)) (by rintro _ _ ⟨⟩))
    rfl)
  have hentered := haccepted.concat
    (.other (@StepUpTo.enqueue ℕ 1 _ 0 (samplePacket 0) [] [] rfl) rfl)
  have hlater := hentered.concat
    (.other (.other (@Broker.Step.complete ℕ _ 0 0 [] [] rfl) (by rintro _ _ ⟨⟩)) rfl)
  exact ⟨_, _, _, _, hrun, rfl, hlater, rfl, rfl, ((stranded hrun rfl).2.2 _ _ hlater).1, rfl⟩

end Leftovers
end Broker
end UDataPacketBroker
