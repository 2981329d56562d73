/-
# What becomes of a packet

A packet that enters the broker goes through two queues: the import queue, and after it
was numbered the queue of each consumer.  Either can lose it to an overflow.  Each packet
that left a queue was delivered, to the propagator or to a consumer, or lost, and with
these fates all packets are accounted for over every interleaving (`packets_conserved`):
none is duplicated, none is invented, and none goes missing unaccounted for.

The fates of an outbound queue are numbered without a gap, so a number that a consumer is
not given is that of a packet lost or still queued (`outbound_numbers`).  Nothing is lost
exactly as long as every push finds room (`nothing_lost_iff`).
-/

import UDataPacketBroker.Broker.Accounting
import UDataPacketBroker.Broker.QueueBounds
import UDataPacketBroker.Library.LossyQueue

namespace UDataPacketBroker
namespace Broker

open Library Utilities

variable {ι : Type}

/-! ### What left the queues -/

/-- What a step takes off the import queue. -/
def importFate (maximum : ℕ) (step : Transition ι) : List (Fate × Packet) :=
  match step.event with
  | .entered _ packet => leave .lost
      (enqueueImportUpTo maximum step.before.importQueue packet).2 step.before.importQueue
  | .took _ => leave .delivered 1 step.before.importQueue
  | _ => []

/-- What a step takes off the publish queue. -/
def publishFate (step : Transition ι) : List (Fate × Packet) :=
  match step.event with
  | .publishPushed => leave .lost
      (popWhileFull maximumPublishQueueStoreSize step.before.publishQueue).2 step.before.publishQueue
  | .publishPopped => leave .delivered 1 step.before.publishQueue
  | _ => []

/-- What a step takes off the data store queue. -/
def storeFate (step : Transition ι) : List (Fate × (Int64 × Packet)) :=
  match step.event with
  | .dataStorePushed => leave .lost
      (popWhileFull maximumDataStoreQueueSize step.before.dataPacketStoreQueue).2
      step.before.dataPacketStoreQueue
  | .dataStorePopped => leave .delivered 1 step.before.dataPacketStoreQueue
  | _ => []

/-- The packets that left the import queue, and how. -/
def importFates (maximum : ℕ) (steps : List (Transition ι)) : List (Fate × Packet) :=
  steps.flatMap (importFate maximum)

/-- The packets that left the publish queue, and how. -/
def publishFates (steps : List (Transition ι)) : List (Fate × Packet) := steps.flatMap publishFate

/-- The packets that left the data store queue, and how. -/
def storeFates (steps : List (Transition ι)) : List (Fate × (Int64 × Packet)) :=
  steps.flatMap storeFate

/-- What one more step takes off the import queue comes last. -/
@[simp] theorem importFates_concat (maximum : ℕ) (steps : List (Transition ι))
    (step : Transition ι) :
    importFates maximum (steps ++ [step]) = importFates maximum steps ++ importFate maximum step := by
  rw [importFates, List.flatMap_append, List.flatMap_singleton]
  rfl

/-- So for the publish queue. -/
@[simp] theorem publishFates_concat (steps : List (Transition ι)) (step : Transition ι) :
    publishFates (steps ++ [step]) = publishFates steps ++ publishFate step := by
  rw [publishFates, List.flatMap_append, List.flatMap_singleton]
  rfl

/-- So for the data store queue. -/
@[simp] theorem storeFates_concat (steps : List (Transition ι)) (step : Transition ι) :
    storeFates (steps ++ [step]) = storeFates steps ++ storeFate step := by
  rw [storeFates, List.flatMap_append, List.flatMap_singleton]
  rfl

/-- The events of a run. -/
def events (steps : List (Transition ι)) : List (Event ι) := steps.map Transition.event

/-- The events of a run with one more step. -/
@[simp] theorem events_concat (steps : List (Transition ι)) (step : Transition ι) :
    events (steps ++ [step]) = events steps ++ [step.event] := List.map_append

/-- Most events take nothing. -/
theorem taken_concat_of_nil {trace : List (Event ι)} {e : Event ι} (h : taken [e] = []) :
    taken (trace ++ [e]) = taken trace := by
  rw [taken_concat, h, List.append_nil]

/-- What is popped goes off the front, and the packet to the back. -/
theorem enqueueImportUpTo_fst (maximum : ℕ) (importQueue : List Packet) (packet : Packet) :
    (enqueueImportUpTo maximum importQueue packet).1 =
      importQueue.drop (enqueueImportUpTo maximum importQueue packet).2 ++ [packet] := by
  unfold enqueueImportUpTo
  split_ifs
  · exact congrArg (· ++ [packet]) (popWhileFull_fst maximum importQueue)
  · rfl

/-- Only what is there is popped. -/
theorem enqueueImportUpTo_snd_le (maximum : ℕ) (importQueue : List Packet) (packet : Packet) :
    (enqueueImportUpTo maximum importQueue packet).2 ≤ importQueue.length := by
  unfold enqueueImportUpTo
  split_ifs
  · exact Nat.le.intro ((Nat.add_comm _ _).trans (length_popWhileFull maximum importQueue))
  · exact Nat.zero_le _

/-! ### Every packet is accounted for -/

/-- **The account of the import queue** after a run. -/
structure ImportFlow (maximum : ℕ) (g : UInt64) (steps : List (Transition ι)) (s : State ι) :
    Prop where
  passage : Passage ((entries (events steps)).map Prod.snd) (importFates maximum steps)
    s.importQueue
  numbered : taken (events steps) =
    (leftAs .delivered (importFates maximum steps)).mapIdx (numbered g)
  global : s.globalSequenceNumber = g + UInt64.ofNat (taken (events steps)).length
  popped : Int64.ofNat (leftAs .lost (importFates maximum steps)).length =
    s.metrics.numberOfPacketsPoppedFromImportQueue +
      Int64.ofNat (sumCalls CallPhase.popped s.calls)

/-- A new broker has an import queue to which nothing happened. -/
theorem importFlow_initial (maximum : ℕ) (g : UInt64) :
    ImportFlow maximum g [] (State.initial g : State ι) :=
  ⟨Passage.nil, rfl, (UInt64.add_zero g).symm, rfl⟩

/-- A step that leaves the import queue alone. -/
theorem ImportFlow.of_eq {maximum : ℕ} {g : UInt64} {steps : List (Transition ι)} {s t : State ι}
    {e : Event ι} (h : ImportFlow maximum g steps s) (hfate : importFate maximum ⟨s, e, t⟩ = [])
    (hentries : entries [e] = []) (htaken : taken [e] = [])
    (hqueue : t.importQueue = s.importQueue)
    (hglobal : t.globalSequenceNumber = s.globalSequenceNumber)
    (hpopped : t.metrics.numberOfPacketsPoppedFromImportQueue +
        Int64.ofNat (sumCalls CallPhase.popped t.calls) =
      s.metrics.numberOfPacketsPoppedFromImportQueue +
        Int64.ofNat (sumCalls CallPhase.popped s.calls)) :
    ImportFlow maximum g (steps ++ [⟨s, e, t⟩]) t := by
  obtain ⟨passage, hnumbered, global, popped⟩ := h
  constructor
  · rw [events_concat, entries_concat, hentries, importFates_concat, hfate, hqueue,
      List.append_nil, List.append_nil]
    exact passage
  · rw [events_concat, taken_concat_of_nil htaken, importFates_concat, hfate, List.append_nil,
      hnumbered]
  · rw [events_concat, taken_concat_of_nil htaken, hglobal, global]
  · rw [importFates_concat, hfate, List.append_nil, popped, hpopped]

/-- **Every step keeps the account of the import queue.** -/
theorem ImportFlow.step {maximum : ℕ} {g : UInt64} {steps : List (Transition ι)} {s t : State ι}
    {e : Event ι} (h : ImportFlow maximum g steps s) (hstep : StepUpTo maximum s e t) :
    ImportFlow maximum g (steps ++ [⟨s, e, t⟩]) t := by
  cases hstep with
  | @enqueue publisher packet before after running =>
      obtain ⟨passage, hnumbered, global, popped⟩ := h
      set n := (enqueueImportUpTo maximum s.importQueue packet).2 with hn
      have hfate : importFates maximum (steps ++ [⟨s, .entered publisher packet,
          { s with
            importQueue := (enqueueImportUpTo maximum s.importQueue packet).1
            calls := before ++ (publisher, .enqueued n) :: after }⟩]) =
          importFates maximum steps ++ leave .lost n s.importQueue := importFates_concat _ _ _
      have htaken : taken (events steps ++ [.entered publisher packet]) = taken (events steps) :=
        taken_concat_of_nil rfl
      constructor
      · rw [events_concat, entries_concat, List.map_append, hfate]
        dsimp only
        rw [enqueueImportUpTo_fst]
        exact (passage.leave .lost n).push packet
      · rw [events_concat, htaken, hfate, leftAs_append, leftAs_leave_of_ne (by decide),
          List.append_nil, hnumbered]
      · rw [events_concat, htaken]
        exact global
      · have hcalls : sumCalls CallPhase.popped (before ++ (publisher, .enqueued n) :: after) =
            sumCalls CallPhase.popped s.calls + n := by
          simp only [running, sumCalls_append, sumCalls_cons, CallPhase.popped]
          omega
        rw [hfate, leftAs_append, leftAs_leave_self, List.length_append, Int64.ofNat_add, popped,
          List.length_take,
          Nat.min_eq_left (enqueueImportUpTo_snd_le maximum s.importQueue packet), hcalls,
          Int64.ofNat_add, Int64.add_assoc]
  | other step notEntered =>
      cases step with
      | enqueue => exact absurd rfl (notEntered _ _)
      | reject idle invalid =>
          refine h.of_eq rfl rfl rfl rfl rfl ?_
          rw [(receivePacket_error invalid).2]
          rfl
      | accept idle valid =>
          refine h.of_eq rfl rfl rfl rfl rfl ?_
          rw [(receivePacket_ok valid).2, sumCalls_append]
          rfl
      | @complete publisher nPopped before after running =>
          refine h.of_eq rfl rfl rfl rfl rfl ?_
          have hcalls : sumCalls CallPhase.popped s.calls =
              nPopped + sumCalls CallPhase.popped (before ++ after) := by
            simp only [running, sumCalls_append, sumCalls_cons, CallPhase.popped]
            omega
          rw [updateMetrics_eq, Metrics.incrementNumberOfPacketsPoppedFromImportQueue_natCast, hcalls,
            Int64.ofNat_add, ← Int64.add_assoc]
          rfl
      | publish => exact h.of_eq rfl rfl rfl rfl rfl rfl
      | store => exact h.of_eq rfl rfl rfl rfl rfl rfl
      | popPublish => exact h.of_eq rfl rfl rfl rfl rfl rfl
      | popDataStore => exact h.of_eq rfl rfl rfl rfl rfl rfl
      | @take packet importQueue now polling front =>
          obtain ⟨passage, hnumbered, global, popped⟩ := h
          set number := packet.setSequenceNumber (s.globalSequenceNumber + 1) with hnumber
          have hfates (t : State ι) : importFates maximum (steps ++ [⟨s, .took number, t⟩]) =
              importFates maximum steps ++ leave .delivered 1 s.importQueue :=
            importFates_concat _ _ _
          have htaken : taken (events steps ++ [.took number]) = taken (events steps) ++ [number] :=
            taken_concat _ _
          have hlength : (taken (events steps)).length =
              (leftAs .delivered (importFates maximum steps)).length := by
            rw [hnumbered, List.length_mapIdx]
          have hnext : s.globalSequenceNumber + 1 =
              g + 1 + UInt64.ofNat (leftAs .delivered (importFates maximum steps)).length := by
            rw [global, hlength, UInt64.add_assoc, UInt64.add_comm _ 1, ← UInt64.add_assoc]
          constructor
          · rw [events_concat, entries_concat, hfates]
            have hleft := passage.leave .delivered 1
            rw [front] at hleft ⊢
            simpa [entries] using hleft
          · rw [events_concat, htaken, hfates, leftAs_append, leftAs_leave_self, front,
              List.take_succ_cons, List.take_zero, List.mapIdx_concat, hnumbered, hnumber, hnext]
            rfl
          · rw [events_concat, htaken, List.length_append, List.length_singleton, hlength,
              UInt64.ofNat_add]
            dsimp only
            rw [hnext, UInt64.add_assoc, UInt64.add_comm 1]
            rfl
          · rw [hfates, leftAs_append, leftAs_leave_of_ne (by decide), List.append_nil]
            exact popped

/-- So the account of the import queue holds on every run. -/
theorem importFlow_run {maximum : ℕ} {g : UInt64} {steps : List (Transition ι)} {s : State ι}
    (hrun : RunUpTo maximum (State.initial g) steps s) : ImportFlow maximum g steps s := by
  induction hrun with
  | nil => exact importFlow_initial maximum g
  | concat _ hstep ih => exact ih.step hstep

/-- **The accounts of the outbound queues** after a run: what was pushed is what was taken,
except the packet in flight. -/
structure OutboundFlow (steps : List (Transition ι)) (s : State ι) : Prop where
  published : ∃ pushed, Passage pushed (publishFates steps) s.publishQueue ∧
    taken (events steps) = pushed ++ s.propagator.toPublish
  stored : ∃ pushed, Passage pushed (storeFates steps) s.dataPacketStoreQueue ∧
    taken (events steps) = pushed.map Prod.snd ++ s.propagator.toStore

/-- A new broker has outbound queues to which nothing happened. -/
theorem outboundFlow_initial (g : UInt64) : OutboundFlow [] (State.initial g : State ι) :=
  ⟨⟨[], Passage.nil, rfl⟩, ⟨[], Passage.nil, rfl⟩⟩

/-- A step of the import side that takes nothing. -/
theorem OutboundFlow.of_eq {steps : List (Transition ι)} {s t : State ι} {e : Event ι}
    (h : OutboundFlow steps s) (hpublishFate : publishFate ⟨s, e, t⟩ = [])
    (hstoreFate : storeFate ⟨s, e, t⟩ = []) (htaken : taken [e] = [])
    (hpublish : t.publishQueue = s.publishQueue)
    (hstore : t.dataPacketStoreQueue = s.dataPacketStoreQueue)
    (hpropagator : t.propagator = s.propagator) : OutboundFlow (steps ++ [⟨s, e, t⟩]) t := by
  have htaken' : taken (events (steps ++ [⟨s, e, t⟩])) = taken (events steps) := by
    rw [events_concat, taken_concat_of_nil htaken]
  constructor
  · rw [publishFates_concat, hpublishFate, List.append_nil, htaken', hpublish, hpropagator]
    exact h.published
  · rw [storeFates_concat, hstoreFate, List.append_nil, htaken', hstore, hpropagator]
    exact h.stored

/-- **Every step keeps the accounts of the outbound queues.** -/
theorem OutboundFlow.step {maximum : ℕ} {steps : List (Transition ι)} {s t : State ι} {e : Event ι}
    (h : OutboundFlow steps s) (hstep : StepUpTo maximum s e t) :
    OutboundFlow (steps ++ [⟨s, e, t⟩]) t := by
  cases hstep with
  | enqueue running => exact h.of_eq rfl rfl rfl rfl rfl rfl
  | other step notEntered =>
      cases step with
      | enqueue => exact absurd rfl (notEntered _ _)
      | reject => exact h.of_eq rfl rfl rfl rfl rfl rfl
      | accept => exact h.of_eq rfl rfl rfl rfl rfl rfl
      | complete => exact h.of_eq rfl rfl rfl rfl rfl rfl
      | @take packet importQueue now polling front =>
          obtain ⟨⟨published, hpublish, hpublished⟩, stored, hstore, hstored⟩ := h
          rw [polling] at hpublished hstored
          refine ⟨⟨published, ?_, ?_⟩, stored, ?_, ?_⟩
          · rw [publishFates_concat]
            exact (List.append_nil (publishFates steps)).symm ▸ hpublish
          · rw [events_concat, taken_concat, hpublished]
            exact congrArg (· ++ _) (List.append_nil published)
          · rw [storeFates_concat]
            exact (List.append_nil (storeFates steps)).symm ▸ hstore
          · rw [events_concat, taken_concat, hstored]
            exact congrArg (· ++ _) (List.append_nil (stored.map Prod.snd))
      | @publish now packet numbered =>
          obtain ⟨⟨pushed, hpublish, hpublished⟩, hstored⟩ := h
          rw [numbered] at hpublished hstored
          have htaken : taken (events steps ++ [.publishPushed]) = taken (events steps) :=
            taken_concat_of_nil rfl
          refine ⟨⟨pushed ++ [packet], ?_, ?_⟩, ?_⟩
          · rw [publishFates_concat]
            dsimp only
            rw [pushPublish, popWhileFull_fst]
            exact (hpublish.leave .lost _).push packet
          · rw [events_concat, htaken, hpublished]
            exact (List.append_nil _).symm
          · rw [events_concat, htaken, storeFates_concat]
            exact (List.append_nil (storeFates steps)).symm ▸ hstored
      | @store now packet published =>
          obtain ⟨hpublished, pushed, hstore, hstored⟩ := h
          rw [published] at hpublished hstored
          have htaken : taken (events steps ++ [.dataStorePushed]) = taken (events steps) :=
            taken_concat_of_nil rfl
          refine ⟨?_, pushed ++ [(now, packet)], ?_, ?_⟩
          · rw [events_concat, htaken, publishFates_concat]
            exact (List.append_nil (publishFates steps)).symm ▸ hpublished
          · rw [storeFates_concat]
            dsimp only
            rw [pushDataStore, popWhileFull_fst]
            exact (hstore.leave .lost _).push (now, packet)
          · rw [events_concat, htaken, hstored, List.map_append]
            exact (List.append_nil _).symm
      | popPublish front =>
          obtain ⟨⟨pushed, hpublish, hpublished⟩, hstored⟩ := h
          have htaken : taken (events steps ++ [.publishPopped]) = taken (events steps) :=
            taken_concat_of_nil rfl
          refine ⟨⟨pushed, ?_, ?_⟩, ?_⟩
          · have hleft := hpublish.leave .delivered 1
            rw [publishFates_concat, publishFate]
            dsimp only
            rwa [front] at hleft ⊢
          · rw [events_concat, htaken]
            exact hpublished
          · rw [events_concat, htaken, storeFates_concat]
            exact (List.append_nil (storeFates steps)).symm ▸ hstored
      | popDataStore front =>
          obtain ⟨hpublished, pushed, hstore, hstored⟩ := h
          have htaken : taken (events steps ++ [.dataStorePopped]) = taken (events steps) :=
            taken_concat_of_nil rfl
          refine ⟨?_, pushed, ?_, ?_⟩
          · rw [events_concat, htaken, publishFates_concat]
            exact (List.append_nil (publishFates steps)).symm ▸ hpublished
          · have hleft := hstore.leave .delivered 1
            rw [storeFates_concat, storeFate]
            dsimp only
            rwa [front] at hleft ⊢
          · rw [events_concat, htaken]
            exact hstored

/-- So the accounts of the outbound queues hold on every run. -/
theorem outboundFlow_run {maximum : ℕ} {g : UInt64} {steps : List (Transition ι)} {s : State ι}
    (hrun : RunUpTo maximum (State.initial g) steps s) : OutboundFlow steps s := by
  induction hrun with
  | nil => exact outboundFlow_initial g
  | concat _ hstep ih => exact ih.step hstep

/-- **Every packet is accounted for,** over every interleaving and with every import
maximum.  What entered the import queue left it or is there; what was delivered from it was
taken, in order and under consecutive numbers; what was taken left either outbound queue, is
there, or is in flight.  The counter of popped packets counts those that the import queue
lost, once the calls that popped them are done. -/
theorem packets_conserved {maximum : ℕ} {g : UInt64} {steps : List (Transition ι)} {s : State ι}
    (hrun : RunUpTo maximum (State.initial g) steps s) :
    (entries (events steps)).map Prod.snd =
      (importFates maximum steps).map Prod.snd ++ s.importQueue ∧
    taken (events steps) = (leftAs .delivered (importFates maximum steps)).mapIdx (numbered g) ∧
    taken (events steps) =
      (publishFates steps).map Prod.snd ++ s.publishQueue ++ s.propagator.toPublish ∧
    taken (events steps) = ((storeFates steps).map Prod.snd ++ s.dataPacketStoreQueue).map Prod.snd ++
      s.propagator.toStore ∧
    Int64.ofNat (leftAs .lost (importFates maximum steps)).length =
      s.metrics.numberOfPacketsPoppedFromImportQueue +
        Int64.ofNat (sumCalls CallPhase.popped s.calls) := by
  obtain ⟨passage, hnumbered, -, popped⟩ := importFlow_run hrun
  obtain ⟨⟨published, hpublish, hpublished⟩, stored, hstore, hstored⟩ := outboundFlow_run hrun
  exact ⟨passage, hnumbered, hpublish ▸ hpublished, hstore ▸ hstored, popped⟩

/-- Two publishers send two packets each, to an import queue for one.  The first that enters
is numbered and taken by a consumer of the publish queue; the next two overflow; the last
one is numbered and taken. -/
theorem exists_delivered : ∃ steps, ∃ s : State ℕ, RunUpTo 1 (State.initial 7) steps s ∧
    entries (events steps) = [(1, samplePacket 2), (0, samplePacket 1), (0, samplePacket 3),
      (1, samplePacket 4)] ∧
    importFates 1 steps = [(.delivered, samplePacket 2), (.lost, samplePacket 1),
      (.lost, samplePacket 3), (.delivered, samplePacket 4)] ∧
    publishFates steps = [(.delivered, samplePacket 8), (.delivered, samplePacket 9)] ∧
    taken (events steps) = [samplePacket 8, samplePacket 9] ∧ s.importQueue = [] ∧
    s.publishQueue = [] ∧ s.propagator = .polling := by
  have hstart : RunUpTo 1 (State.initial 7 : State ℕ) [] _ := RunUpTo.nil
  have haccepted := (hstart.concat
    (.other (@Step.accept ℕ _ 0 (samplePacket 1) (by decide) (by decide)) (by rintro _ _ ⟨⟩))).concat
    (.other (@Step.accept ℕ _ 1 (samplePacket 2) (by decide) (by decide)) (by rintro _ _ ⟨⟩))
  have hentered := (haccepted.concat
    (@StepUpTo.enqueue ℕ 1 _ 1 (samplePacket 2) [(0, .validated (samplePacket 1))] [] rfl)).concat
    (@StepUpTo.enqueue ℕ 1 _ 0 (samplePacket 1) [] [(1, .enqueued 0)] rfl)
  have hdelivered := (((hentered.concat (.other (Step.take 5 rfl rfl) (by rintro _ _ ⟨⟩))).concat
    (.other (Step.publish rfl) (by rintro _ _ ⟨⟩))).concat
    (.other (Step.popPublish rfl) (by rintro _ _ ⟨⟩))).concat
    (.other (Step.store rfl) (by rintro _ _ ⟨⟩))
  have hcompleted := (hdelivered.concat
    (.other (@Step.complete ℕ _ 0 0 [] [(1, .enqueued 0)] rfl) (by rintro _ _ ⟨⟩))).concat
    (.other (@Step.complete ℕ _ 1 0 [] [] rfl) (by rintro _ _ ⟨⟩))
  have haccepted' := (hcompleted.concat
    (.other (@Step.accept ℕ _ 0 (samplePacket 3) (by decide) (by decide)) (by rintro _ _ ⟨⟩))).concat
    (.other (@Step.accept ℕ _ 1 (samplePacket 4) (by decide) (by decide)) (by rintro _ _ ⟨⟩))
  have hentered' := (haccepted'.concat
    (@StepUpTo.enqueue ℕ 1 _ 0 (samplePacket 3) [] [(1, .validated (samplePacket 4))] rfl)).concat
    (@StepUpTo.enqueue ℕ 1 _ 1 (samplePacket 4) [(0, .enqueued 0)] [] rfl)
  have hrun := (((hentered'.concat (.other (Step.take 6 rfl rfl) (by rintro _ _ ⟨⟩))).concat
    (.other (Step.publish rfl) (by rintro _ _ ⟨⟩))).concat
    (.other (Step.popPublish rfl) (by rintro _ _ ⟨⟩))).concat
    (.other (Step.store rfl) (by rintro _ _ ⟨⟩))
  exact ⟨_, _, hrun, rfl, rfl, rfl, rfl, rfl, rfl, rfl⟩

/-- The four packets are accounted for, and the two lost are still to be counted by the call
that popped them. -/
theorem packets_conserved_samplePacket : ∃ steps, ∃ s : State ℕ,
    RunUpTo 1 (State.initial 7) steps s ∧
    (entries (events steps)).map Prod.snd =
      [samplePacket 2, samplePacket 1, samplePacket 3, samplePacket 4] ++ s.importQueue ∧
    s.metrics.numberOfPacketsPoppedFromImportQueue +
      Int64.ofNat (sumCalls CallPhase.popped s.calls) = 2 := by
  obtain ⟨steps, s, hrun, -, himport, -⟩ := exists_delivered
  obtain ⟨hentered, -, -, -, hpopped⟩ := packets_conserved hrun
  rw [himport] at hentered hpopped
  exact ⟨steps, s, hrun, hentered, hpopped.symm⟩

/-! ### What the consumers are given -/

/-- The numbers that `numbered` gives. -/
theorem sequenceNumbers_mapIdx_numbered {g : UInt64} (l : List Packet)
    (hwrap : g.toNat + l.length < 2 ^ 64) :
    sequenceNumbers (l.mapIdx (numbered g)) = List.range' (g.toNat + 1) l.length := by
  refine List.ext_getElem (by simp [sequenceNumbers]) fun n hn hn' => ?_
  rw [sequenceNumbers, List.length_map, List.length_mapIdx] at hn
  simp only [sequenceNumbers, List.getElem_map, List.getElem_mapIdx, List.getElem_range', one_mul]
  exact toNat_numbered _ (by omega)

/-- What comes first of consecutive numbers is consecutive, and any part increases. -/
theorem sequenceNumbers_of_append {first : ℕ} {fates : List (Fate × Packet)} {rest : List Packet}
    (h : sequenceNumbers (fates.map Prod.snd ++ rest) =
      List.range' first (fates.map Prod.snd ++ rest).length) :
    sequenceNumbers (fates.map Prod.snd) = List.range' first fates.length ∧
      (sequenceNumbers (leftAs .delivered fates)).Pairwise (· < ·) := by
  have hfront : sequenceNumbers (fates.map Prod.snd) = List.range' first fates.length := by
    have htake := congrArg (List.take fates.length) h
    rw [sequenceNumbers, List.map_append, List.length_append, List.length_map,
      ← List.range'_append_1] at htake
    rwa [List.take_left' (by simp), List.take_left' (by simp)] at htake
  refine ⟨hfront, ?_⟩
  have hsorted : (sequenceNumbers (fates.map Prod.snd)).Pairwise (· < ·) := by
    rw [hfront]
    exact List.pairwise_lt_range'
  exact hsorted.sublist ((leftAs_sublist .delivered fates).map _)

/-- **The outbound queues are numbered without a gap.**  As long as the counter does not
wrap, the packets that left either of them carry `g + 1`, `g + 2`, …, so that a number that
was not delivered was lost; and each consumer is given packets in increasing order, none
twice. -/
theorem outbound_numbers {maximum : ℕ} {g : UInt64} {steps : List (Transition ι)} {s : State ι}
    (hrun : RunUpTo maximum (State.initial g) steps s)
    (hwrap : g.toNat + (taken (events steps)).length < 2 ^ 64) :
    (sequenceNumbers ((publishFates steps).map Prod.snd) =
        List.range' (g.toNat + 1) (publishFates steps).length ∧
      (sequenceNumbers (leftAs .delivered (publishFates steps))).Pairwise (· < ·)) ∧
    sequenceNumbers ((storeFates steps).map fun e => e.2.2) =
        List.range' (g.toNat + 1) (storeFates steps).length ∧
      (sequenceNumbers ((leftAs .delivered (storeFates steps)).map Prod.snd)).Pairwise (· < ·) := by
  have hnumbered := (importFlow_run hrun).numbered
  obtain ⟨⟨_, rfl, hpublished⟩, _, rfl, hstored⟩ := outboundFlow_run hrun
  have hnumbers : sequenceNumbers (taken (events steps)) =
      List.range' (g.toNat + 1) (taken (events steps)).length := by
    rw [hnumbered, List.length_mapIdx] at hwrap ⊢
    exact sequenceNumbers_mapIdx_numbered _ hwrap
  constructor
  · rw [hpublished, List.append_assoc] at hnumbers
    exact sequenceNumbers_of_append hnumbers
  · have hpackets : ((storeFates steps).map fun e => (e.1, e.2.2)).map Prod.snd =
        (storeFates steps).map fun e => e.2.2 := List.map_map
    have hfront : (storeFates steps).map (Prod.snd ∘ Prod.snd) =
        (storeFates steps).map fun e => e.2.2 := rfl
    rw [hstored, List.map_append, List.map_map, List.append_assoc, hfront, ← hpackets] at hnumbers
    rw [← hpackets, ← leftAs_map,
      ← List.length_map (f := fun e : Fate × Int64 × Packet => (e.1, e.2.2))]
    exact sequenceNumbers_of_append hnumbers

/-- The two packets of the publish queue are numbered one after the other. -/
theorem outbound_numbers_samplePacket : ∃ steps, ∃ s : State ℕ,
    RunUpTo 1 (State.initial 7) steps s ∧
    publishFates steps = [(.delivered, samplePacket 8), (.delivered, samplePacket 9)] ∧
    sequenceNumbers ((publishFates steps).map Prod.snd) =
      List.range' 8 (publishFates steps).length := by
  obtain ⟨steps, s, hrun, -, -, hfates, htaken, -⟩ := exists_delivered
  exact ⟨steps, s, hrun, hfates, (outbound_numbers hrun (by rw [htaken]; decide)).1.1⟩

/-- A step loses packets of the import queue that is past its maximum. -/
theorem lost_importFate_iff {maximum : ℕ} (h : 0 < maximum) (step : Transition ι) :
    leftAs .lost (importFate maximum step) = [] ↔
      ∀ publisher packet, step.event = .entered publisher packet →
        step.before.importQueue.length ≤ maximum := by
  obtain ⟨before, event, after⟩ := step
  cases event with
  | entered publisher packet =>
      have hlost : before.importQueue.take
            (enqueueImportUpTo maximum before.importQueue packet).2 = [] ↔
          before.importQueue.length ≤ maximum := by
        unfold enqueueImportUpTo
        split_ifs with hover
        · exact (take_popWhileFull_eq_nil_iff h _).trans (by omega)
        · exact iff_of_true rfl (not_lt.1 hover)
      rw [importFate, leftAs_leave_self, hlost]
      exact ⟨fun hle _ _ _ => hle, fun hle => hle publisher packet rfl⟩
  | took packet =>
      rw [importFate, leftAs_leave_of_ne (by decide)]
      exact iff_of_true rfl (by rintro _ _ ⟨⟩)
  | _ => exact iff_of_true rfl (by rintro _ _ ⟨⟩)

/-- A step loses packets of a full publish queue. -/
theorem lost_publishFate_iff (step : Transition ι) :
    leftAs .lost (publishFate step) = [] ↔ (step.event = .publishPushed →
      step.before.publishQueue.length < maximumPublishQueueStoreSize) := by
  obtain ⟨before, event, after⟩ := step
  cases event with
  | publishPushed =>
      rw [publishFate, leftAs_leave_self, take_popWhileFull_eq_nil_iff (by decide)]
      exact ⟨fun hlt _ => hlt, fun hlt => hlt rfl⟩
  | publishPopped =>
      rw [publishFate, leftAs_leave_of_ne (by decide)]
      exact iff_of_true rfl (by rintro ⟨⟩)
  | _ => exact iff_of_true rfl (by rintro ⟨⟩)

/-- A step loses packets of a full data store queue. -/
theorem lost_storeFate_iff (step : Transition ι) :
    leftAs .lost (storeFate step) = [] ↔ (step.event = .dataStorePushed →
      step.before.dataPacketStoreQueue.length < maximumDataStoreQueueSize) := by
  obtain ⟨before, event, after⟩ := step
  cases event with
  | dataStorePushed =>
      rw [storeFate, leftAs_leave_self, take_popWhileFull_eq_nil_iff (by decide)]
      exact ⟨fun hlt _ => hlt, fun hlt => hlt rfl⟩
  | dataStorePopped =>
      rw [storeFate, leftAs_leave_of_ne (by decide)]
      exact iff_of_true rfl (by rintro ⟨⟩)
  | _ => exact iff_of_true rfl (by rintro ⟨⟩)

/-- **Nothing is lost exactly as long as there is room.**  Of each queue, what was delivered
and what still waits is all that entered it, if and only if no push found it full; for
the import queue that means past its maximum. -/
theorem nothing_lost_iff {maximum : ℕ} (h : 0 < maximum) {g : UInt64} {steps : List (Transition ι)}
    {s : State ι} (hrun : RunUpTo maximum (State.initial g) steps s) :
    (leftAs .delivered (importFates maximum steps) ++ s.importQueue =
        (entries (events steps)).map Prod.snd ↔
      ∀ step ∈ steps, ∀ publisher packet, step.event = .entered publisher packet →
        step.before.importQueue.length ≤ maximum) ∧
    (leftAs .delivered (publishFates steps) ++ s.publishQueue ++ s.propagator.toPublish =
        taken (events steps) ↔
      ∀ step ∈ steps, step.event = .publishPushed →
        step.before.publishQueue.length < maximumPublishQueueStoreSize) ∧
    ((leftAs .delivered (storeFates steps) ++ s.dataPacketStoreQueue).map Prod.snd ++
          s.propagator.toStore = taken (events steps) ↔
      ∀ step ∈ steps, step.event = .dataStorePushed →
        step.before.dataPacketStoreQueue.length < maximumDataStoreQueueSize) := by
  have himported := (importFlow_run hrun).passage
  obtain ⟨⟨published, hpublish, hpublished⟩, stored, hstore, hstored⟩ := outboundFlow_run hrun
  refine ⟨?_, ?_, ?_⟩
  · rw [himported.delivered_append_eq_iff, importFates, leftAs_flatMap_eq_nil_iff]
    exact forall₂_congr fun step _ => lost_importFate_iff h step
  · rw [hpublished, List.append_cancel_right_eq, hpublish.delivered_append_eq_iff, publishFates,
      leftAs_flatMap_eq_nil_iff]
    exact forall₂_congr fun step _ => lost_publishFate_iff step
  · have hpackets := (hstore.map Prod.snd).delivered_append_eq_iff
    rw [leftAs_map, leftAs_map, List.map_eq_nil_iff, ← List.map_append] at hpackets
    rw [hstored, List.append_cancel_right_eq, hpackets, storeFates, leftAs_flatMap_eq_nil_iff]
    exact forall₂_congr fun step _ => lost_storeFate_iff step

/-- The publish queue had room for both packets; the import queue did not for all four. -/
theorem nothing_lost_iff_samplePacket : ∃ steps, ∃ s : State ℕ,
    RunUpTo 1 (State.initial 7) steps s ∧ taken (events steps) = [samplePacket 8, samplePacket 9] ∧
    (∀ step ∈ steps, step.event = .publishPushed →
      step.before.publishQueue.length < maximumPublishQueueStoreSize) ∧
    ¬∀ step ∈ steps, ∀ publisher packet, step.event = .entered publisher packet →
      step.before.importQueue.length ≤ 1 := by
  obtain ⟨steps, s, hrun, hentries, himport, hfates, htaken, hqueue, hqueue', hpolling⟩ :=
    exists_delivered
  obtain ⟨himported, hpublished, -⟩ := nothing_lost_iff Nat.one_pos hrun
  refine ⟨steps, s, hrun, htaken, hpublished.1 ?_, fun h => ?_⟩
  · rw [hfates, htaken, hqueue', hpolling]
    rfl
  · have hall := himported.2 h
    rw [himport, hentries, hqueue] at hall
    exact absurd hall (by decide)

end Broker
end UDataPacketBroker
