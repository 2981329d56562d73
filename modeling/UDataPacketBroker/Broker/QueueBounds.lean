/-
# The bounds of the queues

The publish queue and the data store queue pop while they are full, and so admit
a packet within their maxima.  The import queue has the same loop behind a guard
that asks for one packet more: `size() > mMaximumImportQueueSize`.  A call that
finds it holding exactly the maximum pushes without popping, and it outgrows the
maximum by one (`length_importQueue_le`); the next call pops two.  The steps are
those of the broker with the import maximum as a parameter (`runUpTo_iff`), and
`queueLaw_iff` says when each of them keeps the law of the queues.
-/

import UDataPacketBroker.Broker

namespace UDataPacketBroker
namespace Broker

open Library Utilities

variable {ι : Type}

/-! ### The broker at any import maximum -/

/-- `enqueueImport` where `mMaximumImportQueueSize` is `maximum`. -/
def enqueueImportUpTo (maximum : ℕ) (importQueue : List Packet) (packet : Packet) :
    List Packet × ℕ :=
  let (importQueue, nPopped) :=
    if importQueue.length > maximum then popWhileFull maximum importQueue
    else (importQueue, 0)
  (importQueue ++ [packet], nPopped)

/-- One step of one thread: only the step that enqueues reads the maximum. -/
inductive StepUpTo (maximum : ℕ) : State ι → Event ι → State ι → Prop where
  | enqueue {s : State ι} {publisher : ι} {packet : Packet} {before after : List (ι × CallPhase)}
      (running : s.calls = before ++ (publisher, .validated packet) :: after) :
      StepUpTo maximum s (.entered publisher packet)
        { s with
          importQueue := (enqueueImportUpTo maximum s.importQueue packet).1
          calls := before ++
            (publisher, .enqueued (enqueueImportUpTo maximum s.importQueue packet).2) :: after }
  | other {s t : State ι} {e : Event ι} (step : Step s e t)
      (notEntered : ∀ publisher packet, e ≠ .entered publisher packet) : StepUpTo maximum s e t

/-- A completed step of a run. -/
structure Transition (ι : Type) where
  before : State ι
  event : Event ι
  after : State ι

/-- The completed steps of a run, oldest first. -/
inductive RunUpTo (maximum : ℕ) (s : State ι) : List (Transition ι) → State ι → Prop where
  | nil : RunUpTo maximum s [] s
  | concat {steps : List (Transition ι)} {e : Event ι} {t u : State ι}
      (run : RunUpTo maximum s steps t) (step : StepUpTo maximum t e u) :
      RunUpTo maximum s (steps ++ [⟨t, e, u⟩]) u

/-- With the maximum of the source these are the steps of the broker. -/
theorem stepUpTo_iff {s t : State ι} {e : Event ι} :
    StepUpTo maximumImportQueueSize s e t ↔ Step s e t := by
  constructor
  · rintro (running | ⟨step, -⟩)
    · exact Step.enqueue running
    · exact step
  · intro step
    by_cases hentered : ∃ publisher packet, e = .entered publisher packet
    · obtain ⟨publisher, packet, rfl⟩ := hentered
      cases step with
      | enqueue running => exact StepUpTo.enqueue running
    · exact .other step fun publisher packet he => hentered ⟨publisher, packet, he⟩

/-- **At the source's maximum these are the runs of the broker.** -/
theorem runUpTo_iff {s t : State ι} {trace : List (Event ι)} :
    Run s trace t ↔ ∃ steps, RunUpTo maximumImportQueueSize s steps t ∧
      steps.map Transition.event = trace := by
  constructor
  · intro hrun
    induction hrun with
    | nil => exact ⟨[], .nil, rfl⟩
    | concat _ step ih =>
        obtain ⟨steps, hsteps, rfl⟩ := ih
        exact ⟨_, hsteps.concat (stepUpTo_iff.2 step), List.map_append⟩
  · rintro ⟨steps, hsteps, rfl⟩
    induction hsteps with
    | nil => exact Run.nil
    | concat _ step ih =>
        rw [List.map_append]
        exact ih.concat (stepUpTo_iff.1 step)

/-! ### The law of the queues -/

/-- The queues of a state are within their maxima. -/
structure WithinBounds (maximum : ℕ) (s : State ι) : Prop where
  importQueue : s.importQueue.length ≤ maximum
  publishQueue : s.publishQueue.length ≤ maximumPublishQueueStoreSize
  dataStoreQueue : s.dataPacketStoreQueue.length ≤ maximumDataStoreQueueSize

/-- **The law of the queues in one step.**  Each is within its maximum afterwards;
a push admits its packet by dropping the oldest, a consumer removes the front, and
nothing else touches a queue. -/
structure QueueLaw (maximum : ℕ) (step : Transition ι) : Prop where
  bounds : WithinBounds maximum step.after
  importQueue : match step.event with
    | .entered _ packet =>
      Admitted maximum step.before.importQueue packet step.after.importQueue
    | .took _ => ∃ packet, step.before.importQueue = packet :: step.after.importQueue
    | _ => step.after.importQueue = step.before.importQueue
  publishQueue : match step.event with
    | .publishPushed => ∃ now packet, step.before.propagator = .numbered now packet ∧
      Admitted maximumPublishQueueStoreSize step.before.publishQueue packet
        step.after.publishQueue
    | .publishPopped => ∃ packet, step.before.publishQueue = packet :: step.after.publishQueue
    | _ => step.after.publishQueue = step.before.publishQueue
  dataStoreQueue : match step.event with
    | .dataStorePushed => ∃ now packet, step.before.propagator = .published now packet ∧
      Admitted maximumDataStoreQueueSize step.before.dataPacketStoreQueue (now, packet)
        step.after.dataPacketStoreQueue
    | .dataStorePopped => ∃ receiptTimeAndPacket,
      step.before.dataPacketStoreQueue = receiptTimeAndPacket :: step.after.dataPacketStoreQueue
    | _ => step.after.dataPacketStoreQueue = step.before.dataPacketStoreQueue

/-- Empty queues are within their bounds. -/
theorem withinBounds_initial (maximum : ℕ) (g : UInt64) :
    WithinBounds maximum (State.initial g : State ι) :=
  ⟨Nat.zero_le _, Nat.zero_le _, Nat.zero_le _⟩

/-- **When the import queue admits a packet as its maximum asks:** when it does not
hold exactly the maximum. -/
theorem admitted_enqueueImportUpTo_iff {maximum : ℕ} (h : 0 < maximum) (importQueue : List Packet)
    (packet : Packet) :
    Admitted maximum importQueue packet (enqueueImportUpTo maximum importQueue packet).1 ↔
      importQueue.length ≠ maximum := by
  unfold enqueueImportUpTo
  split_ifs with hover
  · exact iff_of_true (admitted_popWhileFull h importQueue packet) (by omega)
  · rw [admitted_concat_iff]
    omega

/-- Whatever the queue holds, it is at most one packet too long afterwards. -/
theorem length_enqueueImportUpTo_le {maximum : ℕ} (h : 0 < maximum) (importQueue : List Packet)
    (packet : Packet) :
    (enqueueImportUpTo maximum importQueue packet).1.length ≤ maximum + 1 := by
  unfold enqueueImportUpTo
  split_ifs with hover
  · exact (admitted_popWhileFull h importQueue packet).length_le.trans (Nat.le_succ maximum)
  · rw [List.length_append, List.length_singleton]
    omega

/-- **A step keeps the law,** unless it enqueues on an import queue that holds exactly
its maximum. -/
theorem StepUpTo.queueLaw {maximum : ℕ} (h : 0 < maximum) {s t : State ι} {e : Event ι}
    (hstep : StepUpTo maximum s e t) (hbounds : WithinBounds maximum s)
    (hlength : ∀ publisher packet, e = .entered publisher packet →
      s.importQueue.length ≠ maximum) : QueueLaw maximum ⟨s, e, t⟩ := by
  obtain ⟨himport, hpublish, hdataStore⟩ := hbounds
  cases hstep with
  | @enqueue publisher packet before after running =>
      have hadmitted := (admitted_enqueueImportUpTo_iff h s.importQueue packet).2
        (hlength publisher packet rfl)
      exact ⟨⟨hadmitted.length_le, hpublish, hdataStore⟩, hadmitted, rfl, rfl⟩
  | other step notEntered =>
      cases step with
      | enqueue => exact absurd rfl (notEntered _ _)
      | reject => exact ⟨⟨himport, hpublish, hdataStore⟩, rfl, rfl, rfl⟩
      | accept => exact ⟨⟨himport, hpublish, hdataStore⟩, rfl, rfl, rfl⟩
      | complete => exact ⟨⟨himport, hpublish, hdataStore⟩, rfl, rfl, rfl⟩
      | take now polling front =>
          rw [front] at himport
          exact ⟨⟨Nat.le_of_succ_le himport, hpublish, hdataStore⟩, ⟨_, front⟩, rfl, rfl⟩
      | @publish now packet numbered =>
          have hadmitted : Admitted maximumPublishQueueStoreSize s.publishQueue packet
              (pushPublish s.publishQueue packet) := admitted_popWhileFull (by decide) _ _
          exact ⟨⟨himport, hadmitted.length_le, hdataStore⟩, rfl,
            ⟨now, packet, numbered, hadmitted⟩, rfl⟩
      | @store now packet published =>
          have hadmitted : Admitted maximumDataStoreQueueSize s.dataPacketStoreQueue (now, packet)
              (pushDataStore s.dataPacketStoreQueue (now, packet)) :=
            admitted_popWhileFull (by decide) _ _
          exact ⟨⟨himport, hpublish, hadmitted.length_le⟩, rfl, rfl,
            ⟨now, packet, published, hadmitted⟩⟩
      | popPublish front =>
          rw [front] at hpublish
          exact ⟨⟨himport, Nat.le_of_succ_le hpublish, hdataStore⟩, rfl, ⟨_, front⟩, rfl⟩
      | popDataStore front =>
          rw [front] at hdataStore
          exact ⟨⟨himport, hpublish, Nat.le_of_succ_le hdataStore⟩, rfl, rfl, ⟨_, front⟩⟩

/-- A step that enqueues on an import queue of exactly its maximum breaks the law. -/
theorem StepUpTo.not_queueLaw {maximum : ℕ} (h : 0 < maximum) {s t : State ι} {publisher : ι}
    {packet : Packet} (hstep : StepUpTo maximum s (.entered publisher packet) t)
    (hlength : s.importQueue.length = maximum) :
    ¬ QueueLaw maximum ⟨s, .entered publisher packet, t⟩ := by
  intro hlaw
  rcases hstep with running | ⟨-, notEntered⟩
  · exact (admitted_enqueueImportUpTo_iff h s.importQueue packet).1 hlaw.importQueue hlength
  · exact notEntered publisher packet rfl

/-- The transitions of a run are steps. -/
theorem RunUpTo.stepUpTo {maximum : ℕ} {s t : State ι} {steps : List (Transition ι)}
    (hrun : RunUpTo maximum s steps t) :
    ∀ step ∈ steps, StepUpTo maximum step.before step.event step.after := by
  induction hrun with
  | nil => exact fun _ hmem => absurd hmem List.not_mem_nil
  | concat _ hstep ih =>
      intro step hmem
      rcases List.mem_append.1 hmem with hmem | hmem
      · exact ih step hmem
      · rw [List.mem_singleton.1 hmem]
        exact hstep

/-- No call of the run finds the import queue holding exactly its maximum. -/
def NeverExactlyFull (maximum : ℕ) (steps : List (Transition ι)) : Prop :=
  ∀ step ∈ steps, ∀ publisher packet, step.event = .entered publisher packet →
    step.before.importQueue.length ≠ maximum

/-- **Every step of a run keeps the law** where no call finds the import queue
holding exactly its maximum. -/
theorem RunUpTo.queueLaw {maximum : ℕ} (h : 0 < maximum) {g : UInt64}
    {steps : List (Transition ι)} {s : State ι}
    (hrun : RunUpTo maximum (State.initial g) steps s) (hnever : NeverExactlyFull maximum steps) :
    WithinBounds maximum s ∧ ∀ step ∈ steps, QueueLaw maximum step := by
  induction hrun with
  | nil => exact ⟨withinBounds_initial maximum g, fun _ hmem => absurd hmem List.not_mem_nil⟩
  | concat _ hstep ih =>
      obtain ⟨hbounds, hlaw⟩ := ih fun step hmem => hnever step (List.mem_append_left _ hmem)
      have hlast := hstep.queueLaw h hbounds
        (hnever _ (List.mem_append_right _ (List.mem_singleton_self _)))
      refine ⟨hlast.bounds, fun step hmem => ?_⟩
      rcases List.mem_append.1 hmem with hmem | hmem
      · exact hlaw step hmem
      · rw [List.mem_singleton.1 hmem]
        exact hlast

/-- **The import queue holds at most one packet too many,** on every run. -/
theorem length_importQueue_le {maximum : ℕ} (h : 0 < maximum) {g : UInt64}
    {steps : List (Transition ι)} {s : State ι}
    (hrun : RunUpTo maximum (State.initial g) steps s) : s.importQueue.length ≤ maximum + 1 := by
  induction hrun with
  | nil => exact Nat.zero_le _
  | concat _ hstep ih =>
      rcases hstep with running | ⟨step, notEntered⟩
      · exact length_enqueueImportUpTo_le h _ _
      · cases step with
        | enqueue => exact absurd rfl (notEntered _ _)
        | take now polling front =>
            rw [front] at ih
            exact Nat.le_of_succ_le ih
        | _ => exact ih

/-- **When a run keeps the law of the queues:** when no call finds the import queue
holding exactly its maximum. -/
theorem queueLaw_iff {maximum : ℕ} (h : 0 < maximum) {g : UInt64} {steps : List (Transition ι)}
    {s : State ι} (hrun : RunUpTo maximum (State.initial g) steps s) :
    (∀ step ∈ steps, QueueLaw maximum step) ↔ NeverExactlyFull maximum steps := by
  constructor
  · rintro hlaw ⟨before, event, after⟩ hmem publisher packet rfl hlength
    exact (hrun.stepUpTo _ hmem).not_queueLaw h hlength (hlaw _ hmem)
  · exact fun hnever => (hrun.queueLaw h hnever).2

/-- Two publishers and an import queue for two: their calls keep the law. -/
theorem queueLaw_iff_samplePacket :
    ∃ steps, ∃ s : State ℕ, RunUpTo 2 (State.initial 0) steps s ∧
      s.importQueue = [samplePacket 2, samplePacket 1] ∧ ∀ step ∈ steps, QueueLaw 2 step := by
  have hstart : RunUpTo 2 (State.initial 0 : State ℕ) [] _ := RunUpTo.nil
  have haccepted := (hstart.concat
    (.other (@Step.accept ℕ _ 0 (samplePacket 1) (by decide) (by decide)) (by rintro _ _ ⟨⟩))).concat
    (.other (@Step.accept ℕ _ 1 (samplePacket 2) (by decide) (by decide)) (by rintro _ _ ⟨⟩))
  have hrun := (haccepted.concat
    (@StepUpTo.enqueue ℕ 2 _ 1 (samplePacket 2) [(0, .validated (samplePacket 1))] [] rfl)).concat
    (@StepUpTo.enqueue ℕ 2 _ 0 (samplePacket 1) [] [(1, .enqueued 0)] rfl)
  refine ⟨_, _, hrun, rfl, (queueLaw_iff Nat.two_pos hrun).2 ?_⟩
  intro step hmem publisher packet hentered
  rcases List.mem_append.1 hmem with hmem | hmem
  · rcases List.mem_append.1 hmem with hmem | hmem
    · rcases List.mem_pair.1 hmem with rfl | rfl <;> cases hentered
    · rw [List.mem_singleton.1 hmem]
      exact Nat.zero_ne_add_one 1
  · rw [List.mem_singleton.1 hmem]
    exact Nat.succ_ne_self 1 ∘ Eq.symm

/-! ### Filling the import queue -/

/-- An idle broker can start a call with a valid packet. -/
theorem RunUpTo.exists_accept {maximum : ℕ} {r s : State ι} {steps : List (Transition ι)}
    (hrun : RunUpTo maximum r steps s) (hcalls : s.calls = []) (publisher : ι) {packet : Packet}
    (hvalid : isValid packet = .ok true) :
    ∃ steps t, RunUpTo maximum r steps t ∧ t.importQueue = s.importQueue ∧
      t.calls = [(publisher, .validated packet)] := by
  have hidle : publisher ∉ s.calls.map Prod.fst := by
    rw [hcalls]
    exact List.not_mem_nil
  have hreceived : (receivePacket s.metrics packet).2 = .ok () := by rw [receivePacket, hvalid]
  refine ⟨_, _, hrun.concat (.other (.accept hidle hreceived) (by rintro _ _ ⟨⟩)), rfl, ?_⟩
  rw [hcalls]
  rfl

/-- **Calls alone fill the import queue,** while the propagator sleeps. -/
theorem exists_fill (maximum : ℕ) (g : UInt64) (publisher : ι) {packet : Packet}
    (hvalid : isValid packet = .ok true) (n : ℕ) (hn : n ≤ maximum) :
    ∃ steps, ∃ s : State ι, RunUpTo maximum (State.initial g) steps s ∧
      s.importQueue.length = n ∧ s.calls = [] := by
  induction n with
  | zero => exact ⟨[], _, .nil, rfl, rfl⟩
  | succ n ih =>
      obtain ⟨steps, s, hrun, hlength, hcalls⟩ := ih (Nat.le_of_succ_le hn)
      obtain ⟨steps, t, hrun, himport, hcalls⟩ := hrun.exists_accept hcalls publisher hvalid
      have hentered := hrun.concat (@StepUpTo.enqueue ι maximum t publisher packet [] [] hcalls)
      have hcompleted := hentered.concat
        (.other (@Step.complete ι _ publisher _ [] [] rfl) (by rintro _ _ ⟨⟩))
      refine ⟨_, _, hcompleted, ?_, rfl⟩
      have hroom : ¬ t.importQueue.length > maximum := by rw [himport]; omega
      rw [enqueueImportUpTo, if_neg hroom, List.length_append, himport, hlength,
        List.length_singleton]

/-- **At the source's maximum a run breaks the law:** 8193 calls in a row, of which the
last finds the import queue holding 8192 packets. -/
theorem not_queueLaw_samplePacket :
    ¬ ∀ (steps : List (Transition ℕ)) (s : State ℕ),
      RunUpTo maximumImportQueueSize (State.initial 0) steps s →
        ∀ step ∈ steps, QueueLaw maximumImportQueueSize step := by
  intro h
  have hvalid : isValid (samplePacket 0) = .ok true := by decide
  obtain ⟨_, s, hfill, hlength, hcalls⟩ :=
    exists_fill maximumImportQueueSize 0 (0 : ℕ) hvalid maximumImportQueueSize le_rfl
  obtain ⟨_, t, hrun, himport, hcalls⟩ := hfill.exists_accept hcalls 0 hvalid
  have hentered := @StepUpTo.enqueue ℕ maximumImportQueueSize t 0 (samplePacket 0) [] [] hcalls
  have hfull : t.importQueue.length = maximumImportQueueSize := by rw [himport, hlength]
  refine hentered.not_queueLaw (by decide) hfull (h _ _ (hrun.concat hentered) _ ?_)
  exact List.mem_append_right _ (List.mem_singleton_self _)

end Broker
end UDataPacketBroker
