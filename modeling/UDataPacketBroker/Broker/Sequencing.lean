/-
# Sequencing and fan-out

The propagator is the only thread that numbers packets, and it takes them from
the front of a queue that is pushed at the back and drops from the front.  So
over any interleaving the packets taken are a subsequence of those that entered,
numbered without a gap; and the two outbound queues are suffixes of the packets
taken, except that during an iteration they lag by the packet in flight
(`FannedOut`).  `broker_sequencing` reads the published contract off these two
invariants.
-/

import UDataPacketBroker.Broker

namespace UDataPacketBroker
namespace Broker

open Library Utilities

variable {ι : Type}

/-! ### Traces -/

/-- One more event, and the packet that entered with it. -/
theorem entries_concat (trace : List (Event ι)) (e : Event ι) :
    entries (trace ++ [e]) = entries trace ++ entries [e] := List.filterMap_append

/-- One more event, and the packet that was taken with it. -/
theorem taken_concat (trace : List (Event ι)) (e : Event ι) :
    taken (trace ++ [e]) = taken trace ++ taken [e] := List.filterMap_append

/-- One more event, and the packet that the publisher submitted with it. -/
theorem submissions_concat [DecidableEq ι] (publisher : ι) (trace : List (Event ι)) (e : Event ι) :
    submissions publisher (trace ++ [e]) = submissions publisher trace ++ submissions publisher [e] :=
  List.filterMap_append

/-! ### The import side -/

/-- The overflow of the import queue drops from its front. -/
theorem enqueueImport_eq (importQueue : List Packet) (packet : Packet) :
    ∃ remaining, remaining <:+ importQueue ∧
      (enqueueImport importQueue packet).1 = remaining ++ [packet] ∧
      remaining.length + (enqueueImport importQueue packet).2 = importQueue.length := by
  unfold enqueueImport
  split_ifs
  · exact ⟨_, popWhileFull_suffix _ _, rfl, length_popWhileFull _ _⟩
  · exact ⟨importQueue, List.suffix_rfl, rfl, rfl⟩

/-- The `n`-th packet taken, from 0, under the number it gets. -/
def numbered (g : UInt64) (n : ℕ) (packet : Packet) : Packet :=
  packet.setSequenceNumber (g + 1 + UInt64.ofNat n)

/-- **The import side of a run:** what entered was removed or is still queued, and
what was taken is among the removed, in their order, numbered from `g + 1` on. -/
structure Imported (g : UInt64) (trace : List (Event ι)) (s : State ι) : Prop where
  queued : ∃ removed queued source : List (ι × Packet),
    entries trace = removed ++ queued ∧ queued.map Prod.snd = s.importQueue ∧
    source.Sublist removed ∧
    taken trace = source.mapIdx fun n e => numbered g n e.2
  global : s.globalSequenceNumber = g + UInt64.ofNat (taken trace).length

/-- A new broker took nothing, and its import queue is empty. -/
theorem imported_initial (g : UInt64) : Imported g [] (State.initial g : State ι) :=
  ⟨⟨[], [], [], rfl, rfl, List.Sublist.refl [], rfl⟩, (UInt64.add_zero g).symm⟩

/-- A step that neither enqueues nor takes leaves the import side alone. -/
theorem Imported.of_eq {g : UInt64} {trace : List (Event ι)} {e : Event ι} {s t : State ι}
    (h : Imported g trace s) (hentries : entries [e] = []) (htaken : taken [e] = [])
    (hqueue : t.importQueue = s.importQueue)
    (hglobal : t.globalSequenceNumber = s.globalSequenceNumber) : Imported g (trace ++ [e]) t := by
  obtain ⟨removed, queued, source, hin, hqueued, hsub, hout⟩ := h.queued
  refine ⟨⟨removed, queued, source, ?_, hqueued.trans hqueue.symm, hsub, ?_⟩, ?_⟩
  · rw [entries_concat, hentries, List.append_nil, hin]
  · rw [taken_concat, htaken, List.append_nil, hout]
  · rw [taken_concat, htaken, List.append_nil, hglobal, h.global]

/-- **Every step keeps the import side in order.** -/
theorem Imported.step {g : UInt64} {trace : List (Event ι)} {e : Event ι} {s t : State ι}
    (h : Imported g trace s) (hstep : Step s e t) : Imported g (trace ++ [e]) t := by
  cases hstep with
  | reject => exact h.of_eq rfl rfl rfl rfl
  | accept => exact h.of_eq rfl rfl rfl rfl
  | complete => exact h.of_eq rfl rfl rfl rfl
  | publish => exact h.of_eq rfl rfl rfl rfl
  | store => exact h.of_eq rfl rfl rfl rfl
  | popPublish => exact h.of_eq rfl rfl rfl rfl
  | popDataStore => exact h.of_eq rfl rfl rfl rfl
  | @enqueue publisher packet before after running =>
      obtain ⟨removed, queued, source, hin, hqueued, hsub, hout⟩ := h.queued
      obtain ⟨remaining, ⟨dropped, hdropped⟩, hqueue, -⟩ := enqueueImport_eq s.importQueue packet
      have htaken : taken (trace ++ [.entered publisher packet]) = taken trace := by
        rw [taken_concat]
        exact List.append_nil _
      -- what the overflow drops moves from the queued packets to the removed ones
      have hsplit : queued = queued.take dropped.length ++ queued.drop dropped.length :=
        (List.take_append_drop _ _).symm
      have hdrop : (queued.drop dropped.length).map Prod.snd = remaining := by
        rw [List.map_drop, hqueued, ← hdropped, List.drop_left]
      refine ⟨⟨removed ++ queued.take dropped.length,
        queued.drop dropped.length ++ [(publisher, packet)], source, ?_, ?_, ?_, ?_⟩, ?_⟩
      · rw [entries_concat, hin, List.append_assoc, List.append_assoc, ← List.append_assoc _ _ [_],
          ← hsplit]
        rfl
      · rw [List.map_append, hdrop, hqueue]
        rfl
      · exact hsub.trans (List.sublist_append_left _ _)
      · rw [htaken, hout]
      · rw [htaken]
        exact h.global
  | @take packet importQueue now polling front =>
      obtain ⟨removed, queued, source, hin, hqueued, hsub, hout⟩ := h.queued
      rw [front] at hqueued
      obtain ⟨e, queued, rfl, hpacket, hrest⟩ := List.map_eq_cons_iff.1 hqueued
      have hlength : (taken trace).length = source.length := by rw [hout, List.length_mapIdx]
      have hnext : s.globalSequenceNumber + 1 = g + 1 + UInt64.ofNat source.length := by
        rw [h.global, hlength, UInt64.add_assoc, UInt64.add_comm _ 1, ← UInt64.add_assoc]
      have htaken (number : Packet) : taken (trace ++ [.took number]) = taken trace ++ [number] := by
        rw [taken_concat]
        rfl
      refine ⟨⟨removed ++ [e], queued, source ++ [e], ?_, hrest, hsub.append (List.Sublist.refl _),
        ?_⟩, ?_⟩
      · rw [entries_concat, hin]
        simp [entries]
      · rw [htaken, hout, List.mapIdx_concat, numbered, hpacket, hnext]
      · rw [htaken, List.length_append, List.length_singleton, hlength, UInt64.ofNat_add]
        rw [hnext, UInt64.add_assoc, UInt64.add_comm 1]
        rfl

/-- So what was taken is numbered on every run. -/
theorem imported_run {g : UInt64} {trace : List (Event ι)} {s : State ι}
    (hrun : Run (State.initial g) trace s) : Imported g trace s := by
  induction hrun with
  | nil => exact imported_initial g
  | concat _ hstep ih => exact ih.step hstep

/-! ### The order of one publisher -/

/-- The packets of a publisher that are validated and not yet enqueued. -/
def pending [DecidableEq ι] (publisher : ι) (calls : List (ι × CallPhase)) : List Packet :=
  calls.filterMap fun
    | (i, .validated packet) => if i = publisher then some packet else none
    | _ => none

/-- The packets of a publisher that entered the import queue. -/
def entriesOf [DecidableEq ι] (publisher : ι) (trace : List (Event ι)) : List Packet :=
  ((entries trace).filter fun e => e.1 = publisher).map Prod.snd

/-- The pending packets of calls in two parts. -/
theorem pending_append [DecidableEq ι] (publisher : ι) (calls calls' : List (ι × CallPhase)) :
    pending publisher (calls ++ calls') = pending publisher calls ++ pending publisher calls' :=
  List.filterMap_append

/-- Only the calls of a publisher are pending for it. -/
theorem pending_eq_nil [DecidableEq ι] {publisher : ι} {calls : List (ι × CallPhase)}
    (h : publisher ∉ calls.map Prod.fst) : pending publisher calls = [] := by
  refine List.filterMap_eq_nil_iff.2 ?_
  rintro ⟨i, phase⟩ hmem
  have hne : i ≠ publisher := fun hi => h (hi ▸ List.mem_map_of_mem hmem)
  cases phase with
  | validated packet => exact if_neg hne
  | enqueued nPopped => rfl

/-- A validated packet is pending for its own publisher. -/
theorem pending_validated [DecidableEq ι] (publisher i : ι) (packet : Packet)
    (calls : List (ι × CallPhase)) :
    pending publisher ((i, .validated packet) :: calls) =
      if i = publisher then packet :: pending publisher calls else pending publisher calls := by
  unfold pending
  rw [List.filterMap_cons]
  split_ifs with h <;> simp [h]

/-- A packet that is enqueued is pending no more. -/
theorem pending_enqueued [DecidableEq ι] (publisher i : ι) (nPopped : ℕ)
    (calls : List (ι × CallPhase)) :
    pending publisher ((i, .enqueued nPopped) :: calls) = pending publisher calls := rfl

/-- One more event, and the packet of the publisher that entered with it. -/
theorem entriesOf_concat [DecidableEq ι] (publisher : ι) (trace : List (Event ι)) (e : Event ι) :
    entriesOf publisher (trace ++ [e]) = entriesOf publisher trace ++ entriesOf publisher [e] := by
  rw [entriesOf, entries_concat, List.filter_append, List.map_append]
  rfl

/-- **The publisher side of a run:** one call a publisher, and the packets of each
enter in the order it submitted them. -/
structure Submitted [DecidableEq ι] (trace : List (Event ι)) (s : State ι) : Prop where
  nodup : (s.calls.map Prod.fst).Nodup
  order (publisher : ι) :
    (entriesOf publisher trace ++ pending publisher s.calls).Sublist (submissions publisher trace)

/-- Before the first event nothing is submitted, entered or pending. -/
theorem submitted_initial [DecidableEq ι] (g : UInt64) :
    Submitted [] (State.initial g : State ι) :=
  ⟨List.nodup_nil, fun _ => List.Sublist.refl []⟩

/-- A step that starts no call and enqueues nothing. -/
theorem Submitted.of_eq [DecidableEq ι] {trace : List (Event ι)} {e : Event ι} {s t : State ι}
    (h : Submitted trace s) (hentries : entries [e] = [])
    (hsubmissions : ∀ i, submissions i [e] = []) (hcalls : t.calls = s.calls) :
    Submitted (trace ++ [e]) t := by
  refine ⟨hcalls ▸ h.nodup, fun i => ?_⟩
  have hnone : entriesOf i [e] = [] := by rw [entriesOf, hentries]; rfl
  rw [entriesOf_concat, submissions_concat, hnone, hsubmissions, List.append_nil, List.append_nil,
    hcalls]
  exact h.order i

/-- **Every step keeps the publishers in order.** -/
theorem Submitted.step [DecidableEq ι] {trace : List (Event ι)} {e : Event ι} {s t : State ι}
    (h : Submitted trace s) (hstep : Step s e t) : Submitted (trace ++ [e]) t := by
  cases hstep with
  | take => exact h.of_eq rfl (fun _ => rfl) rfl
  | publish => exact h.of_eq rfl (fun _ => rfl) rfl
  | store => exact h.of_eq rfl (fun _ => rfl) rfl
  | popPublish => exact h.of_eq rfl (fun _ => rfl) rfl
  | popDataStore => exact h.of_eq rfl (fun _ => rfl) rfl
  | reject idle invalid =>
      refine ⟨h.nodup, fun i => ?_⟩
      rw [entriesOf_concat, submissions_concat]
      refine (?_ : List.Sublist _ _).trans (List.sublist_append_left _ _)
      exact (List.append_nil (entriesOf i trace)).symm ▸ h.order i
  | @accept publisher packet idle valid =>
      constructor
      · rw [List.map_append]
        refine List.Nodup.append h.nodup (List.nodup_singleton publisher) ?_
        exact List.disjoint_singleton.2 idle
      · intro i
        have hnone : entriesOf i [Event.accepted publisher packet] = [] := rfl
        rw [entriesOf_concat, submissions_concat, hnone, List.append_nil, pending_append,
          ← List.append_assoc]
        refine (h.order i).append ?_
        unfold pending submissions
        dsimp only [List.filterMap_cons]
        exact List.Sublist.refl _
  | @enqueue publisher packet before after running =>
      have hnodup := h.nodup
      rw [running, List.map_append, List.map_cons] at hnodup
      refine ⟨by rw [List.map_append, List.map_cons]; exact hnodup, fun i => ?_⟩
      have horder := h.order i
      have hsubmissions : submissions i [Event.entered publisher packet] = [] := rfl
      rw [entriesOf_concat, submissions_concat, hsubmissions, List.append_nil]
      rw [running, pending_append] at horder
      rw [pending_append]
      by_cases hi : publisher = i
      · subst hi
        -- this call is the publisher's only one
        obtain ⟨hnot, -⟩ := List.nodup_cons.1 (List.nodup_middle.1 hnodup)
        rw [List.mem_append, not_or] at hnot
        have hentered : entriesOf publisher [Event.entered publisher packet] = [packet] := by
          simp [entriesOf, entries]
        rw [pending_validated, if_pos rfl, pending_eq_nil hnot.1, pending_eq_nil hnot.2] at horder
        rw [pending_enqueued, hentered, pending_eq_nil hnot.1, pending_eq_nil hnot.2]
        simpa using horder
      · have hentered : entriesOf i [Event.entered publisher packet] = [] := by
          simp [entriesOf, entries, hi]
        rw [pending_validated, if_neg hi] at horder
        rw [pending_enqueued, hentered, List.append_nil]
        exact horder
  | @complete publisher nPopped before after running =>
      constructor
      · refine h.nodup.sublist (List.Sublist.map _ ?_)
        rw [running]
        exact (List.Sublist.refl before).append (List.sublist_cons_self _ _)
      · intro i
        have horder := h.order i
        have hentries : entriesOf i [Event.completed publisher] = [] := rfl
        have hsubmissions : submissions i [Event.completed publisher] = [] := rfl
        rw [running, pending_append, pending_enqueued, ← pending_append] at horder
        rw [entriesOf_concat, submissions_concat, hentries, hsubmissions, List.append_nil,
          List.append_nil]
        exact horder

/-- So each publisher's packets enter in its order on every run. -/
theorem submitted_run [DecidableEq ι] {g : UInt64} {trace : List (Event ι)} {s : State ι}
    (hrun : Run (State.initial g) trace s) : Submitted trace s := by
  induction hrun with
  | nil => exact submitted_initial g
  | concat _ hstep ih => exact ih.step hstep

/-! ### The fan-out -/

/-- What the propagator has still to push on the publish queue. -/
def Propagator.toPublish : Propagator → List Packet
  | .numbered _ packet => [packet]
  | _ => []

/-- What the propagator has still to push on the data store queue. -/
def Propagator.toStore : Propagator → List Packet
  | .numbered _ packet => [packet]
  | .published _ packet => [packet]
  | .polling => []

/-- **The fan-out of a run:** either outbound queue is a suffix of what was pushed
on it, which is everything taken but the packet in flight. -/
structure FannedOut (trace : List (Event ι)) (s : State ι) : Prop where
  published : ∃ pushed, s.publishQueue <:+ pushed ∧
    taken trace = pushed ++ s.propagator.toPublish
  stored : ∃ pushed, s.dataPacketStoreQueue.map Prod.snd <:+ pushed ∧
    taken trace = pushed ++ s.propagator.toStore

/-- The outbound queues of a new broker are empty. -/
theorem fannedOut_initial (g : UInt64) : FannedOut [] (State.initial g : State ι) :=
  ⟨⟨[], List.suffix_rfl, rfl⟩, ⟨[], List.suffix_rfl, rfl⟩⟩

/-- A step that leaves the outbound side alone. -/
theorem FannedOut.of_eq {trace : List (Event ι)} {e : Event ι} {s t : State ι}
    (h : FannedOut trace s) (htaken : taken [e] = []) (hpublish : t.publishQueue = s.publishQueue)
    (hstore : t.dataPacketStoreQueue = s.dataPacketStoreQueue)
    (hpropagator : t.propagator = s.propagator) : FannedOut (trace ++ [e]) t := by
  have htrace : taken (trace ++ [e]) = taken trace := by
    rw [taken_concat, htaken, List.append_nil]
  constructor
  · rw [htrace, hpublish, hpropagator]
    exact h.published
  · rw [htrace, hstore, hpropagator]
    exact h.stored

/-- **Every step keeps both queues in step with what was taken.** -/
theorem FannedOut.step {trace : List (Event ι)} {e : Event ι} {s t : State ι}
    (h : FannedOut trace s) (hstep : Step s e t) : FannedOut (trace ++ [e]) t := by
  obtain ⟨⟨published, hpublish, hpublished⟩, stored, hstore, hstored⟩ := h
  cases hstep with
  | reject => exact FannedOut.of_eq ⟨⟨_, hpublish, hpublished⟩, _, hstore, hstored⟩ rfl rfl rfl rfl
  | accept => exact FannedOut.of_eq ⟨⟨_, hpublish, hpublished⟩, _, hstore, hstored⟩ rfl rfl rfl rfl
  | enqueue => exact FannedOut.of_eq ⟨⟨_, hpublish, hpublished⟩, _, hstore, hstored⟩ rfl rfl rfl rfl
  | complete => exact FannedOut.of_eq ⟨⟨_, hpublish, hpublished⟩, _, hstore, hstored⟩ rfl rfl rfl rfl
  | take now polling front =>
      rw [polling] at hpublished hstored
      have htaken (packet : Packet) : taken (trace ++ [.took packet]) = taken trace ++ [packet] := by
        rw [taken_concat]
        rfl
      refine ⟨⟨published, hpublish, ?_⟩, stored, hstore, ?_⟩
      · rw [htaken, hpublished]
        exact congrArg (· ++ _) (List.append_nil published)
      · rw [htaken, hstored]
        exact congrArg (· ++ _) (List.append_nil stored)
  | @publish now packet numbered =>
      rw [numbered] at hpublished hstored
      have htaken : taken (trace ++ [.publishPushed]) = taken trace := by
        rw [taken_concat]
        exact List.append_nil _
      refine ⟨⟨published ++ [packet], ?_, ?_⟩, stored, hstore, htaken.trans hstored⟩
      · exact suffix_concat ((popWhileFull_suffix _ _).trans hpublish) packet
      · rw [htaken, hpublished]
        exact (List.append_nil _).symm
  | @store now packet publishedNow =>
      rw [publishedNow] at hpublished hstored
      have htaken : taken (trace ++ [.dataStorePushed]) = taken trace := by
        rw [taken_concat]
        exact List.append_nil _
      refine ⟨⟨published, hpublish, htaken.trans hpublished⟩, stored ++ [packet], ?_, ?_⟩
      · have hsuffix := (popWhileFull_suffix maximumDataStoreQueueSize s.dataPacketStoreQueue).map
          Prod.snd
        rw [pushDataStore, List.map_append]
        exact suffix_concat (hsuffix.trans hstore) packet
      · rw [htaken, hstored]
        exact (List.append_nil _).symm
  | popPublish front =>
      have htaken : taken (trace ++ [.publishPopped]) = taken trace := by
        rw [taken_concat]
        exact List.append_nil _
      rw [front] at hpublish
      exact ⟨⟨published, (List.suffix_cons _ _).trans hpublish, htaken.trans hpublished⟩,
        stored, hstore, htaken.trans hstored⟩
  | popDataStore front =>
      have htaken : taken (trace ++ [.dataStorePopped]) = taken trace := by
        rw [taken_concat]
        exact List.append_nil _
      rw [front, List.map_cons] at hstore
      exact ⟨⟨published, hpublish, htaken.trans hpublished⟩,
        stored, (List.suffix_cons _ _).trans hstore, htaken.trans hstored⟩

/-- So both outbound queues end what was taken on every run. -/
theorem fannedOut_run {g : UInt64} {trace : List (Event ι)} {s : State ι}
    (hrun : Run (State.initial g) trace s) : FannedOut trace s := by
  induction hrun with
  | nil => exact fannedOut_initial g
  | concat _ hstep ih => exact ih.step hstep

/-! ### The contract -/

/-- The sequence numbers of a queue. -/
def sequenceNumbers (queue : List Packet) : List ℕ :=
  queue.map fun packet => packet.sequenceNumber.toNat

/-- The queue holds consecutive numbers and, unless it is empty, ends with `last`. -/
def RunsTo (queue : List Packet) (last : UInt64) : Prop :=
  ∃ first, sequenceNumbers queue = List.range' first queue.length ∧
    (queue ≠ [] → first + queue.length = last.toNat + 1)

/-- The number that a packet is given, where the counter does not wrap. -/
theorem toNat_numbered {g : UInt64} {n : ℕ} (packet : Packet) (h : g.toNat + n + 1 < 2 ^ 64) :
    (numbered g n packet).sequenceNumber.toNat = g.toNat + 1 + n := by
  have hn : (UInt64.ofNat n).toNat = n := UInt64.toNat_ofNat_of_lt' (by rw [UInt64.size]; omega)
  rw [numbered, Packet.sequenceNumber_setSequenceNumber, UInt64.toNat_add, UInt64.toNat_add, hn,
    UInt64.toNat_one]
  omega

/-- The numbers of the packets taken, without a gap. -/
theorem Imported.sequenceNumbers_taken {g : UInt64} {trace : List (Event ι)} {s : State ι}
    (h : Imported g trace s) (hwrap : g.toNat + (taken trace).length < 2 ^ 64) :
    sequenceNumbers (taken trace) = List.range' (g.toNat + 1) (taken trace).length := by
  obtain ⟨-, -, source, -, -, -, hout⟩ := h.queued
  rw [sequenceNumbers]
  refine List.ext_getElem (by simp) fun n hn hn' => ?_
  rw [List.length_map] at hn
  simp only [hout, List.getElem_map, List.getElem_mapIdx, List.getElem_range', one_mul]
  exact toNat_numbered _ (by omega)

/-- The counter counts the packets taken. -/
theorem Imported.toNat_globalSequenceNumber {g : UInt64} {trace : List (Event ι)} {s : State ι}
    (h : Imported g trace s) (hwrap : g.toNat + (taken trace).length < 2 ^ 64) :
    s.globalSequenceNumber.toNat = g.toNat + (taken trace).length := by
  have hlen : (UInt64.ofNat (taken trace).length).toNat = (taken trace).length :=
    UInt64.toNat_ofNat_of_lt' (by rw [UInt64.size]; omega)
  rw [h.global, UInt64.toNat_add, hlen, Nat.mod_eq_of_lt hwrap]

/-- A suffix of what was taken runs to the counter. -/
theorem Imported.runsTo {g : UInt64} {trace : List (Event ι)} {s : State ι}
    (h : Imported g trace s) (hwrap : g.toNat + (taken trace).length < 2 ^ 64)
    {queue : List Packet} (hqueue : queue <:+ taken trace) :
    RunsTo queue s.globalSequenceNumber := by
  refine ⟨_, map_suffix_eq_range' (h.sequenceNumbers_taken hwrap) hqueue, fun _ => ?_⟩
  have hle := hqueue.length_le
  rw [h.toNat_globalSequenceNumber hwrap]
  omega

/-- **Sequencing and fan-out over every interleaving.**  The packets taken are a
subsequence of those that entered, numbered `g + 1`, `g + 2`, …, and those of one
publisher are in the order it submitted them.  Between two iterations of the
propagator both outbound queues run to the counter, and a number found in both
is the same packet. -/
theorem broker_sequencing [DecidableEq ι] (g : UInt64) (trace : List (Event ι)) (s : State ι)
    (hrun : Run (State.initial g) trace s) (hwrap : g.toNat + (taken trace).length < 2 ^ 64) :
    (∃ source : List (ι × Packet), source.Sublist (entries trace) ∧
      taken trace = source.mapIdx (fun n e => numbered g n e.2) ∧
      ∀ publisher, ((source.filter fun e => e.1 = publisher).map Prod.snd).Sublist
        (submissions publisher trace)) ∧
    sequenceNumbers (taken trace) = List.range' (g.toNat + 1) (taken trace).length ∧
    (s.propagator = .polling →
      RunsTo s.publishQueue s.globalSequenceNumber ∧
      RunsTo (s.dataPacketStoreQueue.map Prod.snd) s.globalSequenceNumber ∧
      ∀ packet ∈ s.publishQueue, ∀ stored ∈ s.dataPacketStoreQueue,
        packet.sequenceNumber = stored.2.sequenceNumber → packet = stored.2) := by
  have himported := imported_run hrun
  refine ⟨?_, himported.sequenceNumbers_taken hwrap, fun hpolling => ?_⟩
  · obtain ⟨removed, queued, source, hin, -, hsub, hout⟩ := himported.queued
    have hentries : source.Sublist (entries trace) :=
      hin ▸ hsub.trans (List.sublist_append_left _ _)
    refine ⟨source, hentries, hout, fun publisher => ?_⟩
    exact ((hentries.filter _).map _).trans
      ((List.sublist_append_left _ _).trans ((submitted_run hrun).order publisher))
  · obtain ⟨⟨published, hpublish, hpublished⟩, stored, hstore, hstored⟩ := fannedOut_run hrun
    rw [hpolling] at hpublished hstored
    obtain rfl : taken trace = published := hpublished.trans (List.append_nil _)
    obtain rfl : taken trace = stored := hstored.trans (List.append_nil _)
    refine ⟨himported.runsTo hwrap hpublish, himported.runsTo hwrap hstore,
      fun packet hpacket receipt hreceipt hnumber => ?_⟩
    exact eq_of_number_eq (himported.sequenceNumbers_taken hwrap) (hpublish.subset hpacket)
      (hstore.subset (List.mem_map_of_mem hreceipt)) (congrArg UInt64.toNat hnumber)

/-- Two publishers, from global number 7 on: the packet that enters first is number 8,
though its call began second. -/
theorem broker_sequencing_samplePacket :
    ∃ (trace : List (Event ℕ)) (s : State ℕ), Run (State.initial 7) trace s ∧
      entries trace = [(1, samplePacket 2), (0, samplePacket 1)] ∧
      sequenceNumbers (taken trace) = [8, 9] ∧
      RunsTo s.publishQueue s.globalSequenceNumber ∧
      s.publishQueue = [samplePacket 8, samplePacket 9] ∧
      s.dataPacketStoreQueue = [(5, samplePacket 8), (6, samplePacket 9)] := by
  have hstart : Run (State.initial 7 : State ℕ) [] _ := Run.nil
  have haccepted := (hstart.concat (@Step.accept ℕ _ 0 (samplePacket 1) (by decide) (by decide))).concat
    (@Step.accept ℕ _ 1 (samplePacket 2) (by decide) (by decide))
  have hentered := (haccepted.concat
    (@Step.enqueue ℕ _ 1 (samplePacket 2) [(0, .validated (samplePacket 1))] [] rfl)).concat
    (@Step.enqueue ℕ _ 0 (samplePacket 1) [] [(1, .enqueued 0)] rfl)
  have hfirst := ((hentered.concat (Step.take 5 rfl rfl)).concat (Step.publish rfl)).concat
    (Step.store rfl)
  have hrun := ((hfirst.concat (Step.take 6 rfl rfl)).concat (Step.publish rfl)).concat
    (Step.store rfl)
  obtain ⟨-, hnumbers, hqueues⟩ := broker_sequencing 7 _ _ hrun (by decide)
  exact ⟨_, _, hrun, rfl, hnumbers, (hqueues rfl).1, rfl, rfl⟩

end Broker
end UDataPacketBroker
