/-
# A write and a truncation at the same time

`write` reads the registry entries it is going to overwrite before its `Write`,
and calls that safe because there is a single writer thread; `truncateOldest`
reads the whole registry before its own `Write`, and the broker runs it on
another thread.  Here one call of each interleave between the registry `Get`s
of the writer, the registry snapshot of the truncator, and the two `Write`s.

A call whose `Write` comes after the other's may act on entries the other has
changed.  That is harmless for most entries; `Loses` says when it is not, and
`registryAgrees_iff` that it is exactly then that the registry stops agreeing
with the packets.
-/

import UDataPacketBroker.RocksDatabase.Registry
import UDataPacketBroker.RocksDatabase.StaleReads

namespace UDataPacketBroker
namespace RocksDatabase

open Library Utilities

variable {CF : Type} [OrderedStore CF Bytes Bytes]

/-! ### The two threads -/

/-- What a thread does to the store, or reads of it. -/
inductive ThreadEvent where
  /-- The writer's registry `Get` of one stream. -/
  | get (streamKey : Bytes)
  /-- The writer's `Write`. -/
  | commitWrite
  /-- The truncator's pass over the registry. -/
  | snapshot
  /-- The truncator's `Write`, or its return where it has nothing to purge. -/
  | commitTruncation
deriving DecidableEq

/-- Where the call of `write` stands: in the loop over `streamAggregate`, with the
streams that are left and the batch so far, or returned. -/
inductive Writer where
  | merging (remaining : List (Bytes × Aggregate)) (batch : List BatchOp)
  | finished

/-- Where the call of `truncateOldest` stands. -/
inductive Truncator where
  | started
  | planned (plan : Option (UInt64 × List BatchOp))
  | finished

/-- The store and the two calls on it. -/
structure Threads (CF : Type) where
  db : Database CF
  writer : Writer
  truncator : Truncator

/-- The streams `write` merges, in the order of its loop. -/
def streamsToMerge (P : Platform) (receiptTimeAndData : List (Int64 × Packet)) :
    List (Bytes × Aggregate) :=
  P.bucketOrder (receiptTimeAndData.foldl (writePacket P) {}).streamAggregate.entries

/-- Both calls at their first access to the registry.  A `write` of no packet
returns there, which is a `Write` of an empty batch. -/
def Threads.initial (P : Platform) (receiptTimeAndData : List (Int64 × Packet))
    (db : Database CF) : Threads CF where
  db := db
  writer := .merging (streamsToMerge P receiptTimeAndData)
    (receiptTimeAndData.foldl (writePacket P) {}).batch
  truncator := .started

/-- One step of one thread. -/
inductive ThreadStep (nPackets : UInt64) : Threads CF → ThreadEvent → Threads CF → Prop
  | get {db : Database CF} {streamKey : Bytes} {aggregate : Aggregate}
      {remaining : List (Bytes × Aggregate)} {batch : List BatchOp} {truncator : Truncator} :
      ThreadStep nPackets ⟨db, .merging ((streamKey, aggregate) :: remaining) batch, truncator⟩
        (.get streamKey)
        ⟨db, .merging remaining
          (batch ++ [putStream streamKey aggregate (OrderedStore.get db.streams streamKey)]),
          truncator⟩
  | commitWrite {db : Database CF} {batch : List BatchOp} {truncator : Truncator} :
      ThreadStep nPackets ⟨db, .merging [] batch, truncator⟩ .commitWrite
        ⟨db.commit batch, .finished, truncator⟩
  | snapshot {db : Database CF} {writer : Writer} :
      ThreadStep nPackets ⟨db, writer, .started⟩ .snapshot
        ⟨db, writer, .planned (planTruncation db nPackets)⟩
  | commitTruncation {db : Database CF} {writer : Writer}
      {plan : Option (UInt64 × List BatchOp)} :
      ThreadStep nPackets ⟨db, writer, .planned plan⟩ .commitTruncation
        ⟨commitPlan db plan, writer, .finished⟩

/-- The two calls on the store `db`, interleaved in any way. -/
inductive ThreadRun (P : Platform) (receiptTimeAndData : List (Int64 × Packet))
    (nPackets : UInt64) (db : Database CF) : List ThreadEvent → Threads CF → Prop
  | nil : ThreadRun P receiptTimeAndData nPackets db [] (.initial P receiptTimeAndData db)
  | concat {trace : List ThreadEvent} {e : ThreadEvent} {t u : Threads CF}
      (run : ThreadRun P receiptTimeAndData nPackets db trace t)
      (step : ThreadStep nPackets t e u) :
      ThreadRun P receiptTimeAndData nPackets db (trace ++ [e]) u

/-- Both calls returned. -/
def Threads.Finished (t : Threads CF) : Prop := t.writer = .finished ∧ t.truncator = .finished

/-! ### What a trace decides -/

/-- The events of a trace but for the `Get`s. -/
def order : List ThreadEvent → List ThreadEvent
  | [] => []
  | .get _ :: rest => order rest
  | e :: rest => e :: order rest

/-- The streams whose entries the writer read before the truncator's `Write`. -/
def earlyReads : List ThreadEvent → List Bytes
  | [] => []
  | .get streamKey :: rest => streamKey :: earlyReads rest
  | .commitTruncation :: _ => []
  | _ :: rest => earlyReads rest

/-- The commits of a trace in two parts. -/
theorem order_append (trace trace' : List ThreadEvent) :
    order (trace ++ trace') = order trace ++ order trace' := by
  induction trace with
  | nil => rfl
  | cons e trace ih => cases e <;> simp [order, ih]

/-- A read before the truncation commits is an early one. -/
theorem earlyReads_concat_get {trace : List ThreadEvent} (h : .commitTruncation ∉ order trace)
    (streamKey : Bytes) :
    earlyReads (trace ++ [.get streamKey]) = earlyReads trace ++ [streamKey] := by
  induction trace with
  | nil => rfl
  | cons e trace ih =>
      cases e with
      | commitTruncation => exact absurd List.mem_cons_self h
      | get key => exact congrArg (key :: ·) (ih h)
      | commitWrite => exact ih fun hmem => h (List.mem_cons_of_mem _ hmem)
      | snapshot => exact ih fun hmem => h (List.mem_cons_of_mem _ hmem)

/-- A `Get` after the truncator's `Write` is not an early one, nor is another event. -/
theorem earlyReads_concat {trace : List ThreadEvent} {e : ThreadEvent}
    (h : .commitTruncation ∈ order trace ∨ ∀ streamKey, e ≠ .get streamKey) :
    earlyReads (trace ++ [e]) = earlyReads trace := by
  induction trace with
  | nil =>
      rcases h with h | h
      · exact absurd h List.not_mem_nil
      · cases e with
        | get key => exact absurd rfl (h key)
        | commitTruncation => rfl
        | commitWrite => rfl
        | snapshot => rfl
  | cons e' trace ih =>
      cases e' with
      | commitTruncation => rfl
      | get key => exact congrArg (key :: ·) (ih h)
      | commitWrite => exact ih (h.imp_left fun hmem => by simpa [order] using hmem)
      | snapshot => exact ih (h.imp_left fun hmem => by simpa [order] using hmem)

/-! ### Every interleaving -/

/-- What the writer's `Get` of a stream returns, before or after the truncator's
`Write`. -/
def readOf (nPackets : UInt64) (db : Database CF) (trace : List ThreadEvent) (streamKey : Bytes) :
    Option Bytes :=
  if streamKey ∈ earlyReads trace then OrderedStore.get db.streams streamKey
  else OrderedStore.get (truncateOldest false db nPackets).2.streams streamKey

/-- The loop of the writer after the streams `done`, where `existing` is what its
`Get`s returned. -/
structure Merged (P : Platform) (receiptTimeAndData : List (Int64 × Packet))
    (existing : Bytes → Option Bytes) (done remaining : List (Bytes × Aggregate))
    (batch : List BatchOp) : Prop where
  streams : done ++ remaining = streamsToMerge P receiptTimeAndData
  batch : batch = (receiptTimeAndData.foldl (writePacket P) {}).batch
    ++ done.map fun e => putStream e.1 e.2 (existing e.1)

namespace Merged

variable {P : Platform} {receiptTimeAndData : List (Int64 × Packet)}
  {existing : Bytes → Option Bytes} {done remaining : List (Bytes × Aggregate)}
  {batch : List BatchOp}

/-- One more stream is merged. -/
theorem next {e : Bytes × Aggregate}
    (h : Merged P receiptTimeAndData existing done (e :: remaining) batch) :
    Merged P receiptTimeAndData existing (done ++ [e]) remaining
      (batch ++ [putStream e.1 e.2 (existing e.1)]) := by
  refine ⟨?_, ?_⟩
  · rw [List.append_assoc, List.singleton_append, h.streams]
  · rw [h.batch, List.map_append, List.append_assoc]
    rfl

/-- Only the entries of the streams that are done matter. -/
theorem congr (h : Merged P receiptTimeAndData existing done remaining batch)
    {existing' : Bytes → Option Bytes} (heq : ∀ e ∈ done, existing' e.1 = existing e.1) :
    Merged P receiptTimeAndData existing' done remaining batch := by
  refine ⟨h.streams, h.batch.trans (congrArg _ (List.map_congr_left fun e he => ?_))⟩
  rw [heq e he]

/-- The loop merges each stream once. -/
theorem not_mem_done {e : Bytes × Aggregate}
    (h : Merged P receiptTimeAndData existing done (e :: remaining) batch) :
    e.1 ∉ done.map Prod.fst := by
  have hnodup : ((done ++ e :: remaining).map Prod.fst).Nodup := by
    rw [h.streams]
    exact ((P.bucketOrder_perm _).map Prod.fst).nodup_iff.2 (HashTable.nodup _)
  rw [List.map_append, List.map_cons] at hnodup
  exact fun hmem => (List.disjoint_of_nodup_append hnodup) hmem List.mem_cons_self

/-- After the loop the batch is the one that `write` commits. -/
theorem planWrite (h : Merged P receiptTimeAndData existing done [] batch) :
    batch = (planWrite P existing receiptTimeAndData).2 := by
  have hdone := h.streams
  rw [List.append_nil] at hdone
  rw [h.batch, hdone, RocksDatabase.planWrite, List.foldl_append_eq_append, ← List.flatMap_def,
    ← List.map_eq_flatMap]
  rfl

end Merged

/-- The state of the threads after each order of their commits; `written` is the
store after a write of its own. -/
inductive Situation (P : Platform) (receiptTimeAndData : List (Int64 × Packet))
    (nPackets : UInt64) (db written : Database CF) (trace : List ThreadEvent) :
    List ThreadEvent → Threads CF → Prop
  | reading {done remaining : List (Bytes × Aggregate)} {batch : List BatchOp}
      (merged : Merged P receiptTimeAndData (OrderedStore.get db.streams) done remaining batch)
      (early : earlyReads trace = done.map Prod.fst) :
      Situation P receiptTimeAndData nPackets db written trace []
        ⟨db, .merging remaining batch, .started⟩
  | readingPlanned {done remaining : List (Bytes × Aggregate)} {batch : List BatchOp}
      (merged : Merged P receiptTimeAndData (OrderedStore.get db.streams) done remaining batch)
      (early : earlyReads trace = done.map Prod.fst) :
      Situation P receiptTimeAndData nPackets db written trace [.snapshot]
        ⟨db, .merging remaining batch, .planned (planTruncation db nPackets)⟩
  | readingTruncated {done remaining : List (Bytes × Aggregate)} {batch : List BatchOp}
      (merged : Merged P receiptTimeAndData (readOf nPackets db trace) done remaining batch)
      (early : earlyReads trace ⊆ done.map Prod.fst) :
      Situation P receiptTimeAndData nPackets db written trace [.snapshot, .commitTruncation]
        ⟨(truncateOldest false db nPackets).2, .merging remaining batch, .finished⟩
  | written :
      Situation P receiptTimeAndData nPackets db written trace [.commitWrite]
        ⟨written, .finished, .started⟩
  | writtenPlanned :
      Situation P receiptTimeAndData nPackets db written trace [.commitWrite, .snapshot]
        ⟨written, .finished, .planned (planTruncation written nPackets)⟩
  | overtaken :
      Situation P receiptTimeAndData nPackets db written trace [.snapshot, .commitWrite]
        ⟨written, .finished, .planned (planTruncation db nPackets)⟩
  | oneAfterTheOther :
      Situation P receiptTimeAndData nPackets db written trace
        [.commitWrite, .snapshot, .commitTruncation]
        ⟨(truncateOldest false written nPackets).2, .finished, .finished⟩
  | staleTruncation :
      Situation P receiptTimeAndData nPackets db written trace
        [.snapshot, .commitWrite, .commitTruncation]
        ⟨commitPlan written (planTruncation db nPackets), .finished, .finished⟩
  | staleWrite :
      Situation P receiptTimeAndData nPackets db written trace
        [.snapshot, .commitTruncation, .commitWrite]
        ⟨(truncateOldest false db nPackets).2.commit
          (planWrite P (readOf nPackets db trace) receiptTimeAndData).2, .finished, .finished⟩

/-- **A step of a thread leads from situation to situation.** -/
theorem Situation.step {P : Platform} {receiptTimeAndData : List (Int64 × Packet)}
    {nPackets : UInt64} {db : Database CF} {trace : List ThreadEvent} {e : ThreadEvent}
    {t u : Threads CF}
    (h : Situation P receiptTimeAndData nPackets db (write P {} db receiptTimeAndData).2 trace
      (order trace) t) (hstep : ThreadStep nPackets t e u) :
    Situation P receiptTimeAndData nPackets db (write P {} db receiptTimeAndData).2 (trace ++ [e])
      (order (trace ++ [e])) u := by
  have hwritten {done : List (Bytes × Aggregate)} {batch : List BatchOp}
      (hmerged : Merged P receiptTimeAndData (OrderedStore.get db.streams) done [] batch) :
      db.commit batch = (write P {} db receiptTimeAndData).2 := by
    rw [hmerged.planWrite, Database.write_snd P false]
    rfl
  rw [order_append]
  generalize horder : order trace = o at h
  cases h with
  | reading merged early =>
      have hearly : ThreadEvent.commitTruncation ∉ order trace := by simp [horder]
      cases hstep with
      | get =>
          refine .reading merged.next ?_
          rw [earlyReads_concat_get hearly, early, List.map_append]
          rfl
      | commitWrite => exact hwritten merged ▸ .written
      | snapshot =>
          refine .readingPlanned merged ?_
          rw [earlyReads_concat (Or.inr fun _ => ThreadEvent.noConfusion), early]
  | readingPlanned merged early =>
      have hearly : ThreadEvent.commitTruncation ∉ order trace := by simp [horder]
      cases hstep with
      | get =>
          refine .readingPlanned merged.next ?_
          rw [earlyReads_concat_get hearly, early, List.map_append]
          rfl
      | commitWrite => exact hwritten merged ▸ .overtaken
      | commitTruncation =>
          rw [commitPlan_planTruncation]
          have hreads : earlyReads (trace ++ [.commitTruncation]) = earlyReads trace :=
            earlyReads_concat (Or.inr fun _ => ThreadEvent.noConfusion)
          refine .readingTruncated (merged.congr fun e he => if_pos ?_) fun streamKey hmem => ?_
          · rw [hreads, early]
            exact List.mem_map_of_mem he
          · rwa [hreads, early] at hmem
  | readingTruncated merged early =>
      have hlate : ThreadEvent.commitTruncation ∈ order trace := by simp [horder]
      cases hstep with
      | @get _ streamKey aggregate =>
          have hreads : earlyReads (trace ++ [.get streamKey]) = earlyReads trace :=
            earlyReads_concat (Or.inl hlate)
          have hread : readOf nPackets db (trace ++ [.get streamKey]) streamKey
              = OrderedStore.get (truncateOldest false db nPackets).2.streams streamKey := by
            refine if_neg fun hmem => ?_
            rw [hreads] at hmem
            exact merged.not_mem_done (early hmem)
          rw [← hread]
          refine .readingTruncated (Merged.next (merged.congr fun e _ => ?_)) ?_
          · rw [readOf, hreads]
            rfl
          · rw [hreads, List.map_append]
            exact fun key hmem => List.mem_append_left _ (early hmem)
      | commitWrite =>
          have hreads : earlyReads (trace ++ [.commitWrite]) = earlyReads trace :=
            earlyReads_concat (Or.inl hlate)
          have hread : readOf nPackets db trace = readOf nPackets db (trace ++ [.commitWrite]) := by
            funext streamKey
            rw [readOf, readOf, hreads]
          rw [merged.planWrite, hread]
          exact .staleWrite
  | written =>
      cases hstep with
      | snapshot => exact .writtenPlanned
  | writtenPlanned =>
      cases hstep with
      | commitTruncation =>
          rw [commitPlan_planTruncation]
          exact .oneAfterTheOther
  | overtaken =>
      cases hstep with
      | commitTruncation => exact .staleTruncation
  | oneAfterTheOther => cases hstep
  | staleTruncation => cases hstep
  | staleWrite => cases hstep

/-- So the situation is known in every state of a run. -/
theorem situation_run {P : Platform} {receiptTimeAndData : List (Int64 × Packet)}
    {nPackets : UInt64} {db : Database CF} {trace : List ThreadEvent} {t : Threads CF}
    (hrun : ThreadRun P receiptTimeAndData nPackets db trace t) :
    Situation P receiptTimeAndData nPackets db (write P {} db receiptTimeAndData).2 trace
      (order trace) t := by
  induction hrun with
  | nil => exact .reading ⟨List.nil_append _, (List.append_nil _).symm⟩ rfl
  | concat _ hstep ih => exact ih.step hstep

/-! ### When the registry agrees -/

/-- **The registry agrees with the packets:** a stream with a stored packet has a
registry entry that carries the largest number stored under the stream. -/
def RegistryAgrees (db : Database CF) : Prop :=
  ∀ k : StreamKey, (∃ s packet, (k.packetKey s, packet) ∈ OrderedStore.entries db.packets) →
    ∃ value, (k.bytes, value) ∈ OrderedStore.entries db.streams ∧
      streamsValueLength ≤ value.length ∧
      IsGreatest {s | ∃ packet, (k.packetKey s, packet) ∈ OrderedStore.entries db.packets}
        (getBigEndian64 (value.drop 8))

/-- The numbers that a batch writes to a stream. -/
def batchNumbers (receiptTimeAndData : List (Int64 × Packet)) (k : StreamKey) : Set UInt64 :=
  {s | ∃ receiptTime packet, (receiptTime, packet) ∈ receiptTimeAndData ∧
    toStreamKey packet.streamIdentifier = .ok k.bytes ∧ packet.sequenceNumber = s}

/-- A truncation of `db` by `nPackets` purges the number. -/
def Purges (db : Database CF) (nPackets s : UInt64) : Prop :=
  (snapshotRegistry db).NoWrap nPackets ∧ s.toNat < (snapshotRegistry db).purgeBound nPackets

/-- **When an interleaving loses a registry update** of the stream `k`, where `e` is
its entry in `db` before and `b` the largest number written to it.

Either the writer read the entry, the truncation reaped it, and the writer put it
back for packets older than it; or the truncator saw the entry, the writer
committed, and the truncation reaped the entry with newer packets behind it, or
put it back as it was before them. -/
def Loses (db : Database CF) (nPackets : UInt64) (receiptTimeAndData : List (Int64 × Packet))
    (trace : List ThreadEvent) (k : StreamKey) : Prop :=
  ∃ e b, (db.view k).entry = some e ∧ IsGreatest (batchNumbers receiptTimeAndData k) b ∧
    ((order trace = [.snapshot, .commitTruncation, .commitWrite] ∧ k.bytes ∈ earlyReads trace ∧
        Purges db nPackets e.maxSequenceNumber ∧ b < e.maxSequenceNumber) ∨
      (order trace = [.snapshot, .commitWrite, .commitTruncation] ∧
        Purges db nPackets e.minSequenceNumber ∧
        ((Purges db nPackets e.maxSequenceNumber ∧ ¬ Purges db nPackets b) ∨
          (¬ Purges db nPackets e.maxSequenceNumber ∧ e.maxSequenceNumber < b))))

/-- The numbers a batch writes to a stream. -/
theorem itemNumbers_updatesAt_items (P : Platform) (receiptTimeAndData : List (Int64 × Packet))
    (k : StreamKey) : StreamView.itemNumbers (updatesAt (items P receiptTimeAndData) k)
      = batchNumbers receiptTimeAndData k := by
  ext s
  constructor
  · rintro ⟨i, hi, rfl⟩
    obtain ⟨t, packet, hmem, hk, rfl⟩ := mem_updatesAt_items.1 hi
    exact ⟨t, packet, hmem, StreamKey.ofIdentifier?_eq_some_iff.1 hk, rfl⟩
  · rintro ⟨t, packet, hmem, hkey, rfl⟩
    have hk := StreamKey.ofIdentifier?_eq_some_iff.2 hkey
    exact ⟨_, mem_updatesAt_items.2 ⟨t, packet, hmem, hk, rfl⟩, rfl⟩

namespace Database

/-- The registry agrees exactly if it does on each stream. -/
theorem WellFormed.registryAgrees_iff_agrees {db : Database CF} (hdb : WellFormed db) :
    RegistryAgrees db ↔ ∀ k, (view db k).Agrees := by
  refine forall_congr' fun k => ?_
  have hnumbers : {s | ∃ packet, (k.packetKey s, packet) ∈ OrderedStore.entries db.packets}
      = (view db k).numbers := Set.ext fun s => stored_iff db k s
  have hstored : (∃ s packet, (k.packetKey s, packet) ∈ OrderedStore.entries db.packets) ↔
      (view db k).numbers.Nonempty := exists_congr fun s => stored_iff db k s
  rw [hnumbers, hstored]
  refine imp_congr_right fun _ => ?_
  constructor
  · rintro ⟨value, hline, -, hgreatest⟩
    obtain ⟨k', hbytes, -, hentry⟩ := hdb.exists_streamKey hline
    obtain rfl := StreamKey.ext hbytes
    exact ⟨_, hentry, hgreatest⟩
  · rintro ⟨e, he, hgreatest⟩
    obtain ⟨value, hline, rfl⟩ := exists_value_of_entry he
    obtain ⟨-, -, hlen, -⟩ := hdb.exists_streamKey hline
    exact ⟨value, hline, hlen.ge, hgreatest⟩

/-- The cutoff in use, for any number. -/
theorem lt_cutoffOf_iff_of_lt {db : Database CF} {nPackets s t : UInt64}
    (ht : t < cutoffOf db nPackets) (hwrap : (snapshotRegistry db).NoWrap nPackets) :
    s < cutoffOf db nPackets ↔ Purges db nPackets s := by
  have hcut : cutoffOf db nPackets = clampCutoff (snapshotRegistry db) nPackets := by
    unfold cutoffOf at ht ⊢
    cases hplan : planTruncation db nPackets with
    | none =>
        rw [hplan] at ht
        exact absurd ht (not_lt.2 (zero_le_uint64 t))
    | some plan => rfl
  rw [hcut, UInt64.lt_iff_toNat_lt, Snapshot.toNat_clampCutoff hwrap]
  exact ⟨fun h => ⟨hwrap, h⟩, fun h => h.2⟩

/-- The cutoff, for the numbers of an entry. -/
theorem Sound.lt_cutoffOf_entry_iff {db : Database CF} (hdb : Sound db) (nPackets : UInt64)
    {k : StreamKey} {e : Aggregate} (he : (view db k).entry = some e) :
    (e.minSequenceNumber < cutoffOf db nPackets ↔ Purges db nPackets e.minSequenceNumber) ∧
      (e.maxSequenceNumber < cutoffOf db nPackets ↔ Purges db nPackets e.maxSequenceNumber) := by
  obtain ⟨hne, hmin, hmax⟩ := hdb.wellFormed.entry_bounds he
  have hle := (hdb.valid k).min_le_max he
  have hbounds := hmin.trans (hle.trans hmax)
  exact ⟨lt_cutoffOf_iff nPackets hne hbounds hmin,
    lt_cutoffOf_iff nPackets hne hbounds (hmin.trans hle)⟩

/-- The streams after a write whose `Get`s lie around the truncator's `Write`. -/
theorem WellFormed.view_staleWrite {db : Database CF} (hdb : WellFormed db) (P : Platform)
    (receiptTimeAndData : List (Int64 × Packet)) (nPackets : UInt64) (trace : List ThreadEvent)
    (k : StreamKey) :
    view ((RocksDatabase.truncateOldest false db nPackets).2.commit
        (RocksDatabase.planWrite P (readOf nPackets db trace) receiptTimeAndData).2) k =
      StreamView.write
        (if k.bytes ∈ earlyReads trace then (view db k).entry
          else ((view db k).truncate (cutoffOf db nPackets)).entry)
        (updatesAt (items P receiptTimeAndData) k)
        ((view db k).truncate (cutoffOf db nPackets)) := by
  have htruncated := hdb.truncateOldest false nPackets
  rw [view_planWrite P _ ?_, ← hdb.view_truncateOldest]
  · congr 1
    rw [readOf]
    split_ifs <;> rfl
  · intro key value h
    rw [readOf] at h
    split_ifs at h
    · exact (hdb.streams key value h).2
    · exact (htruncated.streams key value h).2

/-- A truncation that commits over a write it did not see. -/
theorem Sound.agrees_staleTruncation_iff {db : Database CF} (hdb : Sound db) (P : Platform)
    (receiptTimeAndData : List (Int64 × Packet)) (nPackets : UInt64) {trace : List ThreadEvent}
    (horder : order trace = [.snapshot, .commitWrite, .commitTruncation]) (k : StreamKey) :
    (view (RocksDatabase.commitPlan (write P {} db receiptTimeAndData).2
        (planTruncation db nPackets)) k).Agrees ↔
      ¬ Loses db nPackets receiptTimeAndData trace k := by
  rw [hdb.wellFormed.view_commitPlan, hdb.wellFormed.view_write, ← StreamView.write_entry,
    (hdb.valid k).agrees_purge_write_iff, itemNumbers_updatesAt_items]
  constructor
  · rintro h ⟨e, b, he, hb, ⟨hwrong, -⟩ | ⟨-, hmin, hlose⟩⟩
    · rw [horder] at hwrong
      cases hwrong
    · obtain ⟨hminCut, hmaxCut⟩ := hdb.lt_cutoffOf_entry_iff nPackets he
      have hcut := hminCut.2 hmin
      obtain ⟨hreaped, hkept⟩ := h e b he hb hcut
      rcases hlose with ⟨hmax, hpast⟩ | ⟨hmax, hnewer⟩
      · exact hpast ((lt_cutoffOf_iff_of_lt hcut hmin.1).1 (hreaped (hmaxCut.2 hmax)))
      · exact absurd (hkept (not_lt.1 (mt hmaxCut.1 hmax))) (not_le.2 hnewer)
  · intro h e b he hb hcut
    obtain ⟨hminCut, hmaxCut⟩ := hdb.lt_cutoffOf_entry_iff nPackets he
    have hmin := hminCut.1 hcut
    refine ⟨fun hreaped => ?_, fun hkept => ?_⟩
    · by_contra hpast
      rw [lt_cutoffOf_iff_of_lt hcut hmin.1] at hpast
      exact h ⟨e, b, he, hb, Or.inr ⟨horder, hmin, Or.inl ⟨hmaxCut.1 hreaped, hpast⟩⟩⟩
    · by_contra hnewer
      refine h ⟨e, b, he, hb, Or.inr ⟨horder, hmin, Or.inr ⟨?_, not_le.1 hnewer⟩⟩⟩
      exact mt hmaxCut.2 (not_lt.2 hkept)

/-- A write that commits over a truncation, with entries read before or after it. -/
theorem Sound.agrees_staleWrite_iff {db : Database CF} (hdb : Sound db) (P : Platform)
    (receiptTimeAndData : List (Int64 × Packet)) (nPackets : UInt64) {trace : List ThreadEvent}
    (horder : order trace = [.snapshot, .commitTruncation, .commitWrite]) (k : StreamKey) :
    (view ((truncateOldest false db nPackets).2.commit
        (planWrite P (readOf nPackets db trace) receiptTimeAndData).2) k).Agrees ↔
      ¬ Loses db nPackets receiptTimeAndData trace k := by
  have hvalid := hdb.valid k
  rw [hdb.wellFormed.view_staleWrite]
  by_cases hearly : k.bytes ∈ earlyReads trace
  · rw [if_pos hearly, hvalid.agrees_write_truncate_iff, itemNumbers_updatesAt_items]
    constructor
    · rintro h ⟨e, b, he, hb, ⟨-, -, hmax, holder⟩ | ⟨hwrong, -⟩⟩
      · have hreaped := (hdb.lt_cutoffOf_entry_iff nPackets he).2.2 hmax
        exact absurd (h e b he hb hreaped) (not_le.2 holder)
      · rw [horder] at hwrong
        cases hwrong
    · intro h e b he hb hreaped
      by_contra holder
      have hmax := (hdb.lt_cutoffOf_entry_iff nPackets he).2.1 hreaped
      exact h ⟨e, b, he, hb, Or.inl ⟨horder, hearly, hmax, not_le.1 holder⟩⟩
  · rw [if_neg hearly]
    refine iff_of_true ((hvalid.truncate _).valid_write _).agrees ?_
    rintro ⟨e, b, -, -, ⟨-, hread, -⟩ | ⟨hwrong, -⟩⟩
    · exact hearly hread
    · rw [horder] at hwrong
      cases hwrong

end Database

/-- **One write and one truncation at the same time.**  From every store that a run
of complete calls reaches, and in every interleaving of the two, the registry
agrees with the packets in the end exactly when the interleaving loses no update
of any stream. -/
theorem registryAgrees_iff (P : Platform) (history : List Call)
    (receiptTimeAndData : List (Int64 × Packet)) (nPackets : UInt64) {trace : List ThreadEvent}
    {t : Threads CF} (hrun : ThreadRun P receiptTimeAndData nPackets (run P history) trace t)
    (hfinished : t.Finished) :
    RegistryAgrees t.db ↔
      ∀ k, ¬ Loses (run P history : Database CF) nPackets receiptTimeAndData trace k := by
  have hdb : (run P history : Database CF).Sound := Database.sound_run P history
  have hsituation := situation_run hrun
  generalize horder : order trace = o at hsituation
  obtain ⟨hwriter, htruncator⟩ := hfinished
  cases hsituation with
  | oneAfterTheOther =>
      have hsound := (hdb.step P (.write false receiptTimeAndData)).step P
        (.truncateOldest false nPackets)
      have hagrees := hsound.wellFormed.registryAgrees_iff_agrees.2 fun k => (hsound.valid k).agrees
      refine iff_of_true hagrees ?_
      rintro k ⟨e, b, -, -, ⟨hwrong, -⟩ | ⟨hwrong, -⟩⟩ <;>
      · rw [horder] at hwrong
        cases hwrong
  | staleTruncation =>
      have hwritten := hdb.wellFormed.write P false receiptTimeAndData
      rw [(hdb.wellFormed.commitPlan hwritten nPackets).registryAgrees_iff_agrees]
      exact forall_congr' (hdb.agrees_staleTruncation_iff P receiptTimeAndData nPackets horder)
  | staleWrite =>
      have htruncated := hdb.wellFormed.truncateOldest false nPackets
      rw [(htruncated.planWrite P _ _).registryAgrees_iff_agrees]
      exact forall_congr' (hdb.agrees_staleWrite_iff P receiptTimeAndData nPackets horder)
  | reading => cases hwriter
  | readingPlanned => cases hwriter
  | readingTruncated => cases hwriter
  | written => cases htruncator
  | writtenPlanned => cases htruncator
  | overtaken => cases htruncator

/-- The start of a write of packet 2 to the store that holds packet 1. -/
theorem threadRun_samplePacket :
    ThreadRun .protobuf [(6, samplePacket 2)] 1
      (run .protobuf [.write false [(5, samplePacket 1)]] : Database (SortedTable Bytes Bytes)) []
      ⟨run .protobuf [.write false [(5, samplePacket 1)]],
        .merging [(slots (canonical (samplePacket 2).streamIdentifier), ⟨2, 2, 6⟩)]
          ([(6, samplePacket 2)].foldl (writePacket .protobuf) {}).batch, .started⟩ := by
  have hmerge : streamsToMerge .protobuf [(6, samplePacket 2)]
      = [(slots (canonical (samplePacket 2).streamIdentifier), ⟨2, 2, 6⟩)] := by decide +kernel
  rw [← hmerge]
  exact .nil

/-- A write that reads the entry after the truncation reaped it leaves a registry
that agrees. -/
theorem registryAgrees_iff_samplePacket :
    ∃ (trace : List ThreadEvent) (t : Threads (SortedTable Bytes Bytes)),
      ThreadRun .protobuf [(6, samplePacket 2)] 1
        (run .protobuf [.write false [(5, samplePacket 1)]]) trace t ∧
      order trace = [.snapshot, .commitTruncation, .commitWrite] ∧ RegistryAgrees t.db := by
  have hrun := (((threadRun_samplePacket.concat .snapshot).concat .commitTruncation).concat
    .get).concat .commitWrite
  refine ⟨_, _, hrun, rfl, (registryAgrees_iff _ _ _ _ hrun ⟨rfl, rfl⟩).2 fun k => ?_⟩
  rintro ⟨e, b, -, -, ⟨-, hread, -⟩ | ⟨hwrong, -⟩⟩
  · exact absurd hread List.not_mem_nil
  · cases hwrong

/-- **A truncation that saw the registry before a write and commits after it**
deletes the entry of a stream that holds packet 2. -/
theorem not_registryAgrees_samplePacket :
    ¬ ∀ (history : List Call) (receiptTimeAndData : List (Int64 × Packet)) (nPackets : UInt64)
      (trace : List ThreadEvent) (t : Threads (SortedTable Bytes Bytes)),
      ThreadRun .protobuf receiptTimeAndData nPackets (run .protobuf history) trace t →
      t.Finished → RegistryAgrees t.db := by
  intro h
  have hrun := (((threadRun_samplePacket.concat .snapshot).concat .get).concat
    .commitWrite).concat .commitTruncation
  have hagrees := h _ _ _ _ _ hrun ⟨rfl, rfl⟩
  generalize hdb : Threads.db _ = db at hagrees
  have hpacket : (OrderedStore.get db.packets
      (slots (canonical (samplePacket 2).streamIdentifier) ++ bigEndian64 2)).isSome := by
    rw [← hdb]
    decide +kernel
  have hstreams : OrderedStore.entries db.streams = [] := by
    rw [← hdb]
    decide +kernel
  obtain ⟨packet, hpacket⟩ := Option.isSome_iff_exists.1 hpacket
  have hkey : toStreamKey (samplePacket 2).streamIdentifier
      = .ok (slots (canonical (samplePacket 2).streamIdentifier)) := by decide +kernel
  obtain ⟨value, hline, -⟩ := hagrees ⟨_, _, hkey⟩
    ⟨2, packet, (OrderedStore.mem_entries _ _ _).2 hpacket⟩
  rw [hstreams] at hline
  exact absurd hline List.not_mem_nil

end RocksDatabase
end UDataPacketBroker
