/-
# Registry reads that fail

`write` asks of a registry `Get` only whether it succeeded.  A read that fails is
taken for a stream that has no entry yet, and the entry is written afresh from the
batch alone.  The packets already stored under the stream then lie in the entry only
if the batch writes numbers on both sides of them (`bounded_write_iff`); those below
its minimum are what a later truncation skips.
-/

import UDataPacketBroker.RocksDatabase.Batches
import UDataPacketBroker.RocksDatabase.Progress

namespace UDataPacketBroker
namespace RocksDatabase

open Library Utilities

/-- The entry of some packets runs from the smallest of their numbers to the largest. -/
theorem StreamView.bounds_foldl_widen {items : List (UInt64 × Record)} {a : Aggregate}
    (h : items.foldl Aggregate.widen none = some a) :
    IsLeast (itemNumbers items) a.minSequenceNumber ∧
      IsGreatest (itemNumbers items) a.maxSequenceNumber := by
  have hmin : IsLeast {t | (∃ b : Aggregate, none = some b ∧ b.minSequenceNumber = t) ∨
      ∃ i ∈ items, (Aggregate.single i.1 i.2.receivedAt).minSequenceNumber = t}
      a.minSequenceNumber :=
    @Aggregate.isGreatest_foldl_widen UInt64ᵒᵈ _ Aggregate.minSequenceNumber (fun _ _ => rfl) _ _ _ h
  have hmax := Aggregate.isGreatest_foldl_widen Aggregate.maxSequenceNumber (fun _ _ => rfl) h
  constructor
  · simpa [itemNumbers, Aggregate.single] using hmin
  · simpa [itemNumbers, Aggregate.single] using hmax

namespace Aggregate

/-- Each of the numbers lies within the entry. -/
def Covers (entry : Option Aggregate) (numbers : Set UInt64) : Prop :=
  ∀ s ∈ numbers, ∃ e, entry = some e ∧ e.minSequenceNumber ≤ s ∧ s ≤ e.maxSequenceNumber

/-- An entry covers two sets if it covers each. -/
theorem covers_union_iff {entry : Option Aggregate} {numbers numbers' : Set UInt64} :
    Covers entry (numbers ∪ numbers') ↔ Covers entry numbers ∧ Covers entry numbers' := by
  simp only [Covers, Set.mem_union, or_imp, forall_and]

/-- A merge covers what the entry covered, -/
theorem Covers.merge {entry : Option Aggregate} {numbers : Set UInt64} (h : Covers entry numbers)
    (a : Aggregate) : Covers (some (entry.elim a a.merge)) numbers := by
  intro s hs
  obtain ⟨e, rfl, hmin, hmax⟩ := h s hs
  exact ⟨_, rfl, (min_le_right _ _).trans hmin, hmax.trans (le_max_right _ _)⟩

/-- and what is merged into it. -/
theorem Covers.merge_into {a : Aggregate} {numbers : Set UInt64} (h : Covers (some a) numbers)
    (entry : Option Aggregate) : Covers (some (entry.elim a a.merge)) numbers := by
  intro s hs
  obtain ⟨_, ⟨⟩, hmin, hmax⟩ := h s hs
  cases entry with
  | none => exact ⟨a, rfl, hmin, hmax⟩
  | some e => exact ⟨_, rfl, (min_le_left _ _).trans hmin, hmax.trans (le_max_left _ _)⟩

/-- The entry of some packets covers the numbers that lie between theirs. -/
theorem covers_foldl_widen_iff {items : List (UInt64 × Record)} {a : Aggregate}
    (h : items.foldl widen none = some a) {numbers : Set UInt64} :
    Covers (some a) numbers ↔ ∀ s ∈ numbers,
      (∃ t ∈ StreamView.itemNumbers items, t ≤ s) ∧ ∃ t ∈ StreamView.itemNumbers items, s ≤ t := by
  obtain ⟨hleast, hgreatest⟩ := StreamView.bounds_foldl_widen h
  refine forall_congr' fun s => forall_congr' fun hs => ?_
  constructor
  · rintro ⟨_, ⟨⟩, hmin, hmax⟩
    exact ⟨⟨_, hleast.1, hmin⟩, _, hgreatest.1, hmax⟩
  · rintro ⟨⟨t, ht, hle⟩, t', ht', hle'⟩
    exact ⟨a, rfl, (hleast.2 ht).trans hle, hle'.trans (hgreatest.2 ht')⟩

end Aggregate

variable {CF : Type} [OrderedStore CF Bytes Bytes]

namespace Database

/-- **Each packet lies within the registry entry of its stream.** -/
def Bounded (db : Database CF) : Prop :=
  ∀ k : StreamKey,
    Aggregate.Covers (readEntry (OrderedStore.get db.streams k.bytes)) (view db k).numbers

/-- **A sound store is bounded.** -/
theorem Sound.bounded {db : Database CF} (hdb : Sound db) : Bounded db := by
  rintro k s ⟨r, hr⟩
  obtain ⟨e, he, hmin, hmax⟩ := (hdb.valid k).bounds s r hr
  refine ⟨e, ?_, hmin, hmax⟩
  rw [readEntry_of_whole fun value hget => (hdb.wellFormed.streams _ value hget).2, ← entry_view]
  exact he

/-- The entry a stream has after a write: the old one as far as it was read, merged
with the summary of the batch. -/
theorem readEntry_write (P : Platform) (readFails : Bytes → Bool) (db : Database CF)
    (receiptTimeAndData : List (Int64 × Packet)) (k : StreamKey) :
    readEntry (OrderedStore.get (write P { readFails := readFails } db receiptTimeAndData).2.streams
        k.bytes) =
      (summary P receiptTimeAndData k).elim (readEntry (OrderedStore.get db.streams k.bytes))
        fun a => some ((readEntry (getExisting readFails db k.bytes)).elim a a.merge) := by
  rw [get_streams_write]
  cases summary P receiptTimeAndData k with
  | none => rfl
  | some a =>
      rw [Option.elim_some, Option.elim_some, ← mergeExisting_eq_readEntry]
      exact readEntry_map_encodeEntry (some _)

/-- The snapshot has the entries that can be read. -/
theorem mem_snapshotRegistry_of_readEntry {db : Database CF} {key : Bytes} {e : Aggregate}
    (h : readEntry (OrderedStore.get db.streams key) = some e) :
    ⟨key, e.minSequenceNumber, e.maxSequenceNumber, e.lastReceivedNanoSeconds⟩ ∈
      (snapshotRegistry db).entries := by
  cases hget : OrderedStore.get db.streams key with
  | none =>
      rw [hget] at h
      cases h
  | some value =>
      refine mem_snapshotRegistry_iff.2 ⟨value, hget, ?_⟩
      rw [hget] at h
      by_cases hlong : value.length ≥ streamsValueLength
      · simp only [readEntry, Option.filter, hlong, decide_true, if_true, Option.map_some,
          Option.some.injEq] at h
        rw [snapshotEntryOf, if_neg (not_lt.2 hlong), ← h]
        rfl
      · simp [readEntry, Option.filter, hlong] at h

/-- **After a truncation of a store that is bounded, nothing older than its cutoff is
left.** -/
theorem Bounded.cutoffOf_le {db : Database CF} (hdb : Bounded db) {nPackets : UInt64}
    {k : StreamKey} {s : UInt64}
    (hs : s ∈ (view (truncateOldest false db nPackets).2 k).numbers) :
    cutoffOf db nPackets ≤ s := by
  rw [← commitPlan_planTruncation] at hs
  unfold cutoffOf
  cases hplan : planTruncation db nPackets with
  | none => exact zero_le_uint64 s
  | some plan =>
      rw [hplan, commitPlan, planTruncation_snd hplan] at hs
      dsimp only
      generalize clampCutoff (snapshotRegistry db) nPackets = cutoff at hs ⊢
      by_contra hlt
      rw [not_le] at hlt
      obtain ⟨r, hr⟩ := hs
      rw [records_view] at hr
      obtain ⟨value, hafter, -⟩ := Option.map_eq_some_iff.1 hr
      cases hbefore : OrderedStore.get db.packets (k.packetKey s) with
      | none =>
          rw [get_packets_flatMap_truncateEntry_of_none cutoff _ hbefore] at hafter
          cases hafter
      | some value' =>
          have hmem : s ∈ (view db k).numbers :=
            ⟨decodeRecord value', by rw [records_view, hbefore]; rfl⟩
          obtain ⟨e, he, hmin, -⟩ := hdb k s hmem
          obtain ⟨hbegin, hend⟩ : k.packetKey 0 ≤ k.packetKey s ∧ k.packetKey s < k.packetKey cutoff :=
            StreamKey.packetKey_mem_range.2 ⟨rfl, zero_le_uint64 s, hlt⟩
          have hentry := mem_snapshotRegistry_of_readEntry he
          have hgone := @get_packets_flatMap_truncateEntry CF _ db cutoff _ _ hentry
            (lt_of_le_of_lt hmin hlt) _ hbegin hend
          rw [hgone] at hafter
          cases hafter

/-- **One stream of a write:** what its entry covers afterwards. -/
theorem Bounded.covers_write_iff {db : Database CF} (hdb : Bounded db) (P : Platform)
    (readFails : Bytes → Bool) (receiptTimeAndData : List (Int64 × Packet)) (k : StreamKey) :
    Aggregate.Covers
        (readEntry (OrderedStore.get
          (write P { readFails := readFails } db receiptTimeAndData).2.streams k.bytes))
        (view (write P { readFails := readFails } db receiptTimeAndData).2 k).numbers ↔
      (readFails k.bytes = true →
        (StreamView.itemNumbers (updatesAt (items P receiptTimeAndData) k)).Nonempty →
        ∀ s ∈ (view db k).numbers,
          (∃ t ∈ StreamView.itemNumbers (updatesAt (items P receiptTimeAndData) k), t ≤ s) ∧
            ∃ t ∈ StreamView.itemNumbers (updatesAt (items P receiptTimeAndData) k), s ≤ t) := by
  rw [readEntry_write, numbers_write, Aggregate.covers_union_iff]
  cases hsummary : summary P receiptTimeAndData k with
  | none =>
      -- the batch has no packet of the stream
      rw [Aggregate.foldl_widen_eq_none_iff.1 hsummary]
      refine iff_of_true ⟨hdb k, ?_⟩ ?_
      · rintro s ⟨i, hi, -⟩
        exact absurd hi List.not_mem_nil
      · rintro - ⟨_, i, hi, -⟩
        exact absurd hi List.not_mem_nil
  | some a =>
      have hnonempty := (StreamView.bounds_foldl_widen hsummary).1.nonempty
      have hbatch : Aggregate.Covers (some a)
          (StreamView.itemNumbers (updatesAt (items P receiptTimeAndData) k)) :=
        (Aggregate.covers_foldl_widen_iff hsummary).2 fun s hs => ⟨⟨s, hs, le_rfl⟩, s, hs, le_rfl⟩
      rw [Option.elim_some]
      by_cases hfails : readFails k.bytes = true
      · -- the entry is the batch's own
        have hread : getExisting readFails db k.bytes = none := if_pos hfails
        rw [hread, ← Aggregate.covers_foldl_widen_iff hsummary]
        exact ⟨fun h _ _ => h.1, fun h => ⟨h hfails hnonempty, hbatch⟩⟩
      · -- the entry is the old one widened
        have hread : getExisting readFails db k.bytes = OrderedStore.get db.streams k.bytes :=
          if_neg hfails
        rw [hread]
        exact iff_of_true ⟨(hdb k).merge a, hbatch.merge_into _⟩ fun h => absurd h hfails

end Database

/-- **When a write keeps the registry's bounds,** whichever of its registry reads fail:
under each stream of the batch whose read fails, the numbers already stored lie between
the smallest and the largest that the batch writes to it. -/
theorem bounded_write_iff (P : Platform) {db : Database CF} (hdb : db.Bounded)
    (readFails : Bytes → Bool) (receiptTimeAndData : List (Int64 × Packet)) :
    ((write P { readFails := readFails } db receiptTimeAndData).2.Bounded ∧
      ∀ nPackets k, ∀ s ∈ ((truncateOldest false
          (write P { readFails := readFails } db receiptTimeAndData).2 nPackets).2.view k).numbers,
        Database.cutoffOf (write P { readFails := readFails } db receiptTimeAndData).2 nPackets ≤ s) ↔
    ∀ k : StreamKey, readFails k.bytes = true →
      (StreamView.itemNumbers (updatesAt (items P receiptTimeAndData) k)).Nonempty →
      ∀ s ∈ (db.view k).numbers,
        (∃ t ∈ StreamView.itemNumbers (updatesAt (items P receiptTimeAndData) k), t ≤ s) ∧
          ∃ t ∈ StreamView.itemNumbers (updatesAt (items P receiptTimeAndData) k), s ≤ t := by
  refine ⟨fun h k => (hdb.covers_write_iff P readFails receiptTimeAndData k).1 (h.1 k), fun h => ?_⟩
  have hbounded : (write P { readFails := readFails } db receiptTimeAndData).2.Bounded :=
    fun k => (hdb.covers_write_iff P readFails receiptTimeAndData k).2 (h k)
  exact ⟨hbounded, fun nPackets k s hs => hbounded.cutoffOf_le hs⟩

/-- Packet 3 is stored, and the read for a batch of packets 1 and 5 fails: these cover it. -/
theorem bounded_write_iff_samplePacket :
    ∃ db : Database (SortedTable Bytes Bytes), db.Bounded ∧ getGlobalSequenceNumber db = 3 ∧
      (write .protobuf { readFails := fun _ => true } db
        [(6, samplePacket 1), (7, samplePacket 5)]).2.Bounded := by
  have hbounded : ((write .protobuf {} .empty [(5, samplePacket 3)]).2 :
      Database (SortedTable Bytes Bytes)).Bounded :=
    (Database.sound_run .protobuf [.write false [(5, samplePacket 3)]]).bounded
  refine ⟨_, hbounded, by decide +kernel,
    ((bounded_write_iff .protobuf hbounded (fun _ => true) _).2 ?_).1⟩
  intro k _ _ s hs
  rw [Database.numbers_write, Database.view_empty] at hs
  obtain ⟨r, hr⟩ | ⟨i, hi, rfl⟩ := hs
  · cases hr
  · obtain ⟨receiptTime, packet, hmem, hk, rfl⟩ := mem_updatesAt_items.1 hi
    obtain ⟨rfl, rfl⟩ := Prod.mk.inj (List.mem_singleton.1 hmem)
    -- the three packets are of one stream
    exact ⟨⟨1, ⟨_, mem_updatesAt_items.2 ⟨6, samplePacket 1, List.mem_cons_self, hk, rfl⟩, rfl⟩,
      by decide⟩, 5, ⟨_, mem_updatesAt_items.2 ⟨7, samplePacket 5,
      List.mem_cons_of_mem _ List.mem_cons_self, hk, rfl⟩, rfl⟩, by decide⟩

/-- **A read that fails forgets packet 1:** after a write of packet 5 whose registry
read failed, the entry of their stream starts at 5. -/
theorem not_bounded_write_samplePacket :
    ¬ ∀ (db : Database (SortedTable Bytes Bytes)) (readFails : Bytes → Bool)
      (receiptTimeAndData : List (Int64 × Packet)), db.Bounded →
      (write .protobuf { readFails := readFails } db receiptTimeAndData).2.Bounded := by
  intro h
  have hbounded := h (run .protobuf [.write false [(5, samplePacket 1)]]) (fun _ => true)
    [(6, samplePacket 5)] (Database.sound_run .protobuf _).bounded
  obtain ⟨db, hdb⟩ : ∃ db, (write .protobuf { readFails := fun _ => true }
      (run .protobuf [.write false [(5, samplePacket 1)]] : Database (SortedTable Bytes Bytes))
      [(6, samplePacket 5)]).2 = db := ⟨_, rfl⟩
  rw [hdb] at hbounded
  have hkey : toStreamKey (samplePacket 1).streamIdentifier
      = .ok (slots (canonical (samplePacket 1).streamIdentifier)) := by decide +kernel
  have hpacket : (OrderedStore.get db.packets
      (slots (canonical (samplePacket 1).streamIdentifier) ++ bigEndian64 1)).isSome := by
    rw [← hdb]
    decide +kernel
  have hentry : readEntry (OrderedStore.get db.streams
      (slots (canonical (samplePacket 1).streamIdentifier))) = some ⟨5, 5, 6⟩ := by
    rw [← hdb]
    decide +kernel
  obtain ⟨value, hvalue⟩ := Option.isSome_iff_exists.1 hpacket
  obtain ⟨e, he, hmin, -⟩ := hbounded ⟨_, _, hkey⟩ 1
    ⟨decodeRecord value, congrArg (Option.map decodeRecord) hvalue⟩
  obtain rfl := Option.some.inj (hentry.symm.trans he)
  exact absurd hmin (by decide)

end RocksDatabase
end UDataPacketBroker
