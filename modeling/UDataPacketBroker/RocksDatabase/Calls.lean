/-
# Runs of calls

A store is used by one complete call after another: `write`, `truncateOldest`,
each with either outcome of its `Write`, and a shutdown that flushes and reopens.
Registry reads succeed.  Every store such a run reaches is `Sound`: its keys and
values have the documented layout, and each stream satisfies the registry
invariant.
-/

import UDataPacketBroker.Proto.Wire
import UDataPacketBroker.RocksDatabase.Reads

namespace UDataPacketBroker
namespace RocksDatabase

open Library Utilities

/-- One complete call. -/
inductive Call where
  | write (writeFails : Bool) (receiptTimeAndData : List (Int64 × Packet))
  | truncateOldest (writeFails : Bool) (nPackets : UInt64)
  /-- `flush`, and opening the directory again: both column families persist. -/
  | flushAndReopen

variable {CF : Type} [OrderedStore CF Bytes Bytes]

/-- The store after a call. -/
def step (P : Platform) (db : Database CF) : Call → Database CF
  | .write writeFails receiptTimeAndData =>
    (write P { writeFails := writeFails } db receiptTimeAndData).2
  | .truncateOldest writeFails nPackets => (truncateOldest writeFails db nPackets).2
  | .flushAndReopen => db

/-- The store after a run of calls, from an empty directory. -/
def run (P : Platform) (history : List Call) : Database CF :=
  history.foldl (step P) Database.empty

/-- Before the first call the store is empty. -/
@[simp] theorem run_nil (P : Platform) : (run P [] : Database CF) = Database.empty := rfl

/-- One more call. -/
@[simp] theorem run_concat (P : Platform) (history : List Call) (call : Call) :
    (run P (history ++ [call]) : Database CF) = step P (run P history) call := by
  rw [run, List.foldl_append]
  rfl

namespace Database

/-- **What every run keeps true of a store.** -/
structure Sound (db : Database CF) : Prop where
  wellFormed : WellFormed db
  valid (k : StreamKey) : (view db k).Valid

/-- An empty store is sound. -/
theorem sound_empty : Sound (empty : Database CF) := by
  refine ⟨wellFormed_empty, fun k => ?_⟩
  rw [view_empty]
  exact StreamView.valid_empty

/-- A call keeps a store sound, whether its `Write` succeeds or fails. -/
theorem Sound.step {db : Database CF} (hdb : Sound db) (P : Platform) (call : Call) :
    Sound (step P db call) := by
  cases call with
  | write writeFails receiptTimeAndData =>
      refine ⟨hdb.wellFormed.write P writeFails receiptTimeAndData, fun k => ?_⟩
      cases writeFails with
      | true =>
          rw [RocksDatabase.step, write_snd, if_pos rfl]
          exact hdb.valid k
      | false =>
          rw [RocksDatabase.step, hdb.wellFormed.view_write]
          exact (hdb.valid k).foldl_append _
  | truncateOldest writeFails nPackets =>
      refine ⟨hdb.wellFormed.truncateOldest writeFails nPackets, fun k => ?_⟩
      rw [RocksDatabase.step, truncateOldest_snd]
      split_ifs
      · exact hdb.valid k
      · rw [hdb.wellFormed.view_truncateOldest]
        exact (hdb.valid k).truncate _
  | flushAndReopen => exact hdb

/-- **Every store a run reaches is sound.** -/
theorem sound_run (P : Platform) (history : List Call) : Sound (run P history : Database CF) := by
  induction history using List.reverseRecOn with
  | nil => exact sound_empty
  | append_singleton history call ih =>
      rw [run_concat]
      exact ih.step P call

/-- The overall bounds of a sound store are in order. -/
theorem Sound.globalMin_le_globalMax {db : Database CF} (hdb : Sound db)
    (hne : (snapshotRegistry db).entries ≠ []) :
    (snapshotRegistry db).globalMin ≤ (snapshotRegistry db).globalMax := by
  obtain ⟨⟨⟨k, e, he, hmin⟩, -⟩, -, hub⟩ := hdb.wellFormed.snapshotRegistry_bounds hne
  rw [← hmin]
  exact ((hdb.valid k).min_le_max he).trans (hub ⟨k, e, he, rfl⟩)

/-- The greatest number of a sound store, in its registry and in its packets. -/
theorem Sound.isGreatest_getGlobalSequenceNumber {db : Database CF} (hdb : Sound db)
    (hne : ∃ k, (view db k).entry ≠ none) :
    IsGreatest {s | ∃ k r, (view db k).records s = some r} (getGlobalSequenceNumber db) := by
  have hentries : (snapshotRegistry db).entries ≠ [] := by
    rw [Ne, hdb.wellFormed.snapshotRegistry_entries_eq_nil_iff]
    exact not_forall.2 hne
  obtain ⟨-, ⟨k, e, he, hmax⟩, hub⟩ := hdb.wellFormed.snapshotRegistry_bounds hentries
  rw [hdb.wellFormed.getGlobalSequenceNumber_eq]
  constructor
  · obtain ⟨r, hr⟩ := (hdb.valid k).max_stored e he
    exact ⟨k, r, hmax ▸ hr⟩
  · rintro s ⟨k', r, hr⟩
    obtain ⟨e', he', -, hle⟩ := (hdb.valid k').bounds s r hr
    exact hle.trans (hub ⟨k', e', he', rfl⟩)

/-- An empty registry has no greatest number, and 0 stands for it. -/
theorem WellFormed.getGlobalSequenceNumber_of_entries_nil {db : Database CF} (hdb : WellFormed db)
    (h : ∀ k, (view db k).entry = none) : getGlobalSequenceNumber db = 0 := by
  obtain ⟨l, hl⟩ := hdb.exists_lists
  have hnil : l = [] := List.eq_nil_iff_forall_not_mem.2 fun e he => by
    rw [hl.mem_iff, h] at he
    cases he
  rw [hdb.getGlobalSequenceNumber_eq, hl.snapshotRegistry_eq, hnil]
  rfl

/-- A call keeps the documented layout, whatever the registry says. -/
theorem WellFormed.step {db : Database CF} (hdb : WellFormed db) (P : Platform) (call : Call) :
    WellFormed (RocksDatabase.step P db call) := by
  cases call with
  | write writeFails receiptTimeAndData => exact hdb.write P writeFails receiptTimeAndData
  | truncateOldest writeFails nPackets => exact hdb.truncateOldest writeFails nPackets
  | flushAndReopen => exact hdb

/-- **A record after a call was there before, or the call wrote it.** -/
theorem WellFormed.of_records_step {db : Database CF} (hdb : WellFormed db) {P : Platform}
    {call : Call} {k : StreamKey} {s : UInt64} {record : Record}
    (h : (view (RocksDatabase.step P db call) k).records s = some record) :
    (view db k).records s = some record ∨
      ∃ receiptTimeAndData receiptTime packet, call = .write false receiptTimeAndData ∧
        (receiptTime, packet) ∈ receiptTimeAndData ∧
        StreamKey.ofIdentifier? packet.streamIdentifier = some k ∧ packet.sequenceNumber = s ∧
        record = ⟨receiptTime, P.appendToString packet⟩ := by
  cases call with
  | write writeFails receiptTimeAndData =>
      cases writeFails with
      | true =>
          rw [RocksDatabase.step, write_snd, if_pos rfl] at h
          exact Or.inl h
      | false =>
          rw [RocksDatabase.step, hdb.view_write, StreamView.records_foldl_append] at h
          rcases StreamView.mem_of_foldl_putRecord h with hitem | hbefore
          · obtain ⟨receiptTime, packet, hmem, hk, hitem⟩ := mem_updatesAt_items.1 hitem
            cases hitem
            exact Or.inr ⟨receiptTimeAndData, receiptTime, packet, rfl, hmem, hk, rfl, rfl⟩
          · exact Or.inl hbefore
  | truncateOldest writeFails nPackets =>
      rw [RocksDatabase.step, truncateOldest_snd] at h
      split_ifs at h
      · exact Or.inl h
      · rw [hdb.view_truncateOldest] at h
        exact Or.inl (StreamView.records_of_records_truncate h)
  | flushAndReopen => exact Or.inl h

end Database

/-! ### A platform -/

/-- Protobuf's serializer, and a hash map walked in the order it was filled. -/
def Platform.protobuf : Platform where
  appendToString := Wire.serializePacket
  bucketOrder entries := entries
  bucketOrder_perm _ := List.Perm.refl _

end RocksDatabase
end UDataPacketBroker
