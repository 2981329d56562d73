/-
# Sequence numbers across a restart

A broker starts counting at `getGlobalSequenceNumber`, which its store documents
as the number last written before the shutdown.  The store does not keep that
number: it is the largest one the registry still mentions.  Writes only raise
it, and so does a truncation that leaves the packet with the largest number in
place.  A truncation that purges every packet empties the registry and resets
the number to 0, as the store's test expects, and the next broker hands out
numbers that were used before (`neverReuses_iff`).
-/

import UDataPacketBroker.Broker.Sequencing
import UDataPacketBroker.RocksDatabase.Calls

namespace UDataPacketBroker
namespace RocksDatabase

open Library Utilities

variable {CF : Type} [OrderedStore CF Bytes Bytes]

/-- The sequence numbers of the packets that successful writes of `history` stored. -/
def writtenNumbers (history : List Call) : Set UInt64 :=
  {s | ∃ receiptTimeAndData receiptTime packet, Call.write false receiptTimeAndData ∈ history ∧
    (receiptTime, packet) ∈ receiptTimeAndData ∧ IsEncodable packet.streamIdentifier ∧
    packet.sequenceNumber = s}

/-- **A store that a broker can be restarted on:** its global number is past every
number written, and a broker that counts on from it, short of a wrap of its
64-bit counter, gives no packet a number written before. -/
def NeverReuses (db : Database CF) (written : Set UInt64) : Prop :=
  (∀ s ∈ written, s ≤ getGlobalSequenceNumber db) ∧
  ∀ (ι : Type) (trace : List (Broker.Event ι)) (s : Broker.State ι),
    Broker.Run (Broker.State.initial (getGlobalSequenceNumber db)) trace s →
    (getGlobalSequenceNumber db).toNat + (Broker.taken trace).length < 2 ^ 64 →
    ∀ packet ∈ Broker.taken trace, packet.sequenceNumber ∉ written

/-- The truncation asks for the whole range of numbers, and the largest is not 0. -/
def PurgesAll (db : Database CF) (nPackets : UInt64) : Prop :=
  (snapshotRegistry db).entries ≠ [] ∧ (snapshotRegistry db).globalMax ≠ 0 ∧
    (snapshotRegistry db).NoWrap nPackets ∧
    (snapshotRegistry db).globalMax.toNat < (snapshotRegistry db).globalMin.toNat + nPackets.toNat

/-! ### Numbers that are stored -/

namespace Database

/-- Some stream holds a packet under the number. -/
def Stores (db : Database CF) (s : UInt64) : Prop := ∃ k r, (view db k).records s = some r

/-- No packet that is stored is past the number the store answers. -/
theorem Sound.le_getGlobalSequenceNumber {db : Database CF} (hdb : Sound db) {s : UInt64}
    (h : Stores db s) : s ≤ getGlobalSequenceNumber db := by
  obtain ⟨k, r, hr⟩ := h
  obtain ⟨e, he, -⟩ := (hdb.valid k).bounds s r hr
  exact (hdb.isGreatest_getGlobalSequenceNumber ⟨k, he ▸ Option.some_ne_none e⟩).2 ⟨k, r, hr⟩

/-- The global number is 0 or that of a stored packet. -/
theorem Sound.stores_getGlobalSequenceNumber {db : Database CF} (hdb : Sound db)
    (h : getGlobalSequenceNumber db ≠ 0) : Stores db (getGlobalSequenceNumber db) := by
  by_cases hempty : ∀ k, (view db k).entry = none
  · exact absurd (hdb.wellFormed.getGlobalSequenceNumber_of_entries_nil hempty) h
  · exact (hdb.isGreatest_getGlobalSequenceNumber (not_forall.1 hempty)).1

/-- The number the broker starts from only grows while its packet stays. -/
theorem Sound.getGlobalSequenceNumber_le {db db' : Database CF} (hdb : Sound db) (hdb' : Sound db')
    (h : Stores db (getGlobalSequenceNumber db) → Stores db' (getGlobalSequenceNumber db)) :
    getGlobalSequenceNumber db ≤ getGlobalSequenceNumber db' := by
  by_cases hzero : getGlobalSequenceNumber db = 0
  · rw [hzero]
    exact zero_le_uint64 _
  · exact hdb'.le_getGlobalSequenceNumber (h (hdb.stores_getGlobalSequenceNumber hzero))

/-- A write keeps what is stored, and stores its packets. -/
theorem Sound.stores_write_iff {db : Database CF} (hdb : Sound db) (P : Platform)
    (receiptTimeAndData : List (Int64 × Packet)) (s : UInt64) :
    Stores (write P {} db receiptTimeAndData).2 s ↔
      Stores db s ∨ s ∈ writtenNumbers [.write false receiptTimeAndData] := by
  have hitems : s ∈ writtenNumbers [.write false receiptTimeAndData] ↔
      ∃ k, ∃ i ∈ updatesAt (items P receiptTimeAndData) k, i.1 = s := by
    constructor
    · rintro ⟨data, t, packet, hcall, hmem, hencodable, rfl⟩
      obtain rfl : data = receiptTimeAndData := by simpa using hcall
      obtain ⟨k, hk⟩ := Option.ne_none_iff_exists'.1
        (mt StreamKey.ofIdentifier?_eq_none_iff.1 (not_not.2 hencodable))
      exact ⟨k, _, mem_updatesAt_items.2 ⟨t, packet, hmem, hk, rfl⟩, rfl⟩
    · rintro ⟨k, i, hi, rfl⟩
      obtain ⟨t, packet, hmem, hk, rfl⟩ := mem_updatesAt_items.1 hi
      exact ⟨_, t, packet, List.mem_cons_self, hmem,
        (StreamKey.ofIdentifier?_eq_some_iff_canonical.1 hk).1, rfl⟩
  rw [hitems, Stores, Stores, ← exists_or]
  refine exists_congr fun k => ?_
  rw [hdb.wellFormed.view_write, ← StreamView.write_entry]
  exact Set.ext_iff.1 (StreamView.numbers_write _ _ _) s

/-- A truncation keeps what is stored from its cutoff on. -/
theorem Sound.stores_truncateOldest_iff {db : Database CF} (hdb : Sound db) (nPackets s : UInt64) :
    Stores (truncateOldest false db nPackets).2 s ↔ Stores db s ∧ cutoffOf db nPackets ≤ s := by
  unfold Stores
  rw [← exists_and_right]
  refine exists_congr fun k => ?_
  rw [hdb.wellFormed.view_truncateOldest]
  exact Set.ext_iff.1 (StreamView.numbers_of_records_eq ((hdb.valid k).records_truncate _)) s

/-- When the packet with the largest number falls below the cutoff. -/
theorem Sound.globalMax_lt_cutoffOf_iff {db : Database CF} (hdb : Sound db) {nPackets : UInt64}
    (hne : (snapshotRegistry db).entries ≠ []) :
    (snapshotRegistry db).globalMax < cutoffOf db nPackets ↔
      (snapshotRegistry db).NoWrap nPackets ∧ (snapshotRegistry db).globalMax.toNat
        < (snapshotRegistry db).globalMin.toNat + nPackets.toNat := by
  have hle := hdb.globalMin_le_globalMax hne
  rw [lt_cutoffOf_iff nPackets hne hle hle, Snapshot.purgeBound, lt_min_iff]
  exact and_congr_right fun _ => and_iff_left (Nat.lt_succ_self _)

/-- **A call lowers the global number only by purging all packets.** -/
theorem Sound.getGlobalSequenceNumber_step_le {db : Database CF} (hdb : Sound db) (P : Platform)
    {call : Call} (h : ∀ nPackets, call = .truncateOldest false nPackets → ¬ PurgesAll db nPackets) :
    getGlobalSequenceNumber db ≤ getGlobalSequenceNumber (RocksDatabase.step P db call) := by
  cases call with
  | write writeFails receiptTimeAndData =>
      cases writeFails with
      | true =>
          rw [RocksDatabase.step, write_snd, if_pos rfl]
      | false =>
          refine hdb.getGlobalSequenceNumber_le (hdb.step P (.write false _)) fun hs => ?_
          exact (hdb.stores_write_iff P receiptTimeAndData _).2 (Or.inl hs)
  | truncateOldest writeFails nPackets =>
      cases writeFails with
      | true =>
          rw [RocksDatabase.step, truncateOldest_snd, if_pos rfl]
      | false =>
          by_cases hzero : getGlobalSequenceNumber db = 0
          · rw [hzero]
            exact zero_le_uint64 _
          refine hdb.getGlobalSequenceNumber_le (hdb.step P (.truncateOldest false _)) fun hs => ?_
          refine (hdb.stores_truncateOldest_iff nPackets _).2 ⟨hs, not_lt.1 fun hlt => ?_⟩
          obtain ⟨k, r, hr⟩ := hs
          obtain ⟨e, he, -⟩ := (hdb.valid k).bounds _ r hr
          obtain ⟨hne, -⟩ := hdb.wellFormed.entry_bounds he
          rw [hdb.wellFormed.getGlobalSequenceNumber_eq] at hzero hlt
          exact h nPackets rfl ⟨hne, hzero, (hdb.globalMax_lt_cutoffOf_iff hne).1 hlt⟩
  | flushAndReopen => exact le_rfl

/-- Purging all packets resets the global number. -/
theorem Sound.getGlobalSequenceNumber_of_purgesAll {db : Database CF} (hdb : Sound db)
    (P : Platform) {nPackets : UInt64} (h : PurgesAll db nPackets) :
    getGlobalSequenceNumber (RocksDatabase.step P db (.truncateOldest false nPackets)) = 0 := by
  obtain ⟨hne, -, hall⟩ := h
  have hdb' := hdb.step P (.truncateOldest false nPackets)
  refine hdb'.wellFormed.getGlobalSequenceNumber_of_entries_nil fun k => ?_
  rw [← Option.not_isSome_iff_eq_none, (hdb'.valid k).entry_isSome_iff]
  rintro ⟨s, r, hr⟩
  obtain ⟨hs, hle⟩ := (hdb.stores_truncateOldest_iff nPackets s).1 ⟨k, r, hr⟩
  have hmax := hdb.le_getGlobalSequenceNumber hs
  rw [hdb.wellFormed.getGlobalSequenceNumber_eq] at hmax
  exact absurd ((hdb.globalMax_lt_cutoffOf_iff hne).2 hall) (not_lt.2 (hle.trans hmax))

end Database

/-! ### Runs -/

/-- What is written in a history in two parts. -/
theorem writtenNumbers_append (history history' : List Call) :
    writtenNumbers (history ++ history') = writtenNumbers history ∪ writtenNumbers history' := by
  ext s
  constructor
  · rintro ⟨data, t, packet, hcall, h⟩
    exact (List.mem_append.1 hcall).imp (⟨data, t, packet, ·, h⟩) (⟨data, t, packet, ·, h⟩)
  · rintro (⟨data, t, packet, hcall, h⟩ | ⟨data, t, packet, hcall, h⟩)
    · exact ⟨data, t, packet, List.mem_append_left _ hcall, h⟩
    · exact ⟨data, t, packet, List.mem_append_right _ hcall, h⟩

/-- Only a successful write stores new numbers. -/
theorem stores_step {db : Database CF} (hdb : db.Sound) (P : Platform) {call : Call} {s : UInt64}
    (h : (step P db call).Stores s) : db.Stores s ∨ s ∈ writtenNumbers [call] := by
  cases call with
  | write writeFails receiptTimeAndData =>
      cases writeFails with
      | true =>
          rw [step, Database.write_snd, if_pos rfl] at h
          exact Or.inl h
      | false => exact (hdb.stores_write_iff P receiptTimeAndData s).1 h
  | truncateOldest writeFails nPackets =>
      cases writeFails with
      | true =>
          rw [step, Database.truncateOldest_snd, if_pos rfl] at h
          exact Or.inl h
      | false => exact Or.inl ((hdb.stores_truncateOldest_iff nPackets s).1 h).1
  | flushAndReopen => exact Or.inl h

/-- What a run leaves stored, it wrote. -/
theorem stores_run (P : Platform) (history : List Call) {s : UInt64}
    (h : (run P history : Database CF).Stores s) : s ∈ writtenNumbers history := by
  induction history using List.reverseRecOn with
  | nil =>
      obtain ⟨k, r, hr⟩ := h
      rw [run_nil, Database.view_empty] at hr
      cases hr
  | append_singleton history call ih =>
      have hsound : (run P history : Database CF).Sound := Database.sound_run P history
      rw [run_concat] at h
      rw [writtenNumbers_append]
      exact (stores_step hsound P h).imp ih id

/-- **Without a truncation that purges all, the global number is past everything
written.** -/
theorem le_getGlobalSequenceNumber_run (P : Platform) (history : List Call)
    (h : ∀ before nPackets after, history = before ++ .truncateOldest false nPackets :: after →
      ¬ PurgesAll (run P before : Database CF) nPackets) {s : UInt64}
    (hs : s ∈ writtenNumbers history) : s ≤ getGlobalSequenceNumber (run P history : Database CF) := by
  induction history using List.reverseRecOn with
  | nil =>
      obtain ⟨_, _, _, hcall, -⟩ := hs
      exact absurd hcall List.not_mem_nil
  | append_singleton history call ih =>
      have hsound : (run P history : Database CF).Sound := Database.sound_run P history
      rw [run_concat]
      rw [writtenNumbers_append] at hs
      rcases hs with hs | hs
      · refine (ih (fun before nPackets after heq => ?_) hs).trans
          (hsound.getGlobalSequenceNumber_step_le P fun nPackets hcall => ?_)
        · exact h before nPackets (after ++ [call]) (by rw [heq]; simp)
        · exact h history nPackets [] (by rw [hcall])
      · obtain ⟨data, t, packet, hcall, hrest⟩ := hs
        obtain rfl := List.mem_singleton.1 hcall
        refine (hsound.step P (.write false data)).le_getGlobalSequenceNumber ?_
        exact (hsound.stores_write_iff P data s).2 (Or.inr ⟨data, t, packet, hcall, hrest⟩)

/-- A broker that counts on from a number past everything written reuses nothing. -/
theorem neverReuses_of_le {db : Database CF} {written : Set UInt64}
    (h : ∀ s ∈ written, s ≤ getGlobalSequenceNumber db) : NeverReuses db written := by
  refine ⟨h, fun ι trace s hrun hwrap packet hpacket hwritten => ?_⟩
  have hnumbers := (Broker.imported_run hrun).sequenceNumbers_taken hwrap
  have hmem : packet.sequenceNumber.toNat ∈ Broker.sequenceNumbers (Broker.taken trace) :=
    List.mem_map_of_mem hpacket
  rw [hnumbers, List.mem_range'_1] at hmem
  have hle := UInt64.le_iff_toNat_le.1 (h _ hwritten)
  omega

/-- **When sequence numbers are never reused.**  At every point of a run a broker
can be restarted without reusing a number, exactly when no truncation of the run
purges all packets of a store whose largest number is not 0. -/
theorem neverReuses_iff (P : Platform) (history : List Call) :
    (∀ before after, history = before ++ after →
      NeverReuses (run P before : Database CF) (writtenNumbers before)) ↔
    ∀ before nPackets after, history = before ++ .truncateOldest false nPackets :: after →
      ¬ PurgesAll (run P before : Database CF) nPackets := by
  constructor
  · rintro h before nPackets after heq hpurges
    have hsound : (run P before : Database CF).Sound := Database.sound_run P before
    obtain ⟨hle, -⟩ := h (before ++ [.truncateOldest false nPackets]) after (by rw [heq]; simp)
    have hne : getGlobalSequenceNumber (run P before : Database CF) ≠ 0 := by
      rw [hsound.wellFormed.getGlobalSequenceNumber_eq]
      exact hpurges.2.1
    have hwritten := stores_run P before (hsound.stores_getGlobalSequenceNumber hne)
    have hreset := hle _ (by rw [writtenNumbers_append]; exact Or.inl hwritten)
    rw [run_concat, hsound.getGlobalSequenceNumber_of_purgesAll P hpurges] at hreset
    exact hne (le_antisymm hreset (zero_le_uint64 _))
  · rintro h before after rfl
    refine neverReuses_of_le fun s hs => le_getGlobalSequenceNumber_run P before ?_ hs
    rintro before' nPackets after' rfl
    exact h before' nPackets (after' ++ after) (by simp)

/-- **Purging the only packet resets the counter,** and the next broker gives its
first packet the number the purged one carried. -/
theorem not_neverReuses_samplePacket :
    ¬ NeverReuses (run .protobuf [.write false [(5, samplePacket 1)], .truncateOldest false 1] :
        Database (SortedTable Bytes Bytes))
      (writtenNumbers [.write false [(5, samplePacket 1)], .truncateOldest false 1]) ∧
    ∃ s : Broker.State ℕ, Broker.Run (.initial (getGlobalSequenceNumber (run .protobuf
        [.write false [(5, samplePacket 1)], .truncateOldest false 1] :
          Database (SortedTable Bytes Bytes))))
        [.accepted 0 (samplePacket 0), .entered 0 (samplePacket 0), .took (samplePacket 1)] s ∧
      1 ∈ writtenNumbers [.write false [(5, samplePacket 1)], .truncateOldest false 1] := by
  have hwritten : 1 ∈ writtenNumbers
      [.write false [(5, samplePacket 1)], .truncateOldest false 1] :=
    ⟨_, 5, samplePacket 1, List.mem_cons_self, List.mem_cons_self, by decide, rfl⟩
  have hreset : getGlobalSequenceNumber (run .protobuf
      [.write false [(5, samplePacket 1)], .truncateOldest false 1] :
        Database (SortedTable Bytes Bytes)) = 0 := by decide +kernel
  refine ⟨fun h => absurd (h.1 1 hwritten) (by rw [hreset]; decide), ?_⟩
  rw [hreset]
  have hstart : Broker.Run (Broker.State.initial 0 : Broker.State ℕ) [] _ := Broker.Run.nil
  have hentered := (hstart.concat
    (@Broker.Step.accept ℕ _ 0 (samplePacket 0) (by decide) (by decide))).concat
    (@Broker.Step.enqueue ℕ _ 0 (samplePacket 0) [] [] rfl)
  have hrun := hentered.concat (Broker.Step.take 0 rfl rfl)
  exact ⟨_, hrun, hwritten⟩

end RocksDatabase
end UDataPacketBroker
