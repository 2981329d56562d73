/-
# What a truncation leaves of the registry

`truncateOldest` trusts the registry and looks at nothing else, so what it leaves of
the registry can be said of any store, sound or not: every entry of the snapshot
after it starts at the cutoff or later and keeps the largest number it had
(`exists_entry_of_truncation`).  The overall minimum rises to the cutoff, or no entry
is left; the overall maximum does not rise (`progress_truncateOldest`).
-/

import UDataPacketBroker.RocksDatabase.Calls

namespace UDataPacketBroker
namespace RocksDatabase

open Library Utilities

variable {CF : Type} [OrderedStore CF Bytes Bytes]

/-! ### Entries and registry values -/

/-- An entry of the snapshot is under its key. -/
theorem streamKey_of_snapshotEntryOf {keyValue : Bytes × Bytes} {e : Entry}
    (h : snapshotEntryOf keyValue = some e) : e.streamKey = keyValue.1 := by
  unfold snapshotEntryOf at h
  split_ifs at h
  rw [← Option.some.inj h]

/-- **A value of the registry is read back** into the snapshot. -/
theorem snapshotEntryOf_streamValue (key : Bytes) (minSequenceNumber maxSequenceNumber : UInt64)
    (lastReceivedNanoSeconds : Int64) :
    snapshotEntryOf (key, streamValue minSequenceNumber maxSequenceNumber lastReceivedNanoSeconds) =
      some ⟨key, minSequenceNumber, maxSequenceNumber, lastReceivedNanoSeconds⟩ := by
  have hlong := length_encodeEntry ⟨minSequenceNumber, maxSequenceNumber, lastReceivedNanoSeconds⟩
  have hdecode := decodeEntry_encodeEntry
    ⟨minSequenceNumber, maxSequenceNumber, lastReceivedNanoSeconds⟩
  rw [encodeEntry] at hlong hdecode
  obtain ⟨hmin, hmax, htime⟩ := Aggregate.mk.inj hdecode
  rw [snapshotEntryOf, if_neg (not_lt.2 hlong.ge), hmin, hmax, htime]

/-- **The snapshot lists what the registry holds.** -/
theorem mem_snapshotRegistry_iff {db : Database CF} {e : Entry} :
    e ∈ (snapshotRegistry db).entries ↔
      ∃ value, OrderedStore.get db.streams e.streamKey = some value ∧
        snapshotEntryOf (e.streamKey, value) = some e := by
  rw [snapshotRegistry_eq, List.mem_filterMap]
  constructor
  · rintro ⟨⟨key, value⟩, hmem, he⟩
    obtain rfl : e.streamKey = key := streamKey_of_snapshotEntryOf he
    exact ⟨value, (OrderedStore.mem_entries _ _ _).1 hmem, he⟩
  · rintro ⟨value, hget, he⟩
    exact ⟨_, (OrderedStore.mem_entries _ _ _).2 hget, he⟩

/-- The entries of the snapshot have distinct keys. -/
theorem nodup_snapshotRegistry (db : Database CF) :
    ((snapshotRegistry db).entries.map Entry.streamKey).Nodup := by
  rw [snapshotRegistry_eq, List.Nodup, List.pairwise_map, List.pairwise_filterMap]
  refine (OrderedStore.entries_sorted db.streams).imp fun hlt e he e' he' => ?_
  rw [streamKey_of_snapshotEntryOf he, streamKey_of_snapshotEntryOf he']
  exact hlt.ne

/-! ### The registry after a truncation -/

/-- The registry value of a truncated entry, which was `value` before. -/
def truncatedValue (cutoff : UInt64) (value : Option Bytes) (e : Entry) : Option Bytes :=
  if e.minSequenceNumber ≥ cutoff then value
  else if e.maxSequenceNumber < cutoff then none
  else some (streamValue cutoff e.maxSequenceNumber e.lastReceivedNanoSeconds)

/-- The registry after the updates for one entry. -/
theorem get_streams_truncateEntry (db : Database CF) (cutoff : UInt64) (e : Entry) :
    OrderedStore.get (db.commit (truncateEntry cutoff e)).streams =
      Function.update (OrderedStore.get db.streams) e.streamKey
        (truncatedValue cutoff (OrderedStore.get db.streams e.streamKey) e) := by
  unfold truncateEntry truncatedValue
  split_ifs with hskip hreap
  · exact (Function.update_eq_self _ _).symm
  · exact OrderedStore.get_delete_eq_update db.streams e.streamKey
  · exact OrderedStore.get_put_eq_update db.streams e.streamKey _

/-- Each key sees the updates for the entries under it. -/
theorem get_streams_flatMap_truncateEntry (db : Database CF) (cutoff : UInt64) (l : List Entry)
    (key : Bytes) :
    OrderedStore.get (db.commit (l.flatMap (truncateEntry cutoff))).streams key =
      (updatesAt (l.map fun e => (e.streamKey, e)) key).foldl (truncatedValue cutoff)
        (OrderedStore.get db.streams key) := by
  rw [← foldl_update_apply (truncatedValue cutoff)]
  induction l generalizing db with
  | nil => rfl
  | cons e l ih =>
      rw [List.flatMap_cons, Database.commit, List.foldl_append, List.map_cons, List.foldl_cons,
        ← get_streams_truncateEntry]
      exact ih (db.commit (truncateEntry cutoff e))

/-- **The registry after a truncation,** under the key of an entry it saw, -/
theorem get_streams_commit_truncation (db : Database CF) (cutoff : UInt64) {e : Entry}
    (he : e ∈ (snapshotRegistry db).entries) :
    OrderedStore.get (db.commit
        ((snapshotRegistry db).entries.flatMap (truncateEntry cutoff))).streams e.streamKey =
      truncatedValue cutoff (OrderedStore.get db.streams e.streamKey) e := by
  have hnodup : (((snapshotRegistry db).entries.map fun e => (e.streamKey, e)).map
      Prod.fst).Nodup := by
    rw [List.map_map]
    exact nodup_snapshotRegistry db
  have hmem : e ∈ updatesAt ((snapshotRegistry db).entries.map fun e => (e.streamKey, e))
      e.streamKey := mem_updatesAt.2 (List.mem_map_of_mem he)
  rw [get_streams_flatMap_truncateEntry]
  rw [updatesAt_of_nodup hnodup] at hmem ⊢
  rw [Option.mem_toList.1 hmem]
  rfl

/-- and under any other key. -/
theorem get_streams_commit_truncation_of_notMem (db : Database CF) (cutoff : UInt64) {key : Bytes}
    (h : ∀ e ∈ (snapshotRegistry db).entries, e.streamKey ≠ key) :
    OrderedStore.get (db.commit
        ((snapshotRegistry db).entries.flatMap (truncateEntry cutoff))).streams key =
      OrderedStore.get db.streams key := by
  have hnone : updatesAt ((snapshotRegistry db).entries.map fun e => (e.streamKey, e)) key = [] := by
    refine List.eq_nil_iff_forall_not_mem.2 fun e he => ?_
    obtain ⟨e', hmem, heq⟩ := List.mem_map.1 (mem_updatesAt.1 he)
    exact h e' hmem (Prod.mk.inj heq).1
  rw [get_streams_flatMap_truncateEntry, hnone]
  rfl

/-- **What a truncation leaves of an entry:** it starts at the cutoff or later, and
keeps its largest number. -/
theorem exists_entry_of_truncation {db : Database CF} {cutoff : UInt64} {e : Entry}
    (he : e ∈ (snapshotRegistry (db.commit
      ((snapshotRegistry db).entries.flatMap (truncateEntry cutoff)))).entries) :
    cutoff ≤ e.minSequenceNumber ∧
      ∃ e' ∈ (snapshotRegistry db).entries, e'.maxSequenceNumber = e.maxSequenceNumber := by
  obtain ⟨value, hget, hvalue⟩ := mem_snapshotRegistry_iff.1 he
  by_cases hseen : ∃ e' ∈ (snapshotRegistry db).entries, e'.streamKey = e.streamKey
  · obtain ⟨e', he', hkey⟩ := hseen
    rw [← hkey, get_streams_commit_truncation db cutoff he', truncatedValue] at hget
    split_ifs at hget with hskip hreap
    · -- skipped: the entry is the one before
      obtain ⟨value', hget', hvalue'⟩ := mem_snapshotRegistry_iff.1 he'
      rw [Option.some.inj (hget'.symm.trans hget), hkey, hvalue] at hvalue'
      obtain rfl := Option.some.inj hvalue'
      exact ⟨hskip, e, he', rfl⟩
    · rw [← Option.some.inj hget, snapshotEntryOf_streamValue] at hvalue
      rw [← Option.some.inj hvalue]
      exact ⟨le_rfl, e', he', rfl⟩
  · -- not seen: its value was not whole, and still is not
    have hne : ∀ e' ∈ (snapshotRegistry db).entries, e'.streamKey ≠ e.streamKey :=
      fun e' he' hkey => hseen ⟨e', he', hkey⟩
    rw [get_streams_commit_truncation_of_notMem db cutoff hne] at hget
    exact absurd rfl (hne e (mem_snapshotRegistry_iff.2 ⟨value, hget, hvalue⟩))

/-! ### The packets after a truncation -/

/-- The packets after the updates for one entry. -/
theorem get_packets_truncateEntry (db : Database CF) (cutoff : UInt64) (e : Entry) (key : Bytes) :
    OrderedStore.get (db.commit (truncateEntry cutoff e)).packets key =
      if e.minSequenceNumber < cutoff ∧ putBigEndian64 e.streamKey 0 ≤ key ∧
        key < putBigEndian64 e.streamKey cutoff then none
      else OrderedStore.get db.packets key := by
  by_cases hskip : e.minSequenceNumber ≥ cutoff
  · rw [truncateEntry, if_pos hskip, if_neg fun h => absurd h.1 (not_lt.2 hskip)]
    rfl
  · have hcommit : OrderedStore.get (db.commit (truncateEntry cutoff e)).packets key =
        OrderedStore.get (OrderedStore.deleteRange db.packets (putBigEndian64 e.streamKey 0)
          (putBigEndian64 e.streamKey cutoff)) key := by
      rw [truncateEntry, if_neg hskip]
      split_ifs <;> rfl
    rw [hcommit, OrderedStore.get_deleteRange]
    simp only [not_le.1 hskip, true_and]
    split_ifs <;> rfl

/-- A truncation adds no packet. -/
theorem get_packets_flatMap_truncateEntry_of_none {db : Database CF} (cutoff : UInt64)
    (l : List Entry) {key : Bytes} (h : OrderedStore.get db.packets key = none) :
    OrderedStore.get (db.commit (l.flatMap (truncateEntry cutoff))).packets key = none := by
  induction l generalizing db with
  | nil => exact h
  | cons e l ih =>
      rw [List.flatMap_cons, Database.commit, List.foldl_append]
      refine @ih (db.commit (truncateEntry cutoff e)) ?_
      rw [get_packets_truncateEntry, h, ite_self]

/-- **What an entry covers below the cutoff is gone.** -/
theorem get_packets_flatMap_truncateEntry {db : Database CF} {cutoff : UInt64} {l : List Entry}
    {e : Entry} (he : e ∈ l) (hcut : e.minSequenceNumber < cutoff) {key : Bytes}
    (hbegin : putBigEndian64 e.streamKey 0 ≤ key) (hend : key < putBigEndian64 e.streamKey cutoff) :
    OrderedStore.get (db.commit (l.flatMap (truncateEntry cutoff))).packets key = none := by
  induction l generalizing db with
  | nil => exact absurd he List.not_mem_nil
  | cons e' l ih =>
      rw [List.flatMap_cons, Database.commit, List.foldl_append]
      rcases List.mem_cons.1 he with rfl | he
      · have hgone : OrderedStore.get (db.commit (truncateEntry cutoff e)).packets key = none := by
          rw [get_packets_truncateEntry, if_pos ⟨hcut, hbegin, hend⟩]
        exact get_packets_flatMap_truncateEntry_of_none cutoff l hgone
      · exact @ih (db.commit (truncateEntry cutoff e')) he

/-! ### The progress of one call -/

/-- A call of `truncateOldest` returns 0 at once or after a failed `Write`, or it
commits its batch. -/
theorem truncateOldest_cases (writeFails : Bool) (db : Database CF) (nPackets : UInt64) :
    truncateOldest writeFails db nPackets = (0, db) ∨
      nPackets ≠ 0 ∧ (snapshotRegistry db).entries ≠ [] ∧
        (snapshotRegistry db).globalMin ≤ (snapshotRegistry db).globalMax ∧
        truncateOldest writeFails db nPackets =
          (clampCutoff (snapshotRegistry db) nPackets - (snapshotRegistry db).globalMin,
            db.commit ((snapshotRegistry db).entries.flatMap
              (truncateEntry (clampCutoff (snapshotRegistry db) nPackets)))) := by
  unfold truncateOldest planTruncation
  dsimp only
  by_cases hn : nPackets = 0
  · exact Or.inl (by rw [if_pos hn])
  rw [if_neg hn]
  by_cases hguard : (snapshotRegistry db).entries.isEmpty ∨
      (snapshotRegistry db).globalMin > (snapshotRegistry db).globalMax
  · exact Or.inl (by rw [if_pos hguard])
  rw [if_neg hguard]
  by_cases hpurged : clampCutoff (snapshotRegistry db) nPackets - (snapshotRegistry db).globalMin = 0
  · exact Or.inl (by rw [if_pos hpurged])
  rw [if_neg hpurged]
  cases writeFails with
  | true => exact Or.inl rfl
  | false =>
      rw [not_or, List.isEmpty_iff, gt_iff_lt, not_lt] at hguard
      exact Or.inr ⟨hn, hguard.1, hguard.2, rfl⟩

/-- An empty snapshot has the start values of the loop. -/
theorem snapshotRegistry_of_entries_nil {db : Database CF} (h : (snapshotRegistry db).entries = []) :
    (snapshotRegistry db).globalMin = 0xFFFFFFFFFFFFFFFF ∧ (snapshotRegistry db).globalMax = 0 := by
  rw [snapshotRegistry_eq] at h ⊢
  dsimp only at h ⊢
  rw [h]
  exact ⟨rfl, rfl⟩

/-- A chunk that fits above the largest number fits above the smallest. -/
theorem Snapshot.noWrap_of_fit {snapshot : Snapshot} {nPackets : UInt64}
    (hle : snapshot.globalMin ≤ snapshot.globalMax) (hn : nPackets ≠ 0)
    (hfit : snapshot.globalMax.toNat + nPackets.toNat < 2 ^ 64) : snapshot.NoWrap nPackets := by
  have hpos : nPackets.toNat ≠ 0 := fun hzero => hn (UInt64.toNat_inj.1 hzero)
  have hle' := UInt64.le_iff_toNat_le.1 hle
  unfold NoWrap
  omega

/-- **What one call makes of the registry's bounds.** -/
structure Progress (before after : Snapshot) (nTruncated : UInt64) : Prop where
  advances (h : nTruncated ≠ 0) : after.entries = [] ∨
    before.globalMin < after.globalMin ∧
      before.globalMin.toNat + nTruncated.toNat ≤ after.globalMin.toNat
  globalMax_le : after.globalMax ≤ before.globalMax
  nothing (h : before.entries = []) : nTruncated = 0

/-- **Every call makes progress or returns 0,** when its sums do not wrap. -/
theorem progress_truncateOldest (writeFails : Bool) {db : Database CF} {nPackets : UInt64}
    (hfit : (snapshotRegistry db).globalMax.toNat + nPackets.toNat < 2 ^ 64) :
    Progress (snapshotRegistry db) (snapshotRegistry (truncateOldest writeFails db nPackets).2)
      (truncateOldest writeFails db nPackets).1 := by
  rcases truncateOldest_cases writeFails db nPackets with h | ⟨hn, hne, hle, h⟩
  · rw [h]
    exact ⟨fun hzero => absurd rfl hzero, le_rfl, fun _ => rfl⟩
  · rw [h]
    dsimp only
    have hwrap := Snapshot.noWrap_of_fit hle hn hfit
    have hcutoff := Snapshot.toNat_clampCutoff hwrap
    have hpurged := Snapshot.toNat_purged hwrap hle hn
    have hlt := Snapshot.lt_purgeBound hle hn
    refine ⟨fun _ => ?_, ?_, fun hnil => absurd hnil hne⟩
    · by_cases hafter : (snapshotRegistry (db.commit ((snapshotRegistry db).entries.flatMap
        (truncateEntry (clampCutoff (snapshotRegistry db) nPackets))))).entries = []
      · exact Or.inl hafter
      · obtain ⟨e, he, hmin⟩ := (snapshotRegistry_bounds hafter).1.1
        have hcut := UInt64.le_iff_toNat_le.1 (exists_entry_of_truncation he).1
        rw [hmin] at hcut
        refine Or.inr ⟨UInt64.lt_iff_toNat_lt.2 ?_, ?_⟩
        · omega
        · rw [hpurged]
          omega
    · by_cases hafter : (snapshotRegistry (db.commit ((snapshotRegistry db).entries.flatMap
        (truncateEntry (clampCutoff (snapshotRegistry db) nPackets))))).entries = []
      · rw [(snapshotRegistry_of_entries_nil hafter).2]
        exact zero_le_uint64 _
      · obtain ⟨e, he, hmax⟩ := (snapshotRegistry_bounds hafter).2.1
        obtain ⟨-, e', he', hsame⟩ := exists_entry_of_truncation he
        rw [← hmax, ← hsame]
        exact (snapshotRegistry_bounds hne).2.2 ⟨e', he', rfl⟩

/-- The numbers the registry covers, from the overall minimum to the overall maximum. -/
def Snapshot.span (snapshot : Snapshot) : ℕ :=
  snapshot.globalMax.toNat + 1 - snapshot.globalMin.toNat

/-- A call that does not return 0 takes `nPackets` off the span, or all of it. -/
theorem span_truncateOldest {writeFails : Bool} {db : Database CF} {nPackets : UInt64}
    (hfit : (snapshotRegistry db).globalMax.toNat + nPackets.toNat < 2 ^ 64)
    (h : (truncateOldest writeFails db nPackets).1 ≠ 0) :
    0 < (snapshotRegistry db).span ∧
      (snapshotRegistry (truncateOldest writeFails db nPackets).2).span ≤
        (snapshotRegistry db).span - nPackets.toNat := by
  have hprogress := progress_truncateOldest writeFails hfit
  have hadvances := hprogress.advances h
  have hmax := UInt64.le_iff_toNat_le.1 hprogress.globalMax_le
  rcases truncateOldest_cases writeFails db nPackets with hreturn | ⟨hn, hne, hle, hreturn⟩
  · rw [hreturn] at h
    exact absurd rfl h
  · have hle' := UInt64.le_iff_toNat_le.1 hle
    have hwrap := Snapshot.noWrap_of_fit hle hn hfit
    have hpurged : (truncateOldest writeFails db nPackets).1.toNat =
        (snapshotRegistry db).purgeBound nPackets - (snapshotRegistry db).globalMin.toNat := by
      rw [hreturn]
      exact Snapshot.toNat_purged hwrap hle hn
    unfold Snapshot.purgeBound at hpurged
    unfold Snapshot.span
    refine ⟨by omega, ?_⟩
    rcases hadvances with hnil | ⟨-, hmin⟩
    · obtain ⟨hmin, hzero⟩ := snapshotRegistry_of_entries_nil hnil
      rw [hmin, hzero, toNat_max_uint64, UInt64.toNat_zero]
      omega
    · omega

end RocksDatabase
end UDataPacketBroker
