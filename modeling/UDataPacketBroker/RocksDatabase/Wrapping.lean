/-
# The arithmetic of the cutoff

`truncateOldest` takes both sums of its cutoff, `globalMin + n` and
`globalMax + 1`, modulo 2^64 and before it clamps.  Where they fit, the cutoff
and the count are those of unbounded integers, and a count that is not 0 comes
with a registry that has changed.  Where one of them wraps, the cutoff falls below
the whole registry: nothing is deleted, and a count is reported nevertheless
(`exactTruncation_iff`).
-/

import UDataPacketBroker.RocksDatabase.Progress

namespace UDataPacketBroker
namespace RocksDatabase

open Library Utilities

variable {CF : Type} [OrderedStore CF Bytes Bytes]

/-! ### The exact cutoff -/

/-- A sound store without a record is empty. -/
theorem Database.Sound.entries_eq_nil {db : Database CF} (hdb : db.Sound)
    (h : ∀ k s, (db.view k).records s = none) :
    OrderedStore.entries db.packets = [] ∧ OrderedStore.entries db.streams = [] := by
  constructor
  · refine List.eq_nil_iff_forall_not_mem.2 fun ⟨key, value⟩ hmem => ?_
    have hget := (OrderedStore.mem_entries _ _ _).1 hmem
    obtain ⟨⟨k, s, rfl⟩, -⟩ := hdb.wellFormed.packets key value hget
    have hnone := h k s
    rw [Database.records_view, hget] at hnone
    cases hnone
  · refine List.eq_nil_iff_forall_not_mem.2 fun ⟨key, value⟩ hmem => ?_
    have hget := (OrderedStore.mem_entries _ _ _).1 hmem
    have hkey := (hdb.wellFormed.streams key value hget).1
    have hentry : (db.view ⟨key, hkey⟩).entry.isSome := by
      rw [Database.entry_view, hget]
      rfl
    obtain ⟨s, r, hr⟩ := (hdb.valid ⟨key, hkey⟩).entry_isSome_iff.1 hentry
    rw [h] at hr
    cases hr

/-- **A truncation that computes what it means to:** its cutoff and its count are
those of unbounded integers, a count that covers the registry empties the store,
and one that is not 0 comes with a registry that has changed. -/
structure ExactTruncation (db : Database CF) (nPackets : UInt64) : Prop where
  cutoff : (clampCutoff (snapshotRegistry db) nPackets).toNat =
    min ((snapshotRegistry db).globalMin.toNat + nPackets.toNat)
      ((snapshotRegistry db).globalMax.toNat + 1)
  purged : (truncateOldest false db nPackets).1.toNat =
    min ((snapshotRegistry db).globalMin.toNat + nPackets.toNat)
      ((snapshotRegistry db).globalMax.toNat + 1) - (snapshotRegistry db).globalMin.toNat
  purgesAll (hdb : db.Sound)
    (hspan : (snapshotRegistry db).globalMax.toNat + 1 - (snapshotRegistry db).globalMin.toNat
      ≤ nPackets.toNat) :
    OrderedStore.entries (truncateOldest false db nPackets).2.packets = [] ∧
      OrderedStore.entries (truncateOldest false db nPackets).2.streams = []
  progress (hpurged : (truncateOldest false db nPackets).1 ≠ 0) :
    OrderedStore.entries (truncateOldest false db nPackets).2.streams ≠
      OrderedStore.entries db.streams

/-- A count that covers the registry empties a sound store. -/
theorem Database.Sound.truncateOldest_eq_nil {db : Database CF} (hdb : db.Sound) {nPackets : UInt64}
    (hwrap : (snapshotRegistry db).NoWrap nPackets)
    (hspan : (snapshotRegistry db).globalMax.toNat + 1 - (snapshotRegistry db).globalMin.toNat
      ≤ nPackets.toNat) :
    OrderedStore.entries (truncateOldest false db nPackets).2.packets = [] ∧
      OrderedStore.entries (truncateOldest false db nPackets).2.streams = [] := by
  have hsound : (truncateOldest false db nPackets).2.Sound :=
    hdb.step .protobuf (.truncateOldest false nPackets)
  refine hsound.entries_eq_nil fun k s => ?_
  rw [hdb.wellFormed.records_truncateOldest hdb.valid fun _ => hwrap]
  cases hrecord : (db.view k).records s with
  | none => simp
  | some r =>
      obtain ⟨e, he, hmin, hmax⟩ := (hdb.valid k).bounds s r hrecord
      obtain ⟨-, -, hmax'⟩ := hdb.wellFormed.entry_bounds he
      have hle := UInt64.le_iff_toNat_le.1 (hmax.trans hmax')
      have hbound : (snapshotRegistry db).purgeBound nPackets
          = (snapshotRegistry db).globalMax.toNat + 1 := by
        unfold Snapshot.purgeBound
        omega
      rw [if_pos (by omega)]

/-- A truncation that does not wrap changes the entry of the least number. -/
theorem entries_truncateOldest_ne {db : Database CF} {nPackets : UInt64}
    (hne : (snapshotRegistry db).entries ≠ [])
    (hle : (snapshotRegistry db).globalMin ≤ (snapshotRegistry db).globalMax)
    (hn : nPackets ≠ 0) (hwrap : (snapshotRegistry db).NoWrap nPackets) :
    OrderedStore.entries (truncateOldest false db nPackets).2.streams ≠
      OrderedStore.entries db.streams := by
  intro hsame
  obtain ⟨e, he, hmin⟩ := (snapshotRegistry_bounds hne).1.1
  obtain ⟨value, hget, hentry⟩ := mem_snapshotRegistry_iff.1 he
  have hafter := get_streams_commit_truncation db (clampCutoff (snapshotRegistry db) nPackets) he
  have hcut : e.minSequenceNumber < clampCutoff (snapshotRegistry db) nPackets := by
    rw [hmin, UInt64.lt_iff_toNat_lt, Snapshot.toNat_clampCutoff hwrap]
    exact Snapshot.lt_purgeBound hle hn
  rw [Database.truncateOldest_of_noWrap hne hle hn hwrap] at hsame
  have hgetAfter := hget
  rw [← OrderedStore.mem_entries, ← hsame, OrderedStore.mem_entries, hafter, truncatedValue,
    if_neg (not_le.2 hcut)] at hgetAfter
  split_ifs at hgetAfter
  -- the entry that survives starts at the cutoff
  rw [← Option.some.inj hgetAfter, snapshotEntryOf_streamValue] at hentry
  exact hcut.ne' (congrArg Entry.minSequenceNumber (Option.some.inj hentry))

/-- **When the arithmetic of a truncation is exact:** neither of the two sums of its
cutoff reaches 2^64. -/
theorem exactTruncation_iff {db : Database CF} {nPackets : UInt64}
    (hne : (snapshotRegistry db).entries ≠ [])
    (hle : (snapshotRegistry db).globalMin ≤ (snapshotRegistry db).globalMax)
    (hn : nPackets ≠ 0) :
    ExactTruncation db nPackets ↔
      (snapshotRegistry db).globalMin.toNat + nPackets.toNat < 2 ^ 64 ∧
        (snapshotRegistry db).globalMax.toNat + 1 < 2 ^ 64 := by
  constructor
  · intro h
    by_contra hwrap
    have hbelow := UInt64.le_iff_toNat_le.1 (Snapshot.clampCutoff_le_of_wrap hwrap)
    have habove := Snapshot.lt_purgeBound hle hn
    rw [h.cutoff] at hbelow
    exact absurd hbelow (not_le.2 habove)
  · intro hwrap
    refine ⟨Snapshot.toNat_clampCutoff hwrap, ?_, fun hdb => hdb.truncateOldest_eq_nil hwrap,
      fun _ => entries_truncateOldest_ne hne hle hn hwrap⟩
    rw [Database.truncateOldest_of_noWrap hne hle hn hwrap]
    exact Snapshot.toNat_purged hwrap hle hn

/-- Truncating one of two packets is exact. -/
theorem exactTruncation_iff_samplePacket :
    ExactTruncation (run .protobuf [.write false [(5, samplePacket 1), (6, samplePacket 2)]] :
      Database (SortedTable Bytes Bytes)) 1 :=
  (exactTruncation_iff (by decide +kernel) (by decide +kernel) (by decide)).2 (by decide +kernel)

/-- **A count that wraps:** of a store that holds packet 5, it asks to purge
2^64 - 5 packets; as many are reported, and none is purged. -/
theorem not_exactTruncation_samplePacket :
    ¬ ∀ (db : Database (SortedTable Bytes Bytes)) (nPackets : UInt64),
      (snapshotRegistry db).entries ≠ [] →
      (snapshotRegistry db).globalMin ≤ (snapshotRegistry db).globalMax → nPackets ≠ 0 →
      ExactTruncation db nPackets := by
  intro h
  have hexact := h (run .protobuf [.write false [(7, samplePacket 5)]]) 0xFFFFFFFFFFFFFFFB
    (by decide +kernel) (by decide +kernel) (by decide)
  exact hexact.progress (by decide +kernel) (by decide +kernel)

end RocksDatabase
end UDataPacketBroker
