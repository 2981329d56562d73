/-
# What `truncateOldest` reports

The store documents the result of `truncateOldest` as the number of packets it
purged.  It is the length of an interval of sequence numbers, from the smallest
number the registry mentions to the cutoff.  The packets purged are those stored
under the numbers of that interval, so the two agree exactly when there are as many
of these as numbers (`reportsPurged_iff`): every number dropped on the way to the
store, and every number a past truncation has put into the registry in place of a
packet's, makes a difference.
-/

import Mathlib.Data.Finset.Card
import Mathlib.Order.Interval.Finset.Nat
import UDataPacketBroker.Restart
import UDataPacketBroker.RocksDatabase.Progress

namespace UDataPacketBroker
namespace RocksDatabase

open Library Utilities

/-! ### Lists that fill an interval -/

/-- **A list of distinct numbers of an interval that is as long as the interval holds
all of it.** -/
theorem length_eq_sub_iff {l : List ℕ} (hnodup : l.Nodup) {a b : ℕ}
    (h : ∀ n ∈ l, a ≤ n ∧ n < b) : l.length = b - a ↔ ∀ n, a ≤ n → n < b → n ∈ l := by
  have hsubset : l.toFinset ⊆ Finset.Ico a b := by
    intro n hn
    exact Finset.mem_Ico.2 (h n (List.mem_toFinset.1 hn))
  rw [← List.toFinset_card_of_nodup hnodup, ← Nat.card_Ico]
  constructor
  · intro hcard n ha hb
    have heq := Finset.eq_of_subset_of_card_le hsubset hcard.ge
    rw [← List.mem_toFinset, heq]
    exact Finset.mem_Ico.2 ⟨ha, hb⟩
  · intro hall
    refine congrArg Finset.card (hsubset.antisymm fun n hn => ?_)
    obtain ⟨ha, hb⟩ := Finset.mem_Ico.1 hn
    exact List.mem_toFinset.2 (hall n ha hb)

/-! ### What is removed -/

variable {CF : Type} [OrderedStore CF Bytes Bytes]

/-- The packet records that are in a store and not in another. -/
def removed (before after : Database CF) : List (Bytes × Bytes) :=
  (OrderedStore.entries before.packets).filter fun e =>
    (OrderedStore.get after.packets e.1).isNone

/-- The packet records under numbers below `bound`. -/
def recordsBelow (db : Database CF) (bound : ℕ) : List (Bytes × Bytes) :=
  (OrderedStore.entries db.packets).filter fun e =>
    (response e).sequenceNumber.toNat < bound

/-- No two streams hold a packet under one number. -/
def UniqueNumbers (db : Database CF) : Prop :=
  ∀ k k' s, s ∈ (db.view k).numbers → s ∈ (db.view k').numbers → k = k'

namespace Database

/-- The packets of a well-formed store, by their streams and numbers. -/
theorem WellFormed.mem_entries_packets {db : Database CF} (hdb : WellFormed db)
    {e : Bytes × Bytes} (he : e ∈ OrderedStore.entries db.packets) :
    ∃ k s, e.1 = k.packetKey s ∧ (response e).sequenceNumber = s ∧ s ∈ (view db k).numbers := by
  obtain ⟨key, value⟩ := e
  have hget := (OrderedStore.mem_entries _ _ _).1 he
  obtain ⟨⟨k, s, rfl⟩, -⟩ := hdb.packets key value hget
  have hrecord : (view db k).records s = some (decodeRecord value) := by
    rw [records_view, hget]
    rfl
  exact ⟨k, s, rfl, sequenceNumber_response k s value, _, hrecord⟩

/-- **A truncation that does not wrap removes the records below its cutoff.** -/
theorem Sound.removed_truncateOldest {db : Database CF} (hdb : Sound db) {nPackets : UInt64}
    (hwrap : (snapshotRegistry db).entries ≠ [] → (snapshotRegistry db).NoWrap nPackets) :
    removed db (truncateOldest false db nPackets).2 =
      recordsBelow db ((snapshotRegistry db).purgeBound nPackets) := by
  refine List.filter_congr fun e he => ?_
  obtain ⟨k, s, hkey, hnumber, r, hr⟩ := hdb.wellFormed.mem_entries_packets he
  have hafter := hdb.wellFormed.records_truncateOldest hdb.valid hwrap k s
  rw [hr, records_view, ← hkey] at hafter
  rw [hnumber]
  by_cases hs : s.toNat < (snapshotRegistry db).purgeBound nPackets
  · rw [if_pos hs, Option.map_eq_none_iff] at hafter
    simp [hafter, hs]
  · rw [if_neg hs] at hafter
    obtain ⟨value, hvalue, -⟩ := Option.map_eq_some_iff.1 hafter
    simp [hvalue, hs]

/-- The number a truncation that does not wrap reports. -/
theorem Sound.toNat_truncateOldest {db : Database CF} (hdb : Sound db) {nPackets : UInt64}
    (hn : nPackets ≠ 0)
    (hwrap : (snapshotRegistry db).entries ≠ [] → (snapshotRegistry db).NoWrap nPackets) :
    (truncateOldest false db nPackets).1.toNat =
      (snapshotRegistry db).purgeBound nPackets - (snapshotRegistry db).globalMin.toNat := by
  by_cases hne : (snapshotRegistry db).entries = []
  · obtain ⟨hmin, hmax⟩ := snapshotRegistry_of_entries_nil hne
    rcases truncateOldest_cases false db nPackets with h | ⟨-, hne', -⟩
    · rw [h, Snapshot.purgeBound, hmin, hmax, UInt64.toNat_zero, toNat_max_uint64]
      omega
    · exact absurd hne hne'
  · rw [truncateOldest_of_noWrap hne (hdb.globalMin_le_globalMax hne) hn (hwrap hne)]
    exact Snapshot.toNat_purged (hwrap hne) (hdb.globalMin_le_globalMax hne) hn

/-- The numbers of the records below `bound`. -/
theorem WellFormed.mem_recordsBelow_iff {db : Database CF} (hdb : WellFormed db) (bound n : ℕ) :
    n ∈ (recordsBelow db bound).map (fun e => (response e).sequenceNumber.toNat) ↔
      n < bound ∧ ∃ s, Stores db s ∧ s.toNat = n := by
  rw [List.mem_map]
  constructor
  · rintro ⟨e, he, rfl⟩
    obtain ⟨hmem, hbound⟩ := List.mem_filter.1 he
    obtain ⟨k, s, -, hnumber, r, hr⟩ := hdb.mem_entries_packets hmem
    rw [decide_eq_true_iff] at hbound
    exact ⟨hbound, s, ⟨k, r, hr⟩, congrArg UInt64.toNat hnumber.symm⟩
  · rintro ⟨hbound, s, ⟨k, r, hr⟩, rfl⟩
    rw [records_view] at hr
    obtain ⟨value, hget, -⟩ := Option.map_eq_some_iff.1 hr
    have hnumber := sequenceNumber_response k s value
    refine ⟨_, List.mem_filter.2 ⟨(OrderedStore.mem_entries _ _ _).2 hget, ?_⟩, ?_⟩
    · rw [hnumber]
      exact decide_eq_true hbound
    · rw [hnumber]

/-- Where no number is in two streams, the records have distinct numbers. -/
theorem WellFormed.nodup_recordsBelow {db : Database CF} (hdb : WellFormed db)
    (hunique : UniqueNumbers db) (bound : ℕ) :
    ((recordsBelow db bound).map fun e => (response e).sequenceNumber.toNat).Nodup := by
  have hentries : (OrderedStore.entries db.packets).Nodup :=
    List.Nodup.of_map Prod.fst (OrderedStore.nodup_keys db.packets)
  refine List.Nodup.map_on (fun e he e' he' heq => ?_) (hentries.filter _)
  obtain ⟨k, s, hkey, hnumber, hs⟩ := hdb.mem_entries_packets (List.mem_filter.1 he).1
  obtain ⟨k', s', hkey', hnumber', hs'⟩ := hdb.mem_entries_packets (List.mem_filter.1 he').1
  have hss : s = s' := by
    rw [← hnumber, ← hnumber']
    exact UInt64.toNat_inj.1 heq
  subst hss
  obtain rfl := hunique k k' s hs hs'
  -- one key has one value
  have hget := (OrderedStore.mem_entries db.packets e.1 e.2).1 (List.mem_filter.1 he).1
  have hget' := (OrderedStore.mem_entries db.packets e'.1 e'.2).1 (List.mem_filter.1 he').1
  rw [hkey', ← hkey] at hget'
  exact Prod.ext (hkey.trans hkey'.symm) (Option.some.inj (hget.symm.trans hget'))

/-- Nothing is stored below the smallest number of the registry. -/
theorem Sound.globalMin_le {db : Database CF} (hdb : Sound db) {s : UInt64} (hs : Stores db s) :
    (snapshotRegistry db).globalMin.toNat ≤ s.toNat := by
  obtain ⟨k, r, hr⟩ := hs
  obtain ⟨e, he, hmin, -⟩ := (hdb.valid k).bounds s r hr
  exact UInt64.le_iff_toNat_le.1 ((hdb.wellFormed.entry_bounds he).2.1.trans hmin)

end Database

/-- **The number reported is the number of packets purged.** -/
def ReportsPurged (db : Database CF) (nPackets : UInt64) : Prop :=
  (truncateOldest false db nPackets).1.toNat =
    (removed db (truncateOldest false db nPackets).2).length

/-- **When a truncation reports what it removed:** as many packets are stored under
the numbers from the registry's smallest to the cutoff as there are numbers.  Where no
number is in two streams this means that each of them is stored. -/
theorem reportsPurged_iff (P : Platform) (history : List Call) {nPackets : UInt64}
    (hn : nPackets ≠ 0)
    (hwrap : (snapshotRegistry (run P history : Database CF)).entries ≠ [] →
      (snapshotRegistry (run P history : Database CF)).NoWrap nPackets) :
    (ReportsPurged (run P history : Database CF) nPackets ↔
      (recordsBelow (run P history : Database CF)
          ((snapshotRegistry (run P history : Database CF)).purgeBound nPackets)).length =
        (snapshotRegistry (run P history : Database CF)).purgeBound nPackets -
          (snapshotRegistry (run P history : Database CF)).globalMin.toNat) ∧
      (UniqueNumbers (run P history : Database CF) →
        (ReportsPurged (run P history : Database CF) nPackets ↔
          ∀ n, (snapshotRegistry (run P history : Database CF)).globalMin.toNat ≤ n →
            n < (snapshotRegistry (run P history : Database CF)).purgeBound nPackets →
            ∃ s, Database.Stores (run P history : Database CF) s ∧ s.toNat = n)) := by
  have hsound : (run P history : Database CF).Sound := Database.sound_run P history
  generalize (run P history : Database CF) = db at hwrap hsound ⊢
  have hreports : ReportsPurged db nPackets ↔
      (recordsBelow db ((snapshotRegistry db).purgeBound nPackets)).length =
        (snapshotRegistry db).purgeBound nPackets - (snapshotRegistry db).globalMin.toNat := by
    rw [ReportsPurged, hsound.toNat_truncateOldest hn hwrap, hsound.removed_truncateOldest hwrap,
      eq_comm]
  refine ⟨hreports, fun hunique => ?_⟩
  have hbetween : ∀ n ∈ (recordsBelow db ((snapshotRegistry db).purgeBound nPackets)).map
      (fun e => (response e).sequenceNumber.toNat),
      (snapshotRegistry db).globalMin.toNat ≤ n ∧ n < (snapshotRegistry db).purgeBound nPackets := by
    intro n hmem
    obtain ⟨hbound, s, hs, rfl⟩ := (hsound.wellFormed.mem_recordsBelow_iff _ _).1 hmem
    exact ⟨hsound.globalMin_le hs, hbound⟩
  have hfills := length_eq_sub_iff (hsound.wellFormed.nodup_recordsBelow hunique _) hbetween
  rw [List.length_map] at hfills
  rw [hreports, hfills]
  refine forall_congr' fun n => forall_congr' fun _ => forall_congr' fun hbound => ?_
  rw [hsound.wellFormed.mem_recordsBelow_iff, and_iff_right hbound]

/-- Of packets 1 and 2, a truncation by one reports the one it removes. -/
theorem reportsPurged_iff_samplePacket :
    ReportsPurged (run .protobuf [.write false [(5, samplePacket 1), (6, samplePacket 2)]] :
      Database (SortedTable Bytes Bytes)) 1 :=
  (reportsPurged_iff .protobuf [.write false [(5, samplePacket 1), (6, samplePacket 2)]]
    (by decide) (fun _ => by decide +kernel)).1.2 (by decide +kernel)

/-- **A gap is counted:** of packets 1 and 5, a truncation by three removes one and
reports three. -/
theorem not_reportsPurged_samplePacket :
    ¬ ∀ (history : List Call) (nPackets : UInt64), nPackets ≠ 0 →
      ((snapshotRegistry (run .protobuf history : Database (SortedTable Bytes Bytes))).entries ≠ [] →
        (snapshotRegistry (run .protobuf history : Database (SortedTable Bytes Bytes))).NoWrap
          nPackets) →
      ReportsPurged (run .protobuf history : Database (SortedTable Bytes Bytes)) nPackets := by
  intro h
  have hreports := h [.write false [(5, samplePacket 1), (6, samplePacket 5)]] 3 (by decide)
    (fun _ => by decide +kernel)
  unfold ReportsPurged at hreports
  revert hreports
  decide +kernel

end RocksDatabase
end UDataPacketBroker
