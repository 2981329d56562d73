/-
# What a truncation does to each stream

`truncateOldest` takes a snapshot of the registry, picks one cutoff from the
overall bounds, and purges every stream at it (`view_truncateOldest`).  The
batch is described for a snapshot of another moment as well
(`view_commit_truncation`), because the writer runs on another thread.

The cutoff is a sum modulo 2^64.  Where it does not wrap it is the cutoff meant,
`min (globalMin + n) (globalMax + 1)`; where it wraps, nothing is purged.
-/

import Mathlib.Order.Bounds.Basic
import Mathlib.Order.MinMax
import UDataPacketBroker.RocksDatabase.Writing

namespace UDataPacketBroker
namespace RocksDatabase

open Library Utilities

/-! ### Running maxima and minima -/

section
variable {α β : Type*} [LinearOrder β]

/-- **A running maximum is the greatest value it passed.** -/
theorem isGreatest_foldl_max (f : α → β) (l : List α) (a : β) :
    IsGreatest {b | b = a ∨ ∃ x ∈ l, f x = b} (l.foldl (fun m x => max m (f x)) a) := by
  induction l generalizing a with
  | nil =>
      refine ⟨Or.inl rfl, ?_⟩
      rintro b (rfl | ⟨x, hx, -⟩)
      · exact le_rfl
      · exact absurd hx List.not_mem_nil
  | cons x l ih =>
      obtain ⟨hmem, hub⟩ := ih (max a (f x))
      rw [List.foldl_cons]
      constructor
      · rcases hmem with h | ⟨y, hy, h⟩
        · rcases max_choice a (f x) with hm | hm
          · exact Or.inl (h.trans hm)
          · exact Or.inr ⟨x, List.mem_cons_self, (h.trans hm).symm⟩
        · exact Or.inr ⟨y, List.mem_cons_of_mem x hy, h⟩
      · have hstart := hub (Or.inl rfl)
        rintro b (rfl | ⟨y, hy, rfl⟩)
        · exact (le_max_left _ _).trans hstart
        · rcases List.mem_cons.1 hy with rfl | hy
          · exact (le_max_right _ _).trans hstart
          · exact hub (Or.inr ⟨y, hy, rfl⟩)

/-- **A running minimum is the least value it passed.** -/
theorem isLeast_foldl_min (f : α → β) (l : List α) (a : β) :
    IsLeast {b | b = a ∨ ∃ x ∈ l, f x = b} (l.foldl (fun m x => min m (f x)) a) :=
  isGreatest_foldl_max (β := βᵒᵈ) f l a

end

variable {CF : Type} [OrderedStore CF Bytes Bytes]

/-! ### The registry -/

/-- The entry of the snapshot for an entry of the registry; a value that is not
whole has none. -/
def snapshotEntryOf (keyValue : Bytes × Bytes) : Option Entry :=
  if keyValue.2.length < streamsValueLength then none
  else some
    { streamKey := keyValue.1
      minSequenceNumber := getBigEndian64 keyValue.2
      maxSequenceNumber := getBigEndian64 (keyValue.2.drop 8)
      lastReceivedNanoSeconds := (getBigEndian64 (keyValue.2.drop 16)).toInt64 }

/-- The loop over the registry, from any start. -/
theorem foldl_snapshotEntry (l : List (Bytes × Bytes)) (snapshot : Snapshot) :
    l.foldl snapshotEntry snapshot =
      { entries := snapshot.entries ++ l.filterMap snapshotEntryOf
        globalMin := (l.filterMap snapshotEntryOf).foldl
          (fun s e => min s e.minSequenceNumber) snapshot.globalMin
        globalMax := (l.filterMap snapshotEntryOf).foldl
          (fun s e => max s e.maxSequenceNumber) snapshot.globalMax } := by
  induction l generalizing snapshot with
  | nil => simp
  | cons e l ih =>
      rw [List.foldl_cons, ih]
      by_cases hshort : e.2.length < streamsValueLength
      · simp [snapshotEntry, snapshotEntryOf, hshort]
      · simp [snapshotEntry, snapshotEntryOf, hshort]

/-- **The snapshot of a registry,** whatever is in it. -/
theorem snapshotRegistry_eq (db : Database CF) : snapshotRegistry db =
    { entries := (OrderedStore.entries db.streams).filterMap snapshotEntryOf
      globalMin := ((OrderedStore.entries db.streams).filterMap snapshotEntryOf).foldl
        (fun s e => min s e.minSequenceNumber) 0xFFFFFFFFFFFFFFFF
      globalMax := ((OrderedStore.entries db.streams).filterMap snapshotEntryOf).foldl
        (fun s e => max s e.maxSequenceNumber) 0 } := by
  rw [snapshotRegistry, foldl_snapshotEntry]
  simp

/-- The least and the greatest number of a snapshot that is not empty. -/
theorem snapshotRegistry_bounds {db : Database CF} (hne : (snapshotRegistry db).entries ≠ []) :
    IsLeast {s | ∃ e ∈ (snapshotRegistry db).entries, e.minSequenceNumber = s}
        (snapshotRegistry db).globalMin ∧
      IsGreatest {s | ∃ e ∈ (snapshotRegistry db).entries, e.maxSequenceNumber = s}
        (snapshotRegistry db).globalMax := by
  rw [snapshotRegistry_eq] at hne ⊢
  dsimp only at hne ⊢
  generalize (OrderedStore.entries db.streams).filterMap snapshotEntryOf = l at hne ⊢
  obtain ⟨e₀, he₀⟩ := List.exists_mem_of_ne_nil l hne
  have hleast := isLeast_foldl_min Entry.minSequenceNumber l 0xFFFFFFFFFFFFFFFF
  have hgreatest := isGreatest_foldl_max Entry.maxSequenceNumber l 0
  refine ⟨⟨?_, ?_⟩, ?_, ?_⟩
  · rcases hleast.1 with h | h
    · -- the start value is the largest word, so some entry carries it too
      have hle := hleast.2 (Or.inr ⟨e₀, he₀, rfl⟩)
      refine ⟨e₀, he₀, le_antisymm ?_ hle⟩
      rw [h]
      exact le_max_uint64 e₀.minSequenceNumber
    · exact h
  · rintro s ⟨e, he, rfl⟩
    exact hleast.2 (Or.inr ⟨e, he, rfl⟩)
  · rcases hgreatest.1 with h | h
    · have hle := hgreatest.2 (Or.inr ⟨e₀, he₀, rfl⟩)
      refine ⟨e₀, he₀, le_antisymm hle ?_⟩
      rw [h]
      exact zero_le_uint64 _
    · exact h
  · rintro s ⟨e, he, rfl⟩
    exact hgreatest.2 (Or.inr ⟨e, he, rfl⟩)

namespace Database

/-- The registry entry of the snapshot for an entry of a stream. -/
def toEntry (e : StreamKey × Aggregate) : Entry where
  streamKey := e.1.bytes
  minSequenceNumber := e.2.minSequenceNumber
  maxSequenceNumber := e.2.maxSequenceNumber
  lastReceivedNanoSeconds := e.2.lastReceivedNanoSeconds

/-- The registry, listed by streams: each stream that has an entry, once. -/
structure Lists (db : Database CF) (l : List (StreamKey × Aggregate)) : Prop where
  values : ∃ m : List (StreamKey × Bytes), OrderedStore.entries db.streams
      = m.map (fun e => (e.1.bytes, e.2)) ∧
    l = m.map (fun e => (e.1, decodeEntry e.2)) ∧ ∀ e ∈ m, e.2.length = streamsValueLength
  nodup : (l.map Prod.fst).Nodup
  updates (k : StreamKey) : updatesAt l k = (view db k).entry.toList

/-- The registry of a well-formed store can be listed. -/
theorem WellFormed.exists_lists {db : Database CF} (hdb : WellFormed db) : ∃ l, Lists db l := by
  have hvalue (e : Bytes × Bytes) (he : e ∈ OrderedStore.entries db.streams) :=
    hdb.streams e.1 e.2 ((OrderedStore.mem_entries _ _ _).1 he)
  obtain ⟨m, hm, hupdates⟩ := exists_streamKeys (OrderedStore.entries db.streams)
    (OrderedStore.nodup_keys db.streams) fun e he => (hvalue e he).1
  refine ⟨m.map fun e => (e.1, decodeEntry e.2), ⟨m, hm, rfl, fun e he => ?_⟩, ?_, fun k => ?_⟩
  · exact (hvalue (e.1.bytes, e.2) (hm ▸ List.mem_map_of_mem he)).2
  · have hkeys := OrderedStore.nodup_keys db.streams
    rw [hm, List.map_map] at hkeys
    rw [List.map_map]
    exact List.Nodup.of_map StreamKey.bytes (by rw [List.map_map]; exact hkeys)
  · rw [updatesAt_map_snd fun _ => decodeEntry,
      hupdates k (OrderedStore.get db.streams k.bytes) fun a => OrderedStore.mem_entries _ _ _, view]
    cases OrderedStore.get db.streams k.bytes <;> rfl

/-- The list has the entry of each stream that has one. -/
theorem Lists.mem_iff {db : Database CF} {l : List (StreamKey × Aggregate)} (h : Lists db l)
    {k : StreamKey} {e : Aggregate} : (k, e) ∈ l ↔ (view db k).entry = some e := by
  rw [← mem_updatesAt, h.updates, Option.mem_toList]

/-- **What `truncateOldest` reads from the registry.** -/
theorem Lists.snapshotRegistry_eq {db : Database CF} {l : List (StreamKey × Aggregate)}
    (h : Lists db l) : snapshotRegistry db =
      { entries := l.map toEntry
        globalMin := l.foldl (fun s e => min s e.2.minSequenceNumber) 0xFFFFFFFFFFFFFFFF
        globalMax := l.foldl (fun s e => max s e.2.maxSequenceNumber) 0 } := by
  obtain ⟨m, hm, rfl, hlen⟩ := h.values
  have hentries : (OrderedStore.entries db.streams).filterMap snapshotEntryOf
      = (m.map fun e => (e.1, decodeEntry e.2)).map toEntry := by
    rw [hm, List.filterMap_map, List.map_map]
    refine List.filterMap_eq_map_iff_forall_eq_some.2 fun e he => ?_
    simp only [Function.comp_apply, snapshotEntryOf, if_neg (not_lt.2 (hlen e he).ge)]
    rfl
  rw [RocksDatabase.snapshotRegistry_eq, hentries]
  simp only [List.foldl_map]
  rfl

/-- `getGlobalSequenceNumber` is the running maximum of the snapshot. -/
theorem WellFormed.getGlobalSequenceNumber_eq {db : Database CF} (hdb : WellFormed db) :
    getGlobalSequenceNumber db = (snapshotRegistry db).globalMax := by
  obtain ⟨l, hl⟩ := hdb.exists_lists
  rw [hl.snapshotRegistry_eq]
  obtain ⟨m, hm, rfl, hlen⟩ := hl.values
  dsimp only
  rw [getGlobalSequenceNumber, hm, List.foldl_map, List.foldl_map]
  exact List.foldl_ext _ _ _ fun s e he => if_pos (hlen e he).ge

/-- The registry is empty when no stream has an entry. -/
theorem WellFormed.snapshotRegistry_entries_eq_nil_iff {db : Database CF} (hdb : WellFormed db) :
    (snapshotRegistry db).entries = [] ↔ ∀ k, (view db k).entry = none := by
  obtain ⟨l, hl⟩ := hdb.exists_lists
  rw [hl.snapshotRegistry_eq]
  constructor
  · intro h k
    obtain rfl := List.map_eq_nil_iff.1 h
    rw [← Option.toList_eq_nil_iff, ← hl.updates]
    rfl
  · intro h
    refine List.map_eq_nil_iff.2 (List.eq_nil_iff_forall_not_mem.2 fun e he => ?_)
    rw [hl.mem_iff, h] at he
    cases he

/-- **The least and the greatest number of a registry that is not empty.** -/
theorem WellFormed.snapshotRegistry_bounds {db : Database CF} (hdb : WellFormed db)
    (hne : (snapshotRegistry db).entries ≠ []) :
    IsLeast {s | ∃ k e, (view db k).entry = some e ∧ e.minSequenceNumber = s}
        (snapshotRegistry db).globalMin ∧
      IsGreatest {s | ∃ k e, (view db k).entry = some e ∧ e.maxSequenceNumber = s}
        (snapshotRegistry db).globalMax := by
  obtain ⟨l, hl⟩ := hdb.exists_lists
  have hentries : (snapshotRegistry db).entries = l.map toEntry := by rw [hl.snapshotRegistry_eq]
  have hvalues (f : Aggregate → UInt64) (g : Entry → UInt64) (hfg : ∀ e, g (toEntry e) = f e.2) :
      {s | ∃ e ∈ (snapshotRegistry db).entries, g e = s}
        = {s | ∃ k e, (view db k).entry = some e ∧ f e = s} := by
    ext s
    change (∃ e ∈ (snapshotRegistry db).entries, g e = s) ↔
      ∃ k e, (view db k).entry = some e ∧ f e = s
    rw [hentries]
    constructor
    · rintro ⟨_, hmem, rfl⟩
      obtain ⟨⟨k, e⟩, he, rfl⟩ := List.mem_map.1 hmem
      exact ⟨k, e, hl.mem_iff.1 he, (hfg (k, e)).symm⟩
    · rintro ⟨k, e, he, rfl⟩
      exact ⟨toEntry (k, e), List.mem_map_of_mem (hl.mem_iff.2 he), hfg (k, e)⟩
  have hbounds := RocksDatabase.snapshotRegistry_bounds hne
  rwa [hvalues Aggregate.minSequenceNumber _ fun _ => rfl,
    hvalues Aggregate.maxSequenceNumber _ fun _ => rfl] at hbounds

/-- An entry lies within the overall bounds. -/
theorem WellFormed.entry_bounds {db : Database CF} (hdb : WellFormed db) {k : StreamKey}
    {e : Aggregate} (he : (view db k).entry = some e) :
    (snapshotRegistry db).entries ≠ [] ∧
      (snapshotRegistry db).globalMin ≤ e.minSequenceNumber ∧
      e.maxSequenceNumber ≤ (snapshotRegistry db).globalMax := by
  have hne : (snapshotRegistry db).entries ≠ [] := by
    intro h
    rw [hdb.snapshotRegistry_entries_eq_nil_iff] at h
    rw [h k] at he
    cases he
  obtain ⟨hleast, hgreatest⟩ := hdb.snapshotRegistry_bounds hne
  exact ⟨hne, hleast.2 ⟨k, e, he, rfl⟩, hgreatest.2 ⟨k, e, he, rfl⟩⟩

/-! ### The purge -/

/-- The changes a truncation at `cutoff` makes to a stream with the entry `e`. -/
def truncation (cutoff : UInt64) (e : Aggregate) : List Change :=
  if e.minSequenceNumber ≥ cutoff then []
  else [.discard cutoff, if e.maxSequenceNumber < cutoff then .reap
    else .entry { e with minSequenceNumber := cutoff }]

/-- What is deleted and put for an entry, by stream. -/
theorem truncateEntry_toEntry (cutoff : UInt64) (e : StreamKey × Aggregate) :
    truncateEntry cutoff (toEntry e) = ops ((truncation cutoff e.2).map fun c => (e.1, c)) := by
  unfold truncateEntry truncation
  by_cases hskip : e.2.minSequenceNumber ≥ cutoff
  · rw [if_pos hskip, if_pos (show (toEntry e).minSequenceNumber ≥ cutoff from hskip)]
    rfl
  · rw [if_neg hskip, if_neg (show ¬ (toEntry e).minSequenceNumber ≥ cutoff from hskip)]
    by_cases hreap : e.2.maxSequenceNumber < cutoff
    · rw [if_pos hreap, if_pos (show (toEntry e).maxSequenceNumber < cutoff from hreap)]
      rfl
    · rw [if_neg hreap, if_neg (show ¬ (toEntry e).maxSequenceNumber < cutoff from hreap)]
      rfl

/-- **These changes purge the stream.** -/
theorem foldl_apply_truncation (cutoff : UInt64) (e : Aggregate) (v : StreamView) :
    (truncation cutoff e).foldl Change.apply v = StreamView.purge (some e) cutoff v := by
  rcases le_or_gt cutoff e.minSequenceNumber with hskip | hcut
  · rw [truncation, if_pos hskip, StreamView.purge_of_le hskip]
    rfl
  · rw [truncation, if_neg (not_le.2 hcut), StreamView.purge_of_lt hcut]
    split_ifs <;> rfl

/-- What a truncation changes, stream by stream. -/
theorem updatesAt_truncation (cutoff : UInt64) (l : List (StreamKey × Aggregate)) (k : StreamKey) :
    updatesAt (l.flatMap fun e => (truncation cutoff e.2).map fun c => (e.1, c)) k
      = (updatesAt l k).flatMap (truncation cutoff) := by
  induction l with
  | nil => rfl
  | cons e l ih =>
      have hhead : updatesAt ((truncation cutoff e.2).map fun c => (e.1, c)) k
          = if e.1 = k then truncation cutoff e.2 else [] := by
        unfold updatesAt
        rw [List.filterMap_map]
        split_ifs with h <;> simp [h]
      rw [List.flatMap_cons, updatesAt_append, updatesAt_cons, ih, hhead]
      split_ifs <;> simp

/-- The batch of a truncation, as changes. -/
theorem Lists.flatMap_truncateEntry {db : Database CF} {l : List (StreamKey × Aggregate)}
    (h : Lists db l) (cutoff : UInt64) :
    (snapshotRegistry db).entries.flatMap (truncateEntry cutoff)
      = ops (l.flatMap fun e => (truncation cutoff e.2).map fun c => (e.1, c)) := by
  rw [h.snapshotRegistry_eq, List.flatMap_map, ops, List.map_flatMap]
  exact List.flatMap_congr fun e _ => truncateEntry_toEntry cutoff e

/-- **What the batch of a truncation does to each stream,** where `seen` is the
store its snapshot was taken of and `db` the one it is applied to. -/
theorem WellFormed.view_commit_truncation {seen : Database CF} (hseen : WellFormed seen)
    (db : Database CF) (cutoff : UInt64) (k : StreamKey) :
    view (db.commit ((snapshotRegistry seen).entries.flatMap (truncateEntry cutoff))) k =
      StreamView.purge (view seen k).entry cutoff (view db k) := by
  obtain ⟨l, hl⟩ := hseen.exists_lists
  rw [hl.flatMap_truncateEntry, view_commit, updatesAt_truncation, hl.updates]
  cases (view seen k).entry with
  | none => rfl
  | some e =>
      rw [Option.toList_some, List.flatMap_singleton]
      exact foldl_apply_truncation cutoff e _

/-- A truncation keeps the layout, whichever registry it saw. -/
theorem WellFormed.commit_truncation {seen db : Database CF} (hseen : WellFormed seen)
    (hdb : WellFormed db) (cutoff : UInt64) :
    WellFormed (db.commit ((snapshotRegistry seen).entries.flatMap (truncateEntry cutoff))) := by
  obtain ⟨l, hl⟩ := hseen.exists_lists
  rw [hl.flatMap_truncateEntry]
  exact hdb.commit _

end Database

/-- The end of `truncateOldest`, when its `Write` succeeds. -/
def commitPlan (db : Database CF) : Option (UInt64 × List BatchOp) → Database CF
  | none => db
  | some (_, batch) => db.commit batch

/-- A truncation is its plan, committed at once. -/
theorem commitPlan_planTruncation (db : Database CF) (nPackets : UInt64) :
    commitPlan db (planTruncation db nPackets) = (truncateOldest false db nPackets).2 := by
  unfold truncateOldest
  cases planTruncation db nPackets <;> rfl

/-! ### The cutoff -/

namespace Snapshot

/-- The sums of the cutoff stay below 2^64. -/
def NoWrap (snapshot : Snapshot) (nPackets : UInt64) : Prop :=
  snapshot.globalMin.toNat + nPackets.toNat < 2 ^ 64 ∧ snapshot.globalMax.toNat + 1 < 2 ^ 64

instance (snapshot : Snapshot) (nPackets : UInt64) : Decidable (NoWrap snapshot nPackets) :=
  inferInstanceAs (Decidable (_ ∧ _))

/-- The cutoff meant, as a natural number. -/
def purgeBound (snapshot : Snapshot) (nPackets : UInt64) : ℕ :=
  min (snapshot.globalMin.toNat + nPackets.toNat) (snapshot.globalMax.toNat + 1)

/-- **Where it does not wrap, the cutoff is the one meant.** -/
theorem toNat_clampCutoff {snapshot : Snapshot} {nPackets : UInt64}
    (h : NoWrap snapshot nPackets) :
    (clampCutoff snapshot nPackets).toNat = purgeBound snapshot nPackets := by
  obtain ⟨hsum, hnext⟩ := h
  have hcutoff : (snapshot.globalMin + nPackets).toNat
      = snapshot.globalMin.toNat + nPackets.toNat := by
    rw [UInt64.toNat_add, Nat.mod_eq_of_lt hsum]
  have hclamp : (snapshot.globalMax + 1).toNat = snapshot.globalMax.toNat + 1 := by
    rw [UInt64.toNat_add, UInt64.toNat_one, Nat.mod_eq_of_lt hnext]
  unfold clampCutoff purgeBound
  dsimp only
  split_ifs with hgt
  · rw [gt_iff_lt, UInt64.lt_iff_toNat_lt] at hgt
    omega
  · rw [gt_iff_lt, UInt64.lt_iff_toNat_lt] at hgt
    omega

/-- There is something below the cutoff meant. -/
theorem lt_purgeBound {snapshot : Snapshot} {nPackets : UInt64}
    (hle : snapshot.globalMin ≤ snapshot.globalMax) (hn : nPackets ≠ 0) :
    snapshot.globalMin.toNat < purgeBound snapshot nPackets := by
  rw [UInt64.le_iff_toNat_le] at hle
  have hpos : nPackets.toNat ≠ 0 := fun h => hn (UInt64.toNat_inj.1 h)
  unfold purgeBound
  omega

/-- The count reported, where nothing wraps. -/
theorem toNat_purged {snapshot : Snapshot} {nPackets : UInt64}
    (h : NoWrap snapshot nPackets) (hle : snapshot.globalMin ≤ snapshot.globalMax)
    (hn : nPackets ≠ 0) :
    (clampCutoff snapshot nPackets - snapshot.globalMin).toNat
      = purgeBound snapshot nPackets - snapshot.globalMin.toNat := by
  have hlt := lt_purgeBound hle hn
  have hcutoff := toNat_clampCutoff h
  rw [UInt64.toNat_sub_of_le, hcutoff]
  rw [UInt64.le_iff_toNat_le, hcutoff]
  exact hlt.le

/-- A cutoff that wraps lies below the whole registry. -/
theorem clampCutoff_le_of_wrap {snapshot : Snapshot} {nPackets : UInt64}
    (h : ¬ NoWrap snapshot nPackets) : clampCutoff snapshot nPackets ≤ snapshot.globalMin := by
  have hle : clampCutoff snapshot nPackets ≤ snapshot.globalMin + nPackets ∧
      clampCutoff snapshot nPackets ≤ snapshot.globalMax + 1 := by
    unfold clampCutoff
    dsimp only
    split_ifs with hgt
    · exact ⟨hgt.le, le_rfl⟩
    · exact ⟨le_rfl, not_lt.1 hgt⟩
  obtain ⟨hsum, hnext⟩ := hle
  simp only [UInt64.le_iff_toNat_le, UInt64.toNat_add, UInt64.toNat_one] at hsum hnext ⊢
  unfold NoWrap at h
  have hmin := snapshot.globalMin.toNat_lt
  have hmax := snapshot.globalMax.toNat_lt
  have hn := nPackets.toNat_lt
  by_cases hwrap : snapshot.globalMax.toNat + 1 < 2 ^ 64
  · have : 2 ^ 64 ≤ snapshot.globalMin.toNat + nPackets.toNat := by omega
    omega
  · omega

end Snapshot

namespace Database

/-- The cutoff `truncateOldest` purges at; 0 where it returns at once. -/
def cutoffOf (db : Database CF) (nPackets : UInt64) : UInt64 :=
  match planTruncation db nPackets with
  | none => 0
  | some _ => clampCutoff (snapshotRegistry db) nPackets

/-- **The cutoff, for the numbers the registry covers.** -/
theorem lt_cutoffOf_iff {db : Database CF} (nPackets : UInt64) {s : UInt64}
    (hne : (snapshotRegistry db).entries ≠ [])
    (hle : (snapshotRegistry db).globalMin ≤ (snapshotRegistry db).globalMax)
    (hs : (snapshotRegistry db).globalMin ≤ s) :
    s < cutoffOf db nPackets ↔ (snapshotRegistry db).NoWrap nPackets ∧
      s.toNat < (snapshotRegistry db).purgeBound nPackets := by
  unfold cutoffOf planTruncation
  generalize snapshotRegistry db = snapshot at hne hle hs ⊢
  have hbound : snapshot.globalMin.toNat ≤ s.toNat := UInt64.le_iff_toNat_le.1 hs
  have hnot : ¬ s < 0 := not_lt.2 (zero_le_uint64 s)
  have hguard : ¬ (snapshot.entries.isEmpty ∨ snapshot.globalMin > snapshot.globalMax) := by
    simpa [hne] using hle
  -- what decides: whether the sums wrap, and then whether anything lies below the cutoff
  have hclamp : s < clampCutoff snapshot nPackets ↔
      snapshot.NoWrap nPackets ∧ s.toNat < snapshot.purgeBound nPackets := by
    by_cases hwrap : snapshot.NoWrap nPackets
    · rw [UInt64.lt_iff_toNat_lt, Snapshot.toNat_clampCutoff hwrap]
      exact ⟨fun h => ⟨hwrap, h⟩, fun h => h.2⟩
    · have hbelow := (Snapshot.clampCutoff_le_of_wrap hwrap).trans hs
      exact ⟨fun h => absurd h (not_lt.2 hbelow), fun h => absurd h.1 hwrap⟩
  by_cases hzero : nPackets = 0
  · subst hzero
    rw [if_pos rfl]
    refine iff_of_false hnot fun h => ?_
    have : snapshot.purgeBound 0 ≤ snapshot.globalMin.toNat := min_le_left _ _
    omega
  · rw [if_neg hzero, if_neg hguard]
    dsimp only
    by_cases hpurged : clampCutoff snapshot nPackets - snapshot.globalMin = 0
    · have heq : clampCutoff snapshot nPackets = snapshot.globalMin := by
        rw [UInt64.sub_eq_iff_eq_add.1 hpurged, UInt64.zero_add]
      rw [if_pos hpurged, ← hclamp, heq]
      exact iff_of_false hnot (not_lt.2 hs)
    · rw [if_neg hpurged]
      exact hclamp

/-- The batch `truncateOldest` plans. -/
theorem planTruncation_snd {db : Database CF} {nPackets : UInt64} {plan : UInt64 × List BatchOp}
    (h : planTruncation db nPackets = some plan) :
    plan.2 = (snapshotRegistry db).entries.flatMap
      (truncateEntry (clampCutoff (snapshotRegistry db) nPackets)) := by
  unfold planTruncation at h
  dsimp only at h
  split_ifs at h
  rw [← Option.some.inj h]

/-- A truncation that does not wrap plans its batch. -/
theorem planTruncation_of_noWrap {db : Database CF} {nPackets : UInt64}
    (hne : (snapshotRegistry db).entries ≠ [])
    (hle : (snapshotRegistry db).globalMin ≤ (snapshotRegistry db).globalMax)
    (hn : nPackets ≠ 0) (h : (snapshotRegistry db).NoWrap nPackets) :
    planTruncation db nPackets =
      some (clampCutoff (snapshotRegistry db) nPackets - (snapshotRegistry db).globalMin,
        (snapshotRegistry db).entries.flatMap
          (truncateEntry (clampCutoff (snapshotRegistry db) nPackets))) := by
  have hguard : ¬ ((snapshotRegistry db).entries.isEmpty ∨
      (snapshotRegistry db).globalMin > (snapshotRegistry db).globalMax) := by
    simpa [hne] using hle
  have hpurged : clampCutoff (snapshotRegistry db) nPackets - (snapshotRegistry db).globalMin ≠ 0 := by
    intro hzero
    have hcount := Snapshot.toNat_purged h hle hn
    have hlt := Snapshot.lt_purgeBound hle hn
    rw [hzero, UInt64.toNat_zero] at hcount
    omega
  rw [planTruncation, if_neg hn]
  dsimp only
  rw [if_neg hguard, if_neg hpurged]

/-- **A truncation that does not wrap** commits its batch, -/
theorem truncateOldest_of_noWrap {db : Database CF} {nPackets : UInt64}
    (hne : (snapshotRegistry db).entries ≠ [])
    (hle : (snapshotRegistry db).globalMin ≤ (snapshotRegistry db).globalMax)
    (hn : nPackets ≠ 0) (h : (snapshotRegistry db).NoWrap nPackets) :
    RocksDatabase.truncateOldest false db nPackets =
      (clampCutoff (snapshotRegistry db) nPackets - (snapshotRegistry db).globalMin,
        db.commit ((snapshotRegistry db).entries.flatMap
          (truncateEntry (clampCutoff (snapshotRegistry db) nPackets)))) := by
  rw [RocksDatabase.truncateOldest, planTruncation_of_noWrap hne hle hn h]
  rfl

/-- and purges at the cutoff meant. -/
theorem toNat_cutoffOf {db : Database CF} {nPackets : UInt64}
    (hne : (snapshotRegistry db).entries ≠ [])
    (hle : (snapshotRegistry db).globalMin ≤ (snapshotRegistry db).globalMax)
    (hn : nPackets ≠ 0) (h : (snapshotRegistry db).NoWrap nPackets) :
    (cutoffOf db nPackets).toNat = (snapshotRegistry db).purgeBound nPackets := by
  rw [cutoffOf, planTruncation_of_noWrap hne hle hn h]
  exact Snapshot.toNat_clampCutoff h

/-- **What a planned truncation does to each stream,** where `seen` is the store it was
planned on and `db` the one it is committed to. -/
theorem WellFormed.view_commitPlan {seen : Database CF} (hseen : WellFormed seen)
    (db : Database CF) (nPackets : UInt64) (k : StreamKey) :
    view (commitPlan db (planTruncation seen nPackets)) k =
      StreamView.purge (view seen k).entry (cutoffOf seen nPackets) (view db k) := by
  unfold cutoffOf
  cases hplan : planTruncation seen nPackets with
  | none =>
      dsimp only
      cases (view seen k).entry with
      | none => rfl
      | some e => exact (StreamView.purge_of_le (zero_le_uint64 _) _).symm
  | some plan =>
      dsimp only
      rw [commitPlan, planTruncation_snd hplan, hseen.view_commit_truncation]

/-- A plan keeps the layout, whichever registry it saw. -/
theorem WellFormed.commitPlan {seen db : Database CF} (hseen : WellFormed seen)
    (hdb : WellFormed db) (nPackets : UInt64) :
    WellFormed (commitPlan db (planTruncation seen nPackets)) := by
  cases hplan : planTruncation seen nPackets with
  | none => exact hdb
  | some plan =>
      rw [RocksDatabase.commitPlan, planTruncation_snd hplan]
      exact hseen.commit_truncation hdb _

/-- **A successful truncation purges every stream at one cutoff.** -/
theorem WellFormed.view_truncateOldest {db : Database CF} (hdb : WellFormed db) (nPackets : UInt64)
    (k : StreamKey) :
    view (truncateOldest false db nPackets).2 k = (view db k).truncate (cutoffOf db nPackets) := by
  rw [← commitPlan_planTruncation]
  exact hdb.view_commitPlan db nPackets k

/-- A truncation whose `Write` fails leaves the store as it was. -/
theorem truncateOldest_snd (writeFails : Bool) (db : Database CF) (nPackets : UInt64) :
    (truncateOldest writeFails db nPackets).2 =
      if writeFails then db else (truncateOldest false db nPackets).2 := by
  unfold truncateOldest
  cases planTruncation db nPackets with
  | none => simp
  | some plan => cases writeFails <;> rfl

/-- So a truncation does. -/
theorem WellFormed.truncateOldest {db : Database CF} (hdb : WellFormed db) (writeFails : Bool)
    (nPackets : UInt64) : WellFormed (truncateOldest writeFails db nPackets).2 := by
  rw [truncateOldest_snd]
  split_ifs
  · exact hdb
  · rw [← commitPlan_planTruncation]
    exact hdb.commitPlan hdb nPackets

/-- **What a truncation drops,** on a valid store and where its sums do not wrap. -/
theorem WellFormed.records_truncateOldest {db : Database CF} (hdb : WellFormed db)
    (hvalid : ∀ k, (view db k).Valid) {nPackets : UInt64}
    (hwrap : (snapshotRegistry db).entries ≠ [] → (snapshotRegistry db).NoWrap nPackets)
    (k : StreamKey) (s : UInt64) :
    (view (RocksDatabase.truncateOldest false db nPackets).2 k).records s =
      if s.toNat < (snapshotRegistry db).purgeBound nPackets then none
      else (view db k).records s := by
  rw [hdb.view_truncateOldest, (hvalid k).records_truncate]
  cases hrecord : (view db k).records s with
  | none => simp
  | some r =>
      obtain ⟨e, he, hmin, -⟩ := (hvalid k).bounds s r hrecord
      obtain ⟨hne, hmin', hmax'⟩ := hdb.entry_bounds he
      have hiff := lt_cutoffOf_iff nPackets hne
        (hmin'.trans (((hvalid k).min_le_max he).trans hmax')) (hmin'.trans hmin)
      simp only [hiff, hwrap hne, true_and]

end Database

end RocksDatabase
end UDataPacketBroker
