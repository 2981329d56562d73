/-
# Dense stores

What `truncateOldest` is written for: a broker that loses no packet on the way to the
store.  Its packets are numbered one after another and all can be keyed, so its
store holds the packets of one interval of numbers, each in one stream, however they
are spread over the streams, and the registry's smallest number is the first of them
(`dense_run`).  On such a store a truncation by `n` removes the `n` oldest packets
and keeps it so.

An entry that a truncation advanced to the cutoff may start below the first packet of
its stream.  The stream that holds the first number of all is what keeps the smallest
of the registry exact: its entry can start neither after that number nor before it.
-/

import UDataPacketBroker.RocksDatabase.Contents
import UDataPacketBroker.RocksDatabase.Counting

namespace UDataPacketBroker
namespace RocksDatabase

open Library Utilities

variable {CF : Type} [OrderedStore CF Bytes Bytes]

/-- A batch in which every packet can be keyed, and the numbers go on from `first`. -/
structure Continues (first : ℕ) (receiptTimeAndData : List (Int64 × Packet)) : Prop where
  encodable (e : Int64 × Packet) (he : e ∈ receiptTimeAndData) : IsEncodable e.2.streamIdentifier
  numbers : receiptTimeAndData.map (fun e => e.2.sequenceNumber.toNat) =
    List.range' first receiptTimeAndData.length

/-- The runs of a store that receives every packet, from the number `first` on: writes
that succeed, and truncations that do not wrap.  `next` is the number to come. -/
inductive DenseRun (P : Platform) (first : ℕ) : ℕ → Database CF → Prop where
  | empty : DenseRun P first first Database.empty
  | write {next : ℕ} {db : Database CF} {receiptTimeAndData : List (Int64 × Packet)}
      (run : DenseRun P first next db) (continues : Continues next receiptTimeAndData) :
      DenseRun P first (next + receiptTimeAndData.length) (write P {} db receiptTimeAndData).2
  | truncateOldest {next : ℕ} {db : Database CF} {nPackets : UInt64} (writeFails : Bool)
      (run : DenseRun P first next db) (positive : nPackets ≠ 0)
      (noWrap : (snapshotRegistry db).entries ≠ [] → (snapshotRegistry db).NoWrap nPackets) :
      DenseRun P first next (truncateOldest writeFails db nPackets).2

/-- **The invariant of these runs:** the packets are those of the interval from `lo`
up to `next`, each in one stream, and no entry starts below `lo`. -/
structure Dense (db : Database CF) (lo next : ℕ) : Prop where
  sound : db.Sound
  le : lo ≤ next
  fits (h : lo < next) : next ≤ 2 ^ 64
  stores (s : UInt64) : db.Stores s ↔ lo ≤ s.toNat ∧ s.toNat < next
  unique : UniqueNumbers db
  lower (k : StreamKey) (e : Aggregate) (h : (db.view k).entry = some e) :
    lo ≤ e.minSequenceNumber.toNat

/-- An empty store holds the empty interval. -/
theorem dense_empty (first : ℕ) : Dense (Database.empty : Database CF) first first := by
  have hview (k : StreamKey) : (Database.empty : Database CF).view k = StreamView.empty :=
    Database.view_empty k
  refine ⟨Database.sound_empty, le_rfl, fun h => absurd h (lt_irrefl _), fun s => ?_, ?_, ?_⟩
  · refine iff_of_false ?_ (by omega)
    rintro ⟨k, r, hr⟩
    rw [hview] at hr
    cases hr
  · rintro k k' s ⟨r, hr⟩
    rw [hview] at hr
    cases hr
  · intro k e h
    rw [hview] at h
    cases h

/-- **The registry of a dense store that is not empty** covers its numbers exactly. -/
theorem Dense.bounds {db : Database CF} {lo next : ℕ} (h : Dense db lo next) (hlt : lo < next) :
    (snapshotRegistry db).entries ≠ [] ∧ (snapshotRegistry db).globalMin.toNat = lo ∧
      (snapshotRegistry db).globalMax.toNat + 1 = next := by
  have hfits := h.fits hlt
  have hword {n : ℕ} (hn : n < 2 ^ 64) : (UInt64.ofNat n).toNat = n := UInt64.toNat_ofNat_of_lt' hn
  have hfirst := hword (show lo < 2 ^ 64 by omega)
  have hlast := hword (show next - 1 < 2 ^ 64 by omega)
  obtain ⟨k, r, hr⟩ := (h.stores (UInt64.ofNat lo)).2 (by omega)
  obtain ⟨k', r', hr'⟩ := (h.stores (UInt64.ofNat (next - 1))).2 (by omega)
  obtain ⟨e, he, hmin, -⟩ := (h.sound.valid k).bounds _ r hr
  obtain ⟨e', he', -, hmax⟩ := (h.sound.valid k').bounds _ r' hr'
  obtain ⟨hne, hle, -⟩ := h.sound.wellFormed.entry_bounds he
  obtain ⟨-, -, hle'⟩ := h.sound.wellFormed.entry_bounds he'
  obtain ⟨⟨⟨k₀, e₀, he₀, hmin₀⟩, -⟩, ⟨k₁, e₁, he₁, hmax₁⟩, -⟩ :=
    h.sound.wellFormed.snapshotRegistry_bounds hne
  -- the registry's smallest number is no larger than the first stored, and no smaller
  have hlow := h.lower k₀ e₀ he₀
  have hfirstLe := UInt64.le_iff_toNat_le.1 (hle.trans hmin)
  -- and its largest is stored, and no smaller than the last
  have hlastLe := UInt64.le_iff_toNat_le.1 (hmax.trans hle')
  obtain ⟨r₁, hr₁⟩ := (h.sound.valid k₁).max_stored e₁ he₁
  have hstored := (h.stores e₁.maxSequenceNumber).1 ⟨k₁, r₁, hr₁⟩
  rw [hmin₀] at hlow
  rw [hmax₁] at hstored
  exact ⟨hne, by omega, by omega⟩

/-! ### A write -/

/-- What a continuing batch writes to a stream is numbered from `first` on. -/
theorem Continues.number_of_mem {P : Platform} {first : ℕ}
    {receiptTimeAndData : List (Int64 × Packet)} (h : Continues first receiptTimeAndData)
    {k : StreamKey} {i : UInt64 × Record}
    (hi : i ∈ updatesAt (items P receiptTimeAndData) k) :
    first ≤ i.1.toNat ∧ i.1.toNat < first + receiptTimeAndData.length := by
  obtain ⟨receiptTime, packet, hmem, -, rfl⟩ := mem_updatesAt_items.1 hi
  have hnumber : packet.sequenceNumber.toNat ∈
      receiptTimeAndData.map fun e => e.2.sequenceNumber.toNat :=
    List.mem_map.2 ⟨(receiptTime, packet), hmem, rfl⟩
  rw [h.numbers, List.mem_range'_1] at hnumber
  exact hnumber

/-- The numbers of a continuing batch. -/
theorem Continues.mem_writtenNumbers_iff {first : ℕ} {receiptTimeAndData : List (Int64 × Packet)}
    (h : Continues first receiptTimeAndData) (s : UInt64) :
    s ∈ writtenNumbers [.write false receiptTimeAndData] ↔
      first ≤ s.toNat ∧ s.toNat < first + receiptTimeAndData.length := by
  rw [← List.mem_range'_1, ← h.numbers, List.mem_map]
  constructor
  · rintro ⟨data, receiptTime, packet, hcall, hmem, -, rfl⟩
    obtain rfl : data = receiptTimeAndData := by simpa using hcall
    exact ⟨_, hmem, rfl⟩
  · rintro ⟨⟨receiptTime, packet⟩, hmem, hnumber⟩
    exact ⟨_, receiptTime, packet, List.mem_cons_self, hmem, h.encodable _ hmem,
      UInt64.toNat_inj.1 hnumber⟩

/-- The last number of a continuing batch is a word. -/
theorem Continues.fits {first : ℕ} {receiptTimeAndData : List (Int64 × Packet)}
    (h : Continues first receiptTimeAndData) (hne : receiptTimeAndData ≠ []) :
    first + receiptTimeAndData.length ≤ 2 ^ 64 := by
  have hpos := List.length_pos_iff.2 hne
  have hlast : first + (receiptTimeAndData.length - 1) ∈
      receiptTimeAndData.map fun e => e.2.sequenceNumber.toNat := by
    rw [h.numbers, List.mem_range'_1]
    omega
  obtain ⟨e, -, he⟩ := List.mem_map.1 hlast
  have hword := e.2.sequenceNumber.toNat_lt
  omega

/-- A continuing batch writes each of its numbers to one stream. -/
theorem Continues.stream_unique {P : Platform} {first : ℕ}
    {receiptTimeAndData : List (Int64 × Packet)} (h : Continues first receiptTimeAndData)
    {k k' : StreamKey} {i i' : UInt64 × Record} (hi : i ∈ updatesAt (items P receiptTimeAndData) k)
    (hi' : i' ∈ updatesAt (items P receiptTimeAndData) k') (hsame : i.1 = i'.1) : k = k' := by
  obtain ⟨receiptTime, packet, hmem, hk, rfl⟩ := mem_updatesAt_items.1 hi
  obtain ⟨receiptTime', packet', hmem', hk', rfl⟩ := mem_updatesAt_items.1 hi'
  have hnodup : (receiptTimeAndData.map fun e => e.2.sequenceNumber.toNat).Nodup := by
    rw [h.numbers]
    exact List.nodup_range'
  have heq := List.inj_on_of_nodup_map hnodup hmem hmem' (congrArg UInt64.toNat hsame)
  obtain ⟨-, rfl⟩ := Prod.mk.inj heq
  exact Option.some.inj (hk.symm.trans hk')

/-- **A write that goes on from `next` extends the interval.** -/
theorem Dense.write {db : Database CF} {lo next : ℕ} (h : Dense db lo next) (P : Platform)
    {receiptTimeAndData : List (Int64 × Packet)} (hbatch : Continues next receiptTimeAndData) :
    Dense (RocksDatabase.write P {} db receiptTimeAndData).2 lo
      (next + receiptTimeAndData.length) := by
  have hle := h.le
  have hstored {k : StreamKey} {s : UInt64} (hs : s ∈ (db.view k).numbers) : s.toNat < next := by
    obtain ⟨r, hr⟩ := hs
    exact ((h.stores s).1 ⟨k, r, hr⟩).2
  refine ⟨h.sound.step P (.write false receiptTimeAndData), by omega, fun hlt => ?_, fun s => ?_,
    ?_, ?_⟩
  · rcases eq_or_ne receiptTimeAndData [] with rfl | hne
    · exact h.fits hlt
    · exact hbatch.fits hne
  · rw [h.sound.stores_write_iff, h.stores, hbatch.mem_writtenNumbers_iff]
    omega
  · intro k k' s hs hs'
    rw [Database.numbers_write] at hs hs'
    rcases hs with hs | ⟨i, hi, rfl⟩
    · rcases hs' with hs' | ⟨i', hi', rfl⟩
      · exact h.unique k k' s hs hs'
      · have hold := hstored hs
        have hnew := (hbatch.number_of_mem hi').1
        omega
    · rcases hs' with hs' | ⟨i', hi', hsame⟩
      · have hold := hstored hs'
        have hnew := (hbatch.number_of_mem hi).1
        omega
      · exact hbatch.stream_unique hi hi' hsame.symm
  · intro k e he
    rw [h.sound.wellFormed.view_write] at he
    refine StreamView.le_min_foldl_append (fun i hi => ?_) (h.lower k) he
    exact h.le.trans (hbatch.number_of_mem hi).1

/-! ### A truncation -/

/-- The cutoff on a dense store. -/
theorem Dense.purgeBound {db : Database CF} {lo next : ℕ} (h : Dense db lo next) (hlt : lo < next)
    (nPackets : UInt64) :
    (snapshotRegistry db).purgeBound nPackets = lo + min nPackets.toNat (next - lo) := by
  obtain ⟨-, hmin, hmax⟩ := h.bounds hlt
  rw [Snapshot.purgeBound, hmin, hmax]
  omega

/-- A truncation of an empty store does nothing. -/
theorem Dense.truncateOldest_of_eq {db : Database CF} {lo next : ℕ} (h : Dense db lo next)
    (heq : lo = next) (writeFails : Bool) (nPackets : UInt64) :
    truncateOldest writeFails db nPackets = (0, db) := by
  rcases truncateOldest_cases writeFails db nPackets with hnone | ⟨-, hne, -⟩
  · exact hnone
  · obtain ⟨⟨⟨k, e, he, -⟩, -⟩, -⟩ := h.sound.wellFormed.snapshotRegistry_bounds hne
    obtain ⟨r, hr⟩ := (h.sound.valid k).max_stored e he
    have hstored := (h.stores e.maxSequenceNumber).1 ⟨k, r, hr⟩
    omega

/-- **A truncation by `n` takes the first `n` numbers off the interval.** -/
theorem Dense.truncateOldest {db : Database CF} {lo next : ℕ} (h : Dense db lo next)
    {nPackets : UInt64} (hn : nPackets ≠ 0)
    (hwrap : (snapshotRegistry db).entries ≠ [] → (snapshotRegistry db).NoWrap nPackets) :
    Dense (truncateOldest false db nPackets).2 (lo + min nPackets.toNat (next - lo)) next := by
  rcases eq_or_lt_of_le h.le with heq | hlt
  · rw [h.truncateOldest_of_eq heq]
    rwa [show lo + min nPackets.toNat (next - lo) = lo by omega]
  obtain ⟨hne, hmin, hmax⟩ := h.bounds hlt
  have hle := h.sound.globalMin_le_globalMax hne
  have hcutoff : (Database.cutoffOf db nPackets).toNat = lo + min nPackets.toNat (next - lo) := by
    rw [Database.toNat_cutoffOf hne hle hn (hwrap hne), h.purgeBound hlt]
  refine ⟨h.sound.step .protobuf (.truncateOldest false nPackets), by omega,
    fun _ => h.fits hlt, fun s => ?_, ?_, ?_⟩
  · rw [h.sound.stores_truncateOldest_iff, h.stores, UInt64.le_iff_toNat_le, hcutoff]
    omega
  · intro k k' s hs hs'
    have hsub (k : StreamKey) : ((RocksDatabase.truncateOldest false db nPackets).2.view k).numbers
        ⊆ (db.view k).numbers := by
      rw [h.sound.wellFormed.view_truncateOldest,
        StreamView.numbers_of_records_eq ((h.sound.valid k).records_truncate _)]
      exact Set.sep_subset _ _
    exact h.unique k k' s (hsub k hs) (hsub k' hs')
  · intro k e he
    rw [h.sound.wellFormed.view_truncateOldest, StreamView.truncate] at he
    cases hentry : (db.view k).entry with
    | none =>
        rw [hentry, StreamView.purge_none, hentry] at he
        cases he
    | some e' =>
        rw [hentry] at he
        rcases le_or_gt (Database.cutoffOf db nPackets) e'.minSequenceNumber with hskip | hcut
        · rw [StreamView.purge_of_le hskip, hentry] at he
          rw [← hcutoff, ← Option.some.inj he]
          exact UInt64.le_iff_toNat_le.1 hskip
        · rw [StreamView.purge_of_lt hcut] at he
          dsimp only at he
          split_ifs at he
          rw [← hcutoff, ← Option.some.inj he]

/-- **Every run of this kind leaves the store dense.** -/
theorem dense_run {P : Platform} {first next : ℕ} {db : Database CF}
    (hrun : DenseRun P first next db) : ∃ lo, Dense db lo next := by
  induction hrun with
  | empty => exact ⟨first, dense_empty first⟩
  | write _ continues ih =>
      obtain ⟨lo, h⟩ := ih
      exact ⟨lo, h.write P continues⟩
  | truncateOldest writeFails _ positive noWrap ih =>
      obtain ⟨lo, h⟩ := ih
      cases writeFails with
      | true => exact ⟨lo, by rw [Database.truncateOldest_snd, if_pos rfl]; exact h⟩
      | false => exact ⟨_, h.truncateOldest positive noWrap⟩

/-- As many packets lie below a bound in the interval as numbers do. -/
theorem Dense.length_recordsBelow {db : Database CF} {lo next : ℕ} (h : Dense db lo next)
    {bound : ℕ} (hbound : bound ≤ next) : (recordsBelow db bound).length = bound - lo := by
  have hbetween : ∀ n ∈ (recordsBelow db bound).map (fun e => (response e).sequenceNumber.toNat),
      lo ≤ n ∧ n < bound := by
    intro n hmem
    obtain ⟨hlt, s, hs, rfl⟩ := (h.sound.wellFormed.mem_recordsBelow_iff bound n).1 hmem
    exact ⟨((h.stores s).1 hs).1, hlt⟩
  have hfills := length_eq_sub_iff (h.sound.wellFormed.nodup_recordsBelow h.unique bound) hbetween
  rw [List.length_map] at hfills
  refine hfills.2 fun n hlo hn => ?_
  have hfits := h.fits (by omega)
  have hword : (UInt64.ofNat n).toNat = n :=
    UInt64.toNat_ofNat_of_lt' (show n < 2 ^ 64 by omega)
  exact (h.sound.wellFormed.mem_recordsBelow_iff bound n).2
    ⟨hn, UInt64.ofNat n, (h.stores _).2 (by omega), hword⟩

/-- What a truncation removes from a dense store, counted. -/
theorem Dense.length_removed {db : Database CF} {lo next : ℕ} (h : Dense db lo next)
    {nPackets : UInt64}
    (hwrap : (snapshotRegistry db).entries ≠ [] → (snapshotRegistry db).NoWrap nPackets) :
    (removed db (RocksDatabase.truncateOldest false db nPackets).2).length =
      min nPackets.toNat (next - lo) := by
  rcases eq_or_lt_of_le h.le with heq | hlt
  · have hnone : removed db db = [] := by
      refine List.filter_eq_nil_iff.2 fun e he => ?_
      have hget := (OrderedStore.mem_entries db.packets e.1 e.2).1 he
      simp [hget]
    rw [h.truncateOldest_of_eq heq, hnone, List.length_nil]
    omega
  · rw [h.sound.removed_truncateOldest hwrap, h.purgeBound hlt, h.length_recordsBelow (by omega)]
    omega

/-- **On a dense store a truncation removes exactly the oldest packets.**  In every
state of a run the numbers stored are one interval, from `lo` up to `next`, each in one
stream, and `lo` is the smallest of the registry; and a truncation by `n` removes the
packets with the `min n (next - lo)` smallest numbers, in whichever streams they are,
and leaves every other record in its stream. -/
theorem dense_truncateOldest {P : Platform} {first next : ℕ} {db : Database CF}
    (hrun : DenseRun P first next db) :
    ∃ lo ≤ next, (∀ s, db.Stores s ↔ lo ≤ s.toNat ∧ s.toNat < next) ∧ UniqueNumbers db ∧
      (lo < next → (snapshotRegistry db).globalMin.toNat = lo) ∧
      ∀ nPackets, nPackets ≠ 0 →
        ((snapshotRegistry db).entries ≠ [] → (snapshotRegistry db).NoWrap nPackets) →
        (removed db (truncateOldest false db nPackets).2).length
            = min nPackets.toNat (next - lo) ∧
          ∀ k s, ((truncateOldest false db nPackets).2.view k).records s =
            if s.toNat < lo + min nPackets.toNat (next - lo) then none
            else (db.view k).records s := by
  obtain ⟨lo, h⟩ := dense_run hrun
  refine ⟨lo, h.le, h.stores, h.unique, fun hlt => (h.bounds hlt).2.1,
    fun nPackets hn hwrap => ⟨h.length_removed hwrap, fun k s => ?_⟩⟩
  rcases eq_or_lt_of_le h.le with heq | hlt
  · rw [h.truncateOldest_of_eq heq]
    -- nothing is stored at all
    cases hrecord : (db.view k).records s with
    | none => simp
    | some r =>
        have hstored := (h.stores s).1 ⟨k, r, hrecord⟩
        omega
  · rw [h.sound.wellFormed.records_truncateOldest h.sound.valid hwrap, h.purgeBound hlt]

/-- A packet of `UU.FTU.HHZ.01` and one of `UU.FTU.HHN`. -/
def twoStreams : List (Int64 × Packet) :=
  [(5, samplePacket 1), (6, { samplePacket 2 with
    streamIdentifier? := some ⟨some [85, 85], some [70, 84, 85], some [72, 72, 78], none⟩ })]

/-- Packets 1 and 2 in two streams, and a truncation by one. -/
theorem dense_truncateOldest_twoStreams :
    ∃ lo ≤ 3, ∃ db : Database (SortedTable Bytes Bytes),
      db = (write .protobuf {} Database.empty twoStreams).2 ∧
        (∀ s, db.Stores s ↔ lo ≤ s.toNat ∧ s.toNat < 3) ∧
        (removed db (truncateOldest false db 1).2).length = min 1 (3 - lo) := by
  have hempty : DenseRun .protobuf 1 1 (Database.empty : Database (SortedTable Bytes Bytes)) :=
    .empty
  have hrun := hempty.write (⟨by decide, by decide⟩ : Continues 1 twoStreams)
  obtain ⟨lo, hlo, hstores, -, -, htruncate⟩ := dense_truncateOldest hrun
  exact ⟨lo, hlo, _, rfl, hstores, (htruncate 1 (by decide) fun _ => by decide +kernel).1⟩

end RocksDatabase
end UDataPacketBroker
