/-
# The truncator thread

`BrokerImpl::truncateDataStore` of `src/broker.cpp`: while the store is larger than
desired, its inner loop calls `truncateOldest` on one chunk of packets after another,
until a call returns 0.

What `getSizeInBytes` reports is up to RocksDB and need not fall, so it cannot end
the loop.  What does is the registry: every call that returns something takes a chunk
off the numbers it covers (`span_truncateOldest`), and a call on nothing returns 0
(`truncationLoop_ends`).
-/

import UDataPacketBroker.RocksDatabase.Progress

namespace UDataPacketBroker
namespace Broker

open Library Utilities RocksDatabase

variable {CF : Type} [OrderedStore CF Bytes Bytes]

/-- The store and the local variables of the inner loop, with the number of calls of
`truncateOldest` it has made. -/
structure TruncatorLocals (CF : Type) where
  db : Database CF
  nTotalTruncated : Int32 := 0
  calls : ℕ := 0

/-- `int` plus `size_t` is a `size_t`, and an `int` again when it is assigned. -/
def addTruncated (nTotalTruncated : Int32) (nTruncated : UInt64) : Int32 :=
  (nTotalTruncated.toInt64.toUInt64 + nTruncated).toInt64.toInt32

/-- The inner loop, for at most `fuel` rounds.  The `i`-th round finds the size
`sizes i`, and the `Write` of its call fails when `writeFails i`. -/
def truncationLoop (desiredSizeInBytes chunkSize : UInt64) (sizes : ℕ → UInt64)
    (writeFails : ℕ → Bool) : ℕ → TruncatorLocals CF → Option (TruncatorLocals CF)
  | 0, _ => none
  | fuel + 1, locals =>
    if sizes locals.calls > desiredSizeInBytes then
      let (nTruncated, db) := truncateOldest (writeFails locals.calls) locals.db chunkSize
      if nTruncated = 0 then some { locals with db := db, calls := locals.calls + 1 }
      else
        truncationLoop desiredSizeInBytes chunkSize sizes writeFails fuel
          { db := db
            nTotalTruncated := addTruncated locals.nTotalTruncated nTruncated
            calls := locals.calls + 1 }
    else some locals

/-- The shortest interval, in milliseconds. -/
def minimumInterval : Int64 := 10

/-- The interval to the next pass: half of it after a pass that truncated, twice of it
after one that did not. -/
def nextInterval (initialInterval currentInterval : Int64) (nTotalTruncated : Int32) : Int64 :=
  if nTotalTruncated > 0 then max minimumInterval (currentInterval / 2)
  else min initialInterval (currentInterval * 2)

/-- One pass of `truncateDataStore`, up to its sleep. -/
def truncateDataStore (desiredSizeInBytes : Option UInt64) (chunkSize : UInt64)
    (sizes : ℕ → UInt64) (writeFails : ℕ → Bool) (fuel : ℕ)
    (initialInterval currentInterval : Int64) (db : Database CF) :
    Option (Database CF × Int64) :=
  match desiredSizeInBytes with
  | none => some (db, currentInterval)
  | some desiredSizeInBytes =>
    (truncationLoop desiredSizeInBytes chunkSize sizes writeFails fuel { db := db }).map
      fun locals => (locals.db, nextInterval initialInterval currentInterval locals.nTotalTruncated)

/-! ### The loop ends -/

/-- The calls it takes to purge a span of numbers chunk by chunk. -/
def chunks (span chunkSize : ℕ) : ℕ := (span + chunkSize - 1) / chunkSize

/-- A chunk less takes a call less. -/
theorem chunks_lt {span span' chunkSize : ℕ} (hchunk : 0 < chunkSize) (hspan : 0 < span)
    (hle : span' ≤ span - chunkSize) : chunks span' chunkSize < chunks span chunkSize := by
  unfold chunks
  rw [Nat.lt_iff_add_one_le, ← Nat.add_div_right _ hchunk]
  rcases le_or_gt chunkSize span with hmore | hless
  · exact Nat.div_le_div_right (by omega)
  · obtain rfl : span' = 0 := by omega
    have hone : (0 + chunkSize - 1 + chunkSize) / chunkSize = 1 := by
      rw [Nat.add_div_right _ hchunk, Nat.div_eq_of_lt (by omega)]
    rw [hone, Nat.le_div_iff_mul_le hchunk]
    omega

/-- The loop from any state: the calls it still makes are those of its span, and one. -/
theorem truncationLoop_calls {desiredSizeInBytes chunkSize : UInt64} (hchunk : chunkSize ≠ 0)
    (sizes : ℕ → UInt64) (writeFails : ℕ → Bool) (fuel : ℕ) (locals : TruncatorLocals CF)
    (hfit : (snapshotRegistry locals.db).globalMax.toNat + chunkSize.toNat < 2 ^ 64)
    (hfuel : chunks (snapshotRegistry locals.db).span chunkSize.toNat + 2 ≤ fuel) :
    ∃ final, truncationLoop desiredSizeInBytes chunkSize sizes writeFails fuel locals = some final ∧
      final.calls ≤ locals.calls + chunks (snapshotRegistry locals.db).span chunkSize.toNat + 1 := by
  have hpos : 0 < chunkSize.toNat :=
    Nat.pos_of_ne_zero fun hzero => hchunk (UInt64.toNat_inj.1 hzero)
  induction fuel generalizing locals with
  | zero => omega
  | succ fuel ih =>
      rw [truncationLoop]
      by_cases hsize : sizes locals.calls > desiredSizeInBytes
      · rw [if_pos hsize]
        by_cases hzero : (truncateOldest (writeFails locals.calls) locals.db chunkSize).1 = 0
        · refine ⟨_, if_pos hzero, ?_⟩
          dsimp only
          omega
        · -- a chunk was purged: the rest of the loop has a call less to make
          obtain ⟨hspan, hle⟩ := span_truncateOldest hfit hzero
          have hless := chunks_lt hpos hspan hle
          have hmax := UInt64.le_iff_toNat_le.1
            (progress_truncateOldest (writeFails locals.calls) hfit).globalMax_le
          obtain ⟨final, hfinal, hcalls⟩ := ih
            { db := (truncateOldest (writeFails locals.calls) locals.db chunkSize).2
              nTotalTruncated := addTruncated locals.nTotalTruncated
                (truncateOldest (writeFails locals.calls) locals.db chunkSize).1
              calls := locals.calls + 1 } (by dsimp only; omega) (by dsimp only; omega)
          refine ⟨final, (if_neg hzero).trans hfinal, ?_⟩
          dsimp only at hcalls
          omega
      · rw [if_neg hsize]
        exact ⟨_, rfl, by omega⟩

/-- So a pass of the truncator comes to its sleep. -/
theorem exists_truncateDataStore (desiredSizeInBytes : Option UInt64) {chunkSize : UInt64}
    (hchunk : chunkSize ≠ 0) (sizes : ℕ → UInt64) (writeFails : ℕ → Bool)
    (initialInterval currentInterval : Int64) {db : Database CF}
    (hfit : (snapshotRegistry db).globalMax.toNat + chunkSize.toNat < 2 ^ 64) :
    ∃ fuel result, truncateDataStore desiredSizeInBytes chunkSize sizes writeFails fuel
      initialInterval currentInterval db = some result := by
  refine ⟨chunks (snapshotRegistry db).span chunkSize.toNat + 2, ?_⟩
  cases desiredSizeInBytes with
  | none => exact ⟨_, rfl⟩
  | some desiredSizeInBytes =>
      obtain ⟨final, hfinal, -⟩ := @truncationLoop_calls CF _ desiredSizeInBytes chunkSize hchunk
        sizes writeFails _ { db := db } hfit le_rfl
      rw [truncateDataStore, hfinal]
      exact ⟨_, rfl⟩

/-- **The truncation loop ends.**  On any store, whatever sizes are reported and
whichever `Write`s fail, it calls `truncateOldest` at most once for each chunk of the
numbers the registry covers and once more: a call that does not return 0 raises the
registry's minimum by what it returns or empties the registry, no call raises its
maximum, and a call on an empty registry returns 0. -/
theorem truncationLoop_ends (db : Database CF) {chunkSize : UInt64} (hchunk : chunkSize ≠ 0)
    (hfit : (snapshotRegistry db).globalMax.toNat + chunkSize.toNat < 2 ^ 64) :
    (∀ (desiredSizeInBytes : UInt64) (sizes : ℕ → UInt64) (writeFails : ℕ → Bool) (fuel : ℕ),
      chunks (snapshotRegistry db).span chunkSize.toNat + 2 ≤ fuel →
      ∃ final : TruncatorLocals CF,
        truncationLoop desiredSizeInBytes chunkSize sizes writeFails fuel { db := db } = some final ∧
          final.calls ≤ chunks (snapshotRegistry db).span chunkSize.toNat + 1) ∧
      ∀ writeFails, Progress (snapshotRegistry db)
        (snapshotRegistry (truncateOldest writeFails db chunkSize).2)
        (truncateOldest writeFails db chunkSize).1 := by
  refine ⟨fun desiredSizeInBytes sizes writeFails fuel hfuel => ?_,
    fun writeFails => progress_truncateOldest writeFails hfit⟩
  obtain ⟨final, hfinal, hcalls⟩ :=
    truncationLoop_calls hchunk sizes writeFails fuel { db := db } hfit hfuel
  exact ⟨final, hfinal, by dsimp only at hcalls; omega⟩

/-- Packets 1, 4 and 5 are gone after at most four calls of two packets each. -/
theorem truncationLoop_ends_samplePacket :
    ∃ final : TruncatorLocals (SortedTable Bytes Bytes),
      truncationLoop 0 2 (fun _ => 1) (fun _ => false) 5
        { db := run .protobuf [.write false [(7, samplePacket 1), (8, samplePacket 4),
          (9, samplePacket 5)]] } = some final ∧ final.calls ≤ 4 :=
  (truncationLoop_ends (run .protobuf [.write false [(7, samplePacket 1), (8, samplePacket 4),
    (9, samplePacket 5)]]) (by decide) (by decide +kernel)).1 0 _ _ 5 (by decide +kernel)

end Broker
end UDataPacketBroker
