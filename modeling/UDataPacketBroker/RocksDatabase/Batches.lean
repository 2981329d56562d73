/-
# How packets are split into batches

`write` summarises a batch in its accumulators and merges the summaries with the
registry through their 24-byte values.  Both are one merge, associative,
commutative and idempotent: over one stream a write widens the entry it reads by
its packets one by one (`registered`).  So it makes no difference to the contents
of the store where one batch ends and the next begins, in which order a batch
lists its packets, or whether it is written again (`write_batches`).
-/

import UDataPacketBroker.RocksDatabase.Contents

namespace UDataPacketBroker
namespace RocksDatabase

open Library Utilities

namespace Aggregate

/-- An entry widened by itself stays as it is. -/
theorem merge_self (a : Aggregate) : a.merge a = a := by
  simp [merge]

/-- Packets widen an entry by the same amount in any order. -/
theorem foldl_widen_perm {items items' : List (UInt64 × Record)} (h : items.Perm items')
    (o : Option Aggregate) : items.foldl widen o = items'.foldl widen o := by
  have hswap (e a b : Aggregate) : (e.merge a).merge b = (e.merge b).merge a := by
    rw [merge_assoc, merge_comm a b, ← merge_assoc]
  have hcomm : RightCommutative widen := ⟨fun o i j => by
    cases o with
    | none => exact congrArg some (merge_comm _ _)
    | some e => exact congrArg some (hswap e _ _)⟩
  exact h.foldl_eq o

/-- Packets widen an entry once. -/
theorem foldl_widen_self (items : List (UInt64 × Record)) (o : Option Aggregate) :
    items.foldl widen (items.foldl widen o) = items.foldl widen o := by
  cases o with
  | none =>
      cases hsummary : items.foldl widen none with
      | none => exact hsummary
      | some a => rw [foldl_widen_some, hsummary, Option.elim_some, merge_self]
  | some e =>
      rw [foldl_widen_some e, foldl_widen_some]
      cases items.foldl widen none with
      | none => rfl
      | some a => rw [Option.elim_some, Option.elim_some, merge_assoc, merge_self]

end Aggregate

/-! ### One registry value -/

/-- The registry value of a stream after a write of `items` to it. -/
def registered (items : List (UInt64 × Record)) (existing : Option Bytes) : Option Bytes :=
  if items = [] then existing
  else (items.foldl Aggregate.widen (readEntry existing)).map encodeEntry

/-- Two parts of a batch are registered one after the other. -/
theorem registered_append (items items' : List (UInt64 × Record)) (existing : Option Bytes) :
    registered (items ++ items') existing = registered items' (registered items existing) := by
  by_cases h : items = []
  · simp [registered, h]
  · by_cases h' : items' = []
    · simp [registered, h']
    · have happend : items ++ items' ≠ [] := fun heq => h (List.append_eq_nil_iff.1 heq).1
      rw [registered, if_neg happend, registered, if_neg h', registered, if_neg h,
        readEntry_map_encodeEntry, List.foldl_append]

/-- What is registered again changes nothing. -/
theorem registered_self (items : List (UInt64 × Record)) (existing : Option Bytes) :
    registered items (registered items existing) = registered items existing := by
  by_cases h : items = []
  · simp [registered, h]
  · rw [registered, if_neg h, registered, if_neg h, readEntry_map_encodeEntry,
      Aggregate.foldl_widen_self]

/-- The order within a batch does not matter to its entry. -/
theorem registered_perm {items items' : List (UInt64 × Record)} (h : items.Perm items')
    (existing : Option Bytes) : registered items existing = registered items' existing := by
  have hnil : items = [] ↔ items' = [] := by
    rw [← List.length_eq_zero_iff, ← List.length_eq_zero_iff, h.length_eq]
  unfold registered
  rw [Aggregate.foldl_widen_perm h]
  simp only [hnil]

variable {CF : Type} [OrderedStore CF Bytes Bytes]

namespace Database

/-- **A write registers its packets stream by stream.** -/
theorem get_streams_write_eq_registered (P : Platform) (db : Database CF)
    (receiptTimeAndData : List (Int64 × Packet)) (k : StreamKey) :
    OrderedStore.get (write P {} db receiptTimeAndData).2.streams k.bytes =
      registered (updatesAt (items P receiptTimeAndData) k)
        (OrderedStore.get db.streams k.bytes) := by
  have hread : getExisting (fun _ => false) db k.bytes = OrderedStore.get db.streams k.bytes := rfl
  rw [get_streams_write, hread, summary, registered]
  by_cases h : updatesAt (items P receiptTimeAndData) k = []
  · rw [if_pos h, h]
    rfl
  · rw [if_neg h]
    cases hsummary : (updatesAt (items P receiptTimeAndData) k).foldl Aggregate.widen none with
    | none => exact absurd (Aggregate.foldl_widen_eq_none_iff.1 hsummary) h
    | some a =>
        rw [Option.elim_some, mergeExisting_eq_readEntry]
        cases readEntry (OrderedStore.get db.streams k.bytes) with
        | none =>
            rw [hsummary]
            rfl
        | some e =>
            rw [Aggregate.foldl_widen_some, hsummary, Option.elim_some, Option.elim_some,
              Aggregate.merge_comm]
            rfl

/-- Two stores with the same packets and the same registry. -/
def SameContents (db db' : Database CF) : Prop :=
  OrderedStore.entries db.packets = OrderedStore.entries db'.packets ∧
    OrderedStore.entries db.streams = OrderedStore.entries db'.streams

/-- Two writes leave the same contents when every packet key and every stream reads
the same after them. -/
theorem sameContents_write {P : Platform} {db : Database CF}
    {receiptTimeAndData receiptTimeAndData' : List (Int64 × Packet)} {db' : Database CF}
    (hpackets : ∀ key,
      OrderedStore.get (write P {} db receiptTimeAndData).2.packets key =
        OrderedStore.get (write P {} db' receiptTimeAndData').2.packets key)
    (hstreams : ∀ k : StreamKey,
      OrderedStore.get (write P {} db receiptTimeAndData).2.streams k.bytes =
        OrderedStore.get (write P {} db' receiptTimeAndData').2.streams k.bytes)
    (hother : ∀ key, (∀ k : StreamKey, k.bytes ≠ key) →
      OrderedStore.get db.streams key = OrderedStore.get db'.streams key) :
    SameContents (write P {} db receiptTimeAndData).2 (write P {} db' receiptTimeAndData').2 := by
  refine ⟨OrderedStore.entries_congr (funext hpackets), OrderedStore.entries_congr ?_⟩
  funext key
  by_cases h : ∃ k : StreamKey, k.bytes = key
  · obtain ⟨k, rfl⟩ := h
    exact hstreams k
  · have hne (k : StreamKey) : k.bytes ≠ key := fun hk => h ⟨k, hk⟩
    rw [get_streams_write_of_ne P _ _ _ hne, get_streams_write_of_ne P _ _ _ hne, hother key hne]

end Database

/-- The items of a batch in two parts. -/
theorem items_append (P : Platform) (batch batch' : List (Int64 × Packet)) :
    items P (batch ++ batch') = items P batch ++ items P batch' := List.filterMap_append

/-- The puts of a batch in two parts. -/
theorem packetPuts_append (P : Platform) (batch batch' : List (Int64 × Packet)) :
    packetPuts P (batch ++ batch') = packetPuts P batch ++ packetPuts P batch' := by
  rw [packetPuts, items_append, List.map_append]
  rfl

/-- **Batch boundaries, the order in a batch and retries do not matter.**  A batch
written in two parts leaves what it leaves at once, and hands the same packets back;
a batch of packets with distinct keys leaves the same in any order; and writing a
batch again changes nothing. -/
theorem write_batches (P : Platform) (db : Database CF) :
    (∀ batch batch' : List (Int64 × Packet),
      Database.SameContents (write P {} db (batch ++ batch')).2
          (write P {} (write P {} db batch).2 batch').2 ∧
        (write P {} db (batch ++ batch')).1 =
          (write P {} db batch).1 ++ (write P {} (write P {} db batch).2 batch').1) ∧
      (∀ batch batch' : List (Int64 × Packet), batch.Perm batch' → DistinctKeys batch →
        Database.SameContents (write P {} db batch).2 (write P {} db batch').2) ∧
      ∀ batch : List (Int64 × Packet),
        Database.SameContents (write P {} (write P {} db batch).2 batch).2
          (write P {} db batch).2 := by
  refine ⟨fun batch batch' => ⟨?_, ?_⟩, fun batch batch' hperm hdistinct => ?_, fun batch => ?_⟩
  · refine Database.sameContents_write (fun key => ?_) (fun k => ?_) fun key hne => ?_
    · rw [Database.get_packets_write, Database.get_packets_write, Database.get_packets_write,
        packetPuts_append, updatesAt_append, List.getLast?_append, Option.or_assoc]
    · rw [Database.get_streams_write_eq_registered, Database.get_streams_write_eq_registered,
        Database.get_streams_write_eq_registered, items_append, updatesAt_append,
        registered_append]
    · exact (Database.get_streams_write_of_ne P _ db batch hne).symm
  · rw [Database.write_eq, Database.write_eq, Database.write_eq]
    simp [rejected]
  · refine Database.sameContents_write (fun key => ?_) (fun k => ?_) fun _ _ => rfl
    · have hputs : (packetPuts P batch).Perm (packetPuts P batch') := (hperm.filterMap _).map _
      rw [Database.get_packets_write, Database.get_packets_write,
        updatesAt_eq_of_perm hputs (hdistinct.nodup_packetPuts P)]
    · have hitems : (items P batch).Perm (items P batch') := hperm.filterMap _
      rw [Database.get_streams_write_eq_registered, Database.get_streams_write_eq_registered,
        registered_perm (updatesAt_perm hitems k)]
  · refine Database.sameContents_write (fun key => ?_) (fun k => ?_) fun key hne => ?_
    · rw [Database.get_packets_write, Database.get_packets_write, ← Option.or_assoc,
        Option.or_self]
    · rw [Database.get_streams_write_eq_registered, Database.get_streams_write_eq_registered,
        registered_self]
    · exact Database.get_streams_write_of_ne P _ db batch hne

end RocksDatabase
end UDataPacketBroker
