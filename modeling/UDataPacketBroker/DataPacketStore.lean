/-
# The store interface

`src/dataPacketStore.cpp`.  A store implements the batch members of
`IDataPacketStore`; the one-off members are the interface's own and hand a batch of
one to them.  The two writes report in opposite ways: the batch write returns the
packets that were not written, and the one-off write is to return whether the packet
was written.  The code maps an empty list to false and any other to true, so over
every store the one-off write returns whether packets came back
(`writeMoved_eq_true_iff`).
-/

import UDataPacketBroker.RocksDatabase.Contents

namespace UDataPacketBroker
namespace DataPacketStore

open RocksDatabase Library Utilities

/-- The members of `IDataPacketStore` that a store implements, as far as the one-off
members call them.  `write` returns the packets that were not written. -/
structure IDataPacketStore (Store : Type) where
  write : Store → List (Int64 × Packet) → List Packet × Store
  query : Store → List (StreamIdentifier × UInt64) → List QueryResponse

namespace IDataPacketStore

variable {Store : Type}

/-- The one-off `write(std::pair &&)`. -/
def writeMoved (interface : IDataPacketStore Store) (store : Store)
    (receiptTimeAndData : Int64 × Packet) : Bool × Store :=
  let receiptTimesAndData := [receiptTimeAndData]
  let (notWritten, store) := interface.write store receiptTimesAndData
  (if notWritten.isEmpty then false else true, store)

/-- The one-off `write(const std::pair &)`. -/
def writeCopied (interface : IDataPacketStore Store) (store : Store)
    (packet : Int64 × Packet) : Bool × Store :=
  let copy := packet
  interface.writeMoved store copy

/-- The one-off `query`. -/
def queryOne (interface : IDataPacketStore Store) (store : Store)
    (identifierAndSequenceNumber : StreamIdentifier × UInt64) : List QueryResponse :=
  let identifiersAndSequenceNumbers := [identifierAndSequenceNumber]
  interface.query store identifiersAndSequenceNumbers

/-- **The one-off write returns whether the batch write returned packets.** -/
theorem writeMoved_eq_true_iff (interface : IDataPacketStore Store) (store : Store)
    (receiptTimeAndData : Int64 × Packet) :
    (interface.writeMoved store receiptTimeAndData).1 = true ↔
      (interface.write store [receiptTimeAndData]).1 ≠ [] := by
  rw [writeMoved, Ne, ← List.isEmpty_iff]
  dsimp only
  cases (interface.write store [receiptTimeAndData]).1.isEmpty <;> decide

end IDataPacketStore

variable {CF : Type} [OrderedStore CF Bytes Bytes]

/-- `RocksDatabase`, which overrides the batch members alone. -/
def rocksDatabase (P : Platform) (faults : Faults) : IDataPacketStore (Database CF) where
  write := RocksDatabase.write P faults
  query := RocksDatabase.query

/-- The store's `write` is that of RocksDB. -/
@[simp] theorem write_rocksDatabase (P : Platform) (faults : Faults) (db : Database CF)
    (receiptTimesAndData : List (Int64 × Packet)) :
    (rocksDatabase P faults).write db receiptTimesAndData =
      RocksDatabase.write P faults db receiptTimesAndData := rfl

/-- A query for one stream is a request with one entry. -/
@[simp] theorem queryOne_rocksDatabase (P : Platform) (faults : Faults) (db : Database CF)
    (identifierAndSequenceNumber : StreamIdentifier × UInt64) :
    (rocksDatabase P faults).queryOne db identifierAndSequenceNumber =
      RocksDatabase.query db [identifierAndSequenceNumber] := rfl

/-! ### What is written -/

/-- **The packet was written by the call:** the batch write of it alone does not
return it. -/
def Written (P : Platform) (faults : Faults) (db : Database CF)
    (receiptTimeAndData : Int64 × Packet) : Prop :=
  receiptTimeAndData.2 ∉ (RocksDatabase.write P faults db [receiptTimeAndData]).1

/-- A batch of one comes back if it has no key or if the `Write` fails. -/
theorem write_singleton (P : Platform) (faults : Faults) (db : Database CF)
    (receiptTimeAndData : Int64 × Packet) :
    (RocksDatabase.write P faults db [receiptTimeAndData]).1 =
      if faults.writeFails = true ∨
          StreamKey.ofIdentifier? receiptTimeAndData.2.streamIdentifier = none then
        [receiptTimeAndData.2]
      else [] := by
  rw [Database.write_eq]
  by_cases hfails : faults.writeFails = true
  · rw [if_pos hfails, if_pos (Or.inl hfails)]
    rfl
  · rw [if_neg hfails]
    cases hk : StreamKey.ofIdentifier? receiptTimeAndData.2.streamIdentifier with
    | none =>
        rw [if_pos (Or.inr rfl)]
        simp [rejected, hk]
    | some k =>
        rw [if_neg (by simp [hfails])]
        simp [rejected, hk]

/-- **A packet is written** if the batch is and its identifier has a key. -/
theorem written_iff_encodable {P : Platform} {faults : Faults} {db : Database CF}
    {receiptTimeAndData : Int64 × Packet} :
    Written P faults db receiptTimeAndData ↔ faults.writeFails = false ∧
      StreamKey.ofIdentifier? receiptTimeAndData.2.streamIdentifier ≠ none := by
  rw [Written, write_singleton, ← Bool.not_eq_true, ← not_or]
  split_ifs with hreturned
  · exact iff_of_false (not_not_intro (List.mem_singleton_self _)) (not_not_intro hreturned)
  · exact iff_of_true List.not_mem_nil hreturned

/-- Nothing is found in an empty store. -/
theorem query_empty (request : StreamIdentifier × UInt64) :
    RocksDatabase.query (.empty : Database CF) [request] = [] := by
  have hiterator (seekKey : Bytes) :
      prefixIterator (Database.empty : Database CF).packets seekKey = [] := by
    rw [prefixIterator, OrderedStore.seek, Database.empty, OrderedStore.entries_empty]
    rfl
  rw [query_eq]
  cases hk : StreamKey.ofIdentifier? request.1 with
  | none => simp [hk]
  | some k => simp [hk, readStream, hiterator, scan]

/-- **A packet was written by the call** exactly when the next query for it answers
with it because of the call, whatever the store held before. -/
theorem written_iff (P : Platform) (faults : Faults) (db : Database CF) (receiptTime : Int64)
    (packet : Packet) :
    Written P faults db (receiptTime, packet) ↔ ∀ db' : Database CF,
      ((rocksDatabase P faults).queryOne
        ((rocksDatabase P faults).write db' [(receiptTime, packet)]).2
        (packet.streamIdentifier, packet.sequenceNumber)).head? =
      some ⟨P.appendToString packet, receiptTime, packet.sequenceNumber⟩ := by
  obtain ⟨readFails, writeFails⟩ := faults
  rw [written_iff_encodable]
  constructor
  · rintro ⟨rfl, hkey⟩ db'
    obtain ⟨k, hk⟩ := Option.ne_none_iff_exists'.1 hkey
    exact head?_query_write P readFails db' (List.pairwise_singleton _ _)
      (List.mem_singleton_self _) hk
  · intro hfound
    have hanswer := hfound .empty
    constructor
    · cases writeFails with
      | false => rfl
      | true =>
          rw [queryOne_rocksDatabase, write_rocksDatabase, Database.write_eq, if_pos rfl,
            query_empty] at hanswer
          cases hanswer
    · intro hnone
      rw [queryOne_rocksDatabase, query_eq] at hanswer
      simp [hnone] at hanswer

/-! ### The one-off write -/

/-- **The one-off write agrees with the batch write:** it leaves the same store, and
returns true if the packet was written. -/
structure WritesOne (P : Platform) (faults : Faults) (db : Database CF)
    (receiptTimeAndData : Int64 × Packet) (result : Bool × Database CF) : Prop where
  store : result.2 = (RocksDatabase.write P faults db [receiptTimeAndData]).2
  written : result.1 = true ↔ Written P faults db receiptTimeAndData

/-- **The one-off write leaves the store of the batch write,** and returns true for the
packets that were not written. -/
theorem writeMoved_rocksDatabase (P : Platform) (faults : Faults) (db : Database CF)
    (receiptTimeAndData : Int64 × Packet) :
    ((rocksDatabase P faults).writeMoved db receiptTimeAndData).2 =
        (RocksDatabase.write P faults db [receiptTimeAndData]).2 ∧
      (((rocksDatabase P faults).writeMoved db receiptTimeAndData).1 = true ↔
        ¬Written P faults db receiptTimeAndData) := by
  refine ⟨rfl, ?_⟩
  rw [IDataPacketStore.writeMoved_eq_true_iff, write_rocksDatabase, Written, write_singleton]
  split_ifs with hreturned <;> simp

/-- **The one-off write never agrees with the batch write.**  Neither of its overloads
does, for any packet, store and outcome of the database's `Write`: the store is that of
the batch write, the result is the opposite of what it is said to be. -/
theorem not_writesOne (P : Platform) (faults : Faults) (db : Database CF)
    (receiptTimeAndData : Int64 × Packet) :
    ¬WritesOne P faults db receiptTimeAndData
        ((rocksDatabase P faults).writeMoved db receiptTimeAndData) ∧
      ¬WritesOne P faults db receiptTimeAndData
        ((rocksDatabase P faults).writeCopied db receiptTimeAndData) := by
  obtain ⟨-, hopposite⟩ := writeMoved_rocksDatabase P faults db receiptTimeAndData
  have hneither : ¬WritesOne P faults db receiptTimeAndData
      ((rocksDatabase P faults).writeMoved db receiptTimeAndData) := by
    rintro ⟨-, hwritten⟩
    exact not_iff_self (hopposite.symm.trans hwritten)
  exact ⟨hneither, hneither⟩

/-- **A packet that is stored is reported as not written.** -/
theorem not_writesOne_samplePacket :
    ¬ ∀ (P : Platform) (faults : Faults) (db : Database (SortedTable Bytes Bytes))
      (receiptTimeAndData : Int64 × Packet), WritesOne P faults db receiptTimeAndData
        ((rocksDatabase P faults).writeMoved db receiptTimeAndData) := by
  intro h
  have hsample := (h .protobuf {} .empty (5, samplePacket 1)).written
  have hwritten : Written .protobuf {} (.empty : Database (SortedTable Bytes Bytes))
      (5, samplePacket 1) := by
    unfold Written
    decide +kernel
  exact absurd (hsample.2 hwritten) (by decide +kernel)

end DataPacketStore
end UDataPacketBroker
