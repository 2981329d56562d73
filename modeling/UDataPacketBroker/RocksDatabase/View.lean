/-
# The bytes of the store and its streams

`view db` reads the two column families as one `StreamView` per stream key.
It is faithful on stores that hold well-formed keys and values only
(`WellFormed`); the empty store does, and every update the program issues keeps
it so.  Such an update is a `Change` of one stream, and on the views it changes
that stream alone (`view_update`), so that a whole batch is read off stream by
stream (`view_commit`).
-/

import UDataPacketBroker.Library.Pointwise
import UDataPacketBroker.RocksDatabase.StreamView
import UDataPacketBroker.Utilities.KeyOrder

namespace UDataPacketBroker
namespace RocksDatabase

open Library Utilities

/-! ### Values -/

/-- The value of a record. -/
def encodeRecord (r : Record) : Bytes :=
  putBigEndian64 [] r.receivedAt.toUInt64 ++ [PacketVersion.one.toByte] ++ r.packet

/-- The record of a value, as `query` takes it apart. -/
def decodeRecord (value : Bytes) : Record where
  receivedAt := (getBigEndian64 value).toInt64
  packet := value.drop packetsValueHeaderLength

/-- The registry value of an entry. -/
def encodeEntry (a : Aggregate) : Bytes :=
  streamValue a.minSequenceNumber a.maxSequenceNumber a.lastReceivedNanoSeconds

/-- The entry of a registry value. -/
def decodeEntry (value : Bytes) : Aggregate where
  minSequenceNumber := getBigEndian64 value
  maxSequenceNumber := getBigEndian64 (value.drop 8)
  lastReceivedNanoSeconds := (getBigEndian64 (value.drop 16)).toInt64

/-- A number is read back from the front. -/
theorem getBigEndian64_append (s : UInt64) (rest : Bytes) :
    getBigEndian64 (bigEndian64 s ++ rest) = s := by
  rw [getBigEndian64, List.take_left' (length_bigEndian64 s), ofBigEndian64_bigEndian64]

/-- A record is read back. -/
@[simp] theorem decodeRecord_encodeRecord (r : Record) : decodeRecord (encodeRecord r) = r := by
  have htime : getBigEndian64 (encodeRecord r) = r.receivedAt.toUInt64 := by
    rw [encodeRecord, putBigEndian64, List.nil_append, List.append_assoc, getBigEndian64_append]
  rw [decodeRecord, htime, Int64.toInt64_toUInt64]
  rfl

/-- It has its header. -/
theorem length_encodeRecord (r : Record) : packetsValueHeaderLength ≤ (encodeRecord r).length := by
  simp [encodeRecord, putBigEndian64, packetsValueHeaderLength]
  omega

/-- An entry is read back. -/
@[simp] theorem decodeEntry_encodeEntry (a : Aggregate) : decodeEntry (encodeEntry a) = a := by
  have hmin : getBigEndian64 (encodeEntry a) = a.minSequenceNumber := by
    rw [encodeEntry, streamValue, putBigEndian64, putBigEndian64, putBigEndian64, List.nil_append,
      List.append_assoc, getBigEndian64_append]
  have hmax : getBigEndian64 ((encodeEntry a).drop 8) = a.maxSequenceNumber :=
    getBigEndian64_append a.maxSequenceNumber (bigEndian64 a.lastReceivedNanoSeconds.toUInt64)
  have htime : getBigEndian64 ((encodeEntry a).drop 16) = a.lastReceivedNanoSeconds.toUInt64 :=
    getBigEndian64_append a.lastReceivedNanoSeconds.toUInt64 []
  rw [decodeEntry, hmin, hmax, htime, Int64.toInt64_toUInt64]

/-- It is as long as a value of the registry. -/
@[simp] theorem length_encodeEntry (a : Aggregate) : (encodeEntry a).length = streamsValueLength :=
  rfl

/-- The entry of what a registry read returned, if it is a whole one. -/
def readEntry (existing : Option Bytes) : Option Aggregate :=
  (existing.filter fun value => value.length ≥ streamsValueLength).map decodeEntry

/-- So it passes the check of its length. -/
theorem readEntry_map_encodeEntry (o : Option Aggregate) : readEntry (o.map encodeEntry) = o := by
  cases o with
  | none => rfl
  | some a => simp [readEntry, Option.filter]

/-- A read that returned whole values. -/
theorem readEntry_of_whole {existing : Option Bytes}
    (h : ∀ value, existing = some value → value.length = streamsValueLength) :
    readEntry existing = existing.map decodeEntry := by
  cases existing with
  | none => rfl
  | some value => simp [readEntry, Option.filter, (h value rfl).ge]

/-- **`write` merges with whole entries only.** -/
theorem mergeExisting_eq_readEntry (a : Aggregate) (existing : Option Bytes) :
    mergeExisting a existing = (readEntry existing).elim a a.merge := by
  cases existing with
  | none => rfl
  | some value =>
      by_cases h : value.length ≥ streamsValueLength
      · simp [mergeExisting, readEntry, Option.filter, h, Aggregate.merge, decodeEntry]
      · simp [mergeExisting, readEntry, Option.filter, h]

/-! ### Changes -/

/-- What one update of a batch does to one stream. -/
inductive Change where
  | record (item : UInt64 × Record)
  | entry (a : Aggregate)
  | reap
  | discard (cutoff : UInt64)

namespace Change

/-- The update of the batch. -/
def op (k : StreamKey) : Change → BatchOp
  | record item => .put .packets (k.packetKey item.1) (encodeRecord item.2)
  | entry a => .put .streams k.bytes (encodeEntry a)
  | reap => .delete .streams k.bytes
  | discard cutoff => .deleteRange .packets (k.packetKey 0) (k.packetKey cutoff)

/-- The same on the stream itself. -/
def apply (v : StreamView) : Change → StreamView
  | record item => { v with records := StreamView.putRecord v.records item }
  | entry a => { v with entry := some a }
  | reap => { v with entry := none }
  | discard cutoff => { v with records := fun s => if s < cutoff then none else v.records s }

end Change

variable {CF : Type} [OrderedStore CF Bytes Bytes]

namespace Database

/-- **Only keys and values of the documented layout.** -/
structure WellFormed (db : Database CF) : Prop where
  packets (key value : Bytes) (h : OrderedStore.get db.packets key = some value) :
    (∃ (k : StreamKey) (s : UInt64), key = k.packetKey s) ∧ packetsValueHeaderLength ≤ value.length
  streams (key value : Bytes) (h : OrderedStore.get db.streams key = some value) :
    (∃ identifier, toStreamKey identifier = .ok key) ∧ value.length = streamsValueLength

/-- The store, one stream at a time. -/
def view (db : Database CF) (k : StreamKey) : StreamView where
  records s := (OrderedStore.get db.packets (k.packetKey s)).map decodeRecord
  entry := (OrderedStore.get db.streams k.bytes).map decodeEntry

/-- The records of a stream are those under its packet keys. -/
theorem records_view (db : Database CF) (k : StreamKey) (s : UInt64) :
    (view db k).records s = (OrderedStore.get db.packets (k.packetKey s)).map decodeRecord := rfl

/-- The entry of a stream is the one under its key. -/
theorem entry_view (db : Database CF) (k : StreamKey) :
    (view db k).entry = (OrderedStore.get db.streams k.bytes).map decodeEntry := rfl

/-- An empty store is well formed. -/
theorem wellFormed_empty : WellFormed (empty : Database CF) := by
  constructor
  · intro key value h
    rw [empty, OrderedStore.get_empty] at h
    cases h
  · intro key value h
    rw [empty, OrderedStore.get_empty] at h
    cases h

/-- All its streams are empty. -/
theorem view_empty (k : StreamKey) : view (empty : Database CF) k = StreamView.empty := by
  simp [view, empty, StreamView.empty, OrderedStore.get_empty]

/-- **A change leaves the store well-formed.** -/
theorem WellFormed.update {db : Database CF} (hdb : WellFormed db) (k : StreamKey) (c : Change) :
    WellFormed (db.update (c.op k)) := by
  cases c with
  | record item =>
      refine ⟨fun key value h => ?_, hdb.streams⟩
      rw [Change.op, Database.update, OrderedStore.get_put_apply] at h
      split_ifs at h with hkey
      · exact ⟨⟨k, item.1, hkey⟩, Option.some.inj h ▸ length_encodeRecord item.2⟩
      · exact hdb.packets key value h
  | entry a =>
      refine ⟨hdb.packets, fun key value h => ?_⟩
      rw [Change.op, Database.update, OrderedStore.get_put_apply] at h
      split_ifs at h with hkey
      · exact ⟨hkey ▸ k.isKey, Option.some.inj h ▸ length_encodeEntry a⟩
      · exact hdb.streams key value h
  | reap =>
      refine ⟨hdb.packets, fun key value h => ?_⟩
      rw [Change.op, Database.update, OrderedStore.get_delete_apply] at h
      split_ifs at h
      exact hdb.streams key value h
  | discard cutoff =>
      refine ⟨fun key value h => ?_, hdb.streams⟩
      rw [Change.op, Database.update, OrderedStore.get_deleteRange] at h
      split_ifs at h
      exact hdb.packets key value h

/-- **A change touches the stream it names and no other.** -/
theorem view_update (db : Database CF) (k : StreamKey) (c : Change) :
    view (db.update (c.op k)) = Function.update (view db) k (c.apply (view db k)) := by
  funext k'
  cases c with
  | record item =>
      by_cases hk : k' = k
      · subst hk
        rw [Function.update_self]
        refine StreamView.ext (funext fun s => ?_) rfl
        simp only [view, Change.op, Database.update, Change.apply, StreamView.putRecord,
          OrderedStore.get_put_apply, Function.update_apply, StreamKey.packetKey_inj, true_and]
        split_ifs <;> simp
      · rw [Function.update_of_ne hk]
        refine StreamView.ext (funext fun s => ?_) rfl
        simp [view, Change.op, Database.update, OrderedStore.get_put_apply, StreamKey.packetKey_inj, hk]
  | entry a =>
      by_cases hk : k' = k
      · subst hk
        simp [view, Change.op, Database.update, Change.apply, OrderedStore.get_put]
      · have hbytes : k'.bytes ≠ k.bytes := fun h => hk (StreamKey.ext h)
        simp [view, Change.op, Database.update, OrderedStore.get_put_apply, hk, hbytes]
  | reap =>
      by_cases hk : k' = k
      · subst hk
        simp [view, Change.op, Database.update, Change.apply, OrderedStore.get_delete]
      · have hbytes : k'.bytes ≠ k.bytes := fun h => hk (StreamKey.ext h)
        simp [view, Change.op, Database.update, OrderedStore.get_delete_apply, hk, hbytes]
  | discard cutoff =>
      by_cases hk : k' = k
      · subst hk
        rw [Function.update_self]
        refine StreamView.ext (funext fun s => ?_) rfl
        simp only [view, Change.op, Database.update, Change.apply, OrderedStore.get_deleteRange,
          StreamKey.packetKey_mem_range, true_and, zero_le_uint64]
        split_ifs <;> rfl
      · rw [Function.update_of_ne hk]
        refine StreamView.ext (funext fun s => ?_) rfl
        simp [view, Change.op, Database.update, OrderedStore.get_deleteRange,
          StreamKey.packetKey_mem_range, Ne.symm hk]

/-- The updates of a list of changes. -/
def ops (l : List (StreamKey × Change)) : List BatchOp := l.map fun e => e.2.op e.1

/-- **A batch of changes to streams keeps the layout.** -/
theorem WellFormed.commit {db : Database CF} (hdb : WellFormed db) (l : List (StreamKey × Change)) :
    WellFormed (db.commit (ops l)) := by
  induction l generalizing db with
  | nil => exact hdb
  | cons e l ih => exact ih (hdb.update e.1 e.2)

/-- **A batch is read off stream by stream.** -/
theorem view_commit (db : Database CF) (l : List (StreamKey × Change)) (k : StreamKey) :
    view (db.commit (ops l)) k = (updatesAt l k).foldl Change.apply (view db k) := by
  rw [← foldl_update_apply]
  induction l generalizing db with
  | nil => rfl
  | cons e l ih =>
      rw [List.foldl_cons, ← view_update]
      exact ih (db.update (e.2.op e.1))

end Database

end RocksDatabase
end UDataPacketBroker
