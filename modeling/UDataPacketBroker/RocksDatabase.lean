/-
# The RocksDB packet store

`src/rocksDatabase.cpp`.  The store has two column families: `packets`, one
entry per packet keyed net|sta|loc|chan|seq, and the registry `streams`, one
entry per stream with the smallest and largest sequence number and the last
receipt time.

RocksDB itself is not part of the repository.  A column family is any
`OrderedStore` of byte strings under byte strings; a `WriteBatch` is the list of
its updates, applied together or not at all.  A value of type `Database` is a
store whose `open()` succeeded: that is what `ensureInitialized` checks.
`CompactRange` and `Flush` reclaim or persist and change no contents.
-/

import UDataPacketBroker.Library.HashTable
import UDataPacketBroker.Library.OrderedStore
import UDataPacketBroker.Utilities

namespace UDataPacketBroker
namespace RocksDatabase

open Library Utilities

/-- The registry value width: min_seq(8) | max_seq(8) | last_received_ns(8). -/
def streamsValueLength : ℕ := 24
/-- The packet value header width: recv_time_ns(8) | version(1). -/
def packetsValueHeaderLength : ℕ := 9

/-- `putBigEndian64`. -/
def putBigEndian64 (out : Bytes) (value : UInt64) : Bytes := out ++ bigEndian64 value

/-- `getBigEndian64`: the word in the eight bytes at the pointer. -/
def getBigEndian64 (data : Bytes) : UInt64 := ofBigEndian64 (data.take 8)

/-- `IDataPacketStore::PacketVersion`. -/
inductive PacketVersion where
  | one
deriving DecidableEq

/-- `static_cast<int>` of a version, as the byte that is stored. -/
def PacketVersion.toByte : PacketVersion → UInt8
  | .one => 1

/-- The accumulator of one stream in `write`. -/
structure Aggregate where
  minSequenceNumber : UInt64
  maxSequenceNumber : UInt64
  lastReceivedNanoSeconds : Int64
deriving DecidableEq, Repr

/-- What `write` takes from outside the repository: the bytes protobuf's
`AppendToString` appends for a packet, and the order in which a loop over an
`std::unordered_map` visits the keys, of which only that it visits each once is
known. -/
structure Platform where
  appendToString : Packet → Bytes
  bucketOrder : List (Bytes × Aggregate) → List (Bytes × Aggregate)
  bucketOrder_perm (entries : List (Bytes × Aggregate)) : (bucketOrder entries).Perm entries

/-- The two column families of an open store. -/
structure Database (CF : Type) where
  packets : CF
  streams : CF

/-- The column family an update of a batch names. -/
inductive ColumnFamily where
  | packets | streams
deriving DecidableEq

/-- One update of a `rocksdb::WriteBatch`. -/
inductive BatchOp where
  | put (handle : ColumnFamily) (key value : Bytes)
  | delete (handle : ColumnFamily) (key : Bytes)
  | deleteRange (handle : ColumnFamily) (beginKey endKey : Bytes)
deriving DecidableEq

variable {CF : Type} [OrderedStore CF Bytes Bytes]

namespace Database

/-- The database after its directory was created. -/
def empty : Database CF := ⟨OrderedStore.empty, OrderedStore.empty⟩

/-- One update, in the column family it names. -/
def update (db : Database CF) : BatchOp → Database CF
  | .put .packets key value => { db with packets := OrderedStore.put db.packets key value }
  | .put .streams key value => { db with streams := OrderedStore.put db.streams key value }
  | .delete .packets key => { db with packets := OrderedStore.delete db.packets key }
  | .delete .streams key => { db with streams := OrderedStore.delete db.streams key }
  | .deleteRange .packets a b => { db with packets := OrderedStore.deleteRange db.packets a b }
  | .deleteRange .streams a b => { db with streams := OrderedStore.deleteRange db.streams a b }

/-- A successful `DB::Write`: every update of the batch, in order. -/
def commit (db : Database CF) (batch : List BatchOp) : Database CF := batch.foldl update db

end Database

/-! ### `getGlobalSequenceNumber` -/

/-- The largest `max_seq` over the registry; it lives in bytes [8, 16). -/
def getGlobalSequenceNumber (db : Database CF) : UInt64 :=
  (OrderedStore.entries db.streams).foldl (fun globalSequenceNumber entry =>
    if entry.2.length ≥ streamsValueLength then
      max globalSequenceNumber (getBigEndian64 (entry.2.drop 8))
    else globalSequenceNumber) 0

/-! ### `write` -/

/-- Value layout: recv_time_ns(8) | version(1) | serialized packet. -/
def packetValue (P : Platform) (receiptNanoSeconds : Int64) (packet : Packet) : Bytes :=
  putBigEndian64 [] receiptNanoSeconds.toUInt64 ++ [PacketVersion.one.toByte]
    ++ P.appendToString packet

/-- The registry value of three numbers. -/
def streamValue (minSequenceNumber maxSequenceNumber : UInt64) (lastReceivedNanoSeconds : Int64) :
    Bytes :=
  putBigEndian64 (putBigEndian64 (putBigEndian64 [] minSequenceNumber) maxSequenceNumber)
    lastReceivedNanoSeconds.toUInt64

/-- The local variables of `write`. -/
structure WriteLocals where
  notWritten : List Packet := []
  batch : List BatchOp := []
  streamAggregate : HashTable Bytes Aggregate := .empty

/-- The body of the loop over the packets.  `toStreamKey` succeeds whenever
`toPacketKey` does, so its result is dereferenced unchecked. -/
def writePacket (P : Platform) (locals : WriteLocals) (receiptTimeAndPacket : Int64 × Packet) :
    WriteLocals :=
  let (receiptTime, packet) := receiptTimeAndPacket
  let identifier := packet.streamIdentifier
  let sequenceNumber := packet.sequenceNumber
  match toPacketKey identifier sequenceNumber with
  | .error _ => { locals with notWritten := locals.notWritten ++ [packet] }
  | .ok packetKey =>
    let streamKey := (toStreamKey identifier).toOption.getD []
    { locals with
      batch := locals.batch ++ [.put .packets packetKey (packetValue P receiptTime packet)]
      streamAggregate := locals.streamAggregate.tryEmplace streamKey
        ⟨sequenceNumber, sequenceNumber, receiptTime⟩
        fun aggregate =>
          { minSequenceNumber := min aggregate.minSequenceNumber sequenceNumber
            maxSequenceNumber := max aggregate.maxSequenceNumber sequenceNumber
            lastReceivedNanoSeconds := max aggregate.lastReceivedNanoSeconds receiptTime } }

/-- The result of the registry `Get` of one stream: `none` when the status is
not ok, whether the key is absent or the read failed. -/
def getExisting (readFails : Bytes → Bool) (db : Database CF) (streamKey : Bytes) : Option Bytes :=
  if readFails streamKey then none else OrderedStore.get db.streams streamKey

/-- The aggregate of one stream merged with its existing registry value. -/
def mergeExisting (aggregate : Aggregate) (existing : Option Bytes) : Aggregate :=
  match existing with
  | none => aggregate
  | some value =>
    if value.length ≥ streamsValueLength then
      { minSequenceNumber := min aggregate.minSequenceNumber (getBigEndian64 value)
        maxSequenceNumber := max aggregate.maxSequenceNumber (getBigEndian64 (value.drop 8))
        lastReceivedNanoSeconds :=
          max aggregate.lastReceivedNanoSeconds (getBigEndian64 (value.drop 16)).toInt64 }
    else aggregate

/-- The registry update of one stream. -/
def putStream (streamKey : Bytes) (aggregate : Aggregate) (existing : Option Bytes) : BatchOp :=
  let merged := mergeExisting aggregate existing
  .put .streams streamKey (streamValue merged.minSequenceNumber merged.maxSequenceNumber
    merged.lastReceivedNanoSeconds)

/-- How the database behaves during one call: which registry reads fail, and
whether the final `Write` does. -/
structure Faults where
  readFails : Bytes → Bool := fun _ => false
  writeFails : Bool := false

/-- Everything `write` does before its `Write`: the packets it cannot key, and
the batch, in which `existing` is what the registry `Get`s returned. -/
def planWrite (P : Platform) (existing : Bytes → Option Bytes)
    (receiptTimeAndData : List (Int64 × Packet)) : List Packet × List BatchOp :=
  let locals := receiptTimeAndData.foldl (writePacket P) {}
  (locals.notWritten, (P.bucketOrder locals.streamAggregate.entries).foldl (fun batch entry =>
    batch ++ [putStream entry.1 entry.2 (existing entry.1)]) locals.batch)

/-- `RocksDatabaseImpl::write`: the packets not written, and the store after. -/
def write (P : Platform) (faults : Faults) (db : Database CF)
    (receiptTimeAndData : List (Int64 × Packet)) : List Packet × Database CF :=
  if receiptTimeAndData.isEmpty then ([], db)
  else
    let (notWritten, batch) := planWrite P (getExisting faults.readFails db) receiptTimeAndData
    if faults.writeFails then (receiptTimeAndData.map Prod.snd, db)
    else (notWritten, db.commit batch)

/-! ### `truncateOldest` -/

/-- One registry entry of the snapshot. -/
structure Entry where
  streamKey : Bytes
  minSequenceNumber : UInt64
  maxSequenceNumber : UInt64
  lastReceivedNanoSeconds : Int64
deriving DecidableEq, Repr

/-- The snapshot of the registry with its overall minimum and maximum. -/
structure Snapshot where
  entries : List Entry := []
  globalMin : UInt64 := 0xFFFFFFFFFFFFFFFF
  globalMax : UInt64 := 0

/-- The body of the loop over the registry. -/
def snapshotEntry (snapshot : Snapshot) (keyValue : Bytes × Bytes) : Snapshot :=
  let (key, value) := keyValue
  if value.length < streamsValueLength then snapshot
  else
    let entry : Entry :=
      { streamKey := key
        minSequenceNumber := getBigEndian64 value
        maxSequenceNumber := getBigEndian64 (value.drop 8)
        lastReceivedNanoSeconds := (getBigEndian64 (value.drop 16)).toInt64 }
    { entries := snapshot.entries ++ [entry]
      globalMin := min snapshot.globalMin entry.minSequenceNumber
      globalMax := max snapshot.globalMax entry.maxSequenceNumber }

def snapshotRegistry (db : Database CF) : Snapshot :=
  (OrderedStore.entries db.streams).foldl snapshotEntry {}

/-- The cutoff: `globalMin + nPackets`, clamped to `globalMax + 1`.  Both sums
are taken modulo 2^64. -/
def clampCutoff (snapshot : Snapshot) (nPackets : UInt64) : UInt64 :=
  let cutoff := snapshot.globalMin + nPackets
  if cutoff > snapshot.globalMax + 1 then snapshot.globalMax + 1 else cutoff

/-- The updates for one stream: its numbers below the cutoff go, and its
registry entry is reaped or advanced. -/
def truncateEntry (cutoff : UInt64) (entry : Entry) : List BatchOp :=
  if entry.minSequenceNumber ≥ cutoff then []
  else
    [.deleteRange .packets (putBigEndian64 entry.streamKey 0)
      (putBigEndian64 entry.streamKey cutoff),
     if entry.maxSequenceNumber < cutoff then .delete .streams entry.streamKey
     else .put .streams entry.streamKey
      (streamValue cutoff entry.maxSequenceNumber entry.lastReceivedNanoSeconds)]

/-- Everything `truncateOldest` does before its `Write`: the count it is going
to report and its batch, or `none` where it returns 0 at once. -/
def planTruncation (db : Database CF) (nPackets : UInt64) : Option (UInt64 × List BatchOp) :=
  if nPackets = 0 then none
  else
    let snapshot := snapshotRegistry db
    if snapshot.entries.isEmpty ∨ snapshot.globalMin > snapshot.globalMax then none
    else
      let cutoff := clampCutoff snapshot nPackets
      let purged := cutoff - snapshot.globalMin
      if purged = 0 then none
      else some (purged, snapshot.entries.flatMap (truncateEntry cutoff))

/-- `RocksDatabaseImpl::truncateOldest`: the count reported, and the store after. -/
def truncateOldest (writeFails : Bool) (db : Database CF) (nPackets : UInt64) :
    UInt64 × Database CF :=
  match planTruncation db nPackets with
  | none => (0, db)
  | some (purged, batch) => if writeFails then (0, db) else (purged, db.commit batch)

/-! ### `query` -/

/-- `IDataPacketStore::QueryResponse`. -/
structure QueryResponse where
  packet : Bytes
  receivedAt : Int64
  sequenceNumber : UInt64
deriving DecidableEq, Repr

/-- The loop over the iterator: stop at the first key of another stream, skip a
value without a header. -/
def scan (streamKey : Bytes) : List (Bytes × Bytes) → List QueryResponse
  | [] => []
  | (key, value) :: rest =>
    if ¬ streamKey.isPrefixOf key then []
    else if value.length < packetsValueHeaderLength then scan streamKey rest
    else
      { packet := value.drop packetsValueHeaderLength
        receivedAt := (getBigEndian64 value).toInt64
        sequenceNumber := getBigEndian64 (key.drop streamKeyLength) } :: scan streamKey rest

/-- An iterator with `prefix_same_as_start`: from the seek key on, while the
first 32 bytes stay those of the seek key. -/
def prefixIterator (cf : CF) (seekKey : Bytes) : List (Bytes × Bytes) :=
  (OrderedStore.seek cf seekKey).takeWhile fun e =>
    e.1.take streamKeyLength = seekKey.take streamKeyLength

/-- `RocksDatabaseImpl::query`. -/
def query (db : Database CF) (identifiersAndSequenceNumbers : List (StreamIdentifier × UInt64)) :
    List QueryResponse :=
  identifiersAndSequenceNumbers.flatMap fun (identifier, startSequenceNumber) =>
    match toStreamKey identifier, toPacketKey identifier startSequenceNumber with
    | .ok streamKey, .ok seekKey => scan streamKey (prefixIterator db.packets seekKey)
    | _, _ => []

/-! ### `queryAvailableStreams` -/

/-- The body of the loop over the registry. -/
def availableStream (keyValue : Bytes × Bytes) : Option (Int64 × StreamIdentifier) :=
  let (key, value) := keyValue
  match fromStreamKey key {} with
  | .error _ => none
  | .ok identifier =>
    some (if value.length ≥ streamsValueLength then (getBigEndian64 (value.drop 16)).toInt64 else 0,
      identifier)

/-- `RocksDatabaseImpl::queryAvailableStreams`. -/
def queryAvailableStreams (db : Database CF) : List (Int64 × StreamIdentifier) :=
  (OrderedStore.entries db.streams).filterMap availableStream

end RocksDatabase
end UDataPacketBroker
