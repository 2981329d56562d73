/-
# What a write leaves in the column families

`Writing` follows a write through the streams of a store of the documented
layout.  Here the store may hold anything, any registry read may fail, and both
column families are given key by key after the write: a packet key holds the last
packet of the batch under it (`get_packets_write`), and a stream's registry value
is what was read of the old one, merged with the packets of the batch
(`get_streams_write`).

From this, no packet of a batch is lost: each is stored, and found by the next
query, or returned to the caller (`write_storesOrReturns`).
-/

import UDataPacketBroker.RocksDatabase.Calls

namespace UDataPacketBroker
namespace RocksDatabase

open Library Utilities

variable {CF : Type} [OrderedStore CF Bytes Bytes]

/-- The packets of a batch under their keys, in its order. -/
def packetPuts (P : Platform) (receiptTimeAndData : List (Int64 × Packet)) : List (Bytes × Bytes) :=
  (items P receiptTimeAndData).map fun e => (e.1.packetKey e.2.1, encodeRecord e.2.2)

/-- The summary of what a batch asks to write to one stream. -/
def summary (P : Platform) (receiptTimeAndData : List (Int64 × Packet)) (k : StreamKey) :
    Option Aggregate := (updatesAt (items P receiptTimeAndData) k).foldl Aggregate.widen none

namespace Database

/-- Records are put into the packets alone. -/
theorem commit_records (db : Database CF) (l : List (StreamKey × (UInt64 × Record))) :
    db.commit (ops (l.map fun e => (e.1, Change.record e.2))) =
      { packets := OrderedStore.putAll db.packets
          (l.map fun e => (e.1.packetKey e.2.1, encodeRecord e.2.2))
        streams := db.streams } := by
  induction l generalizing db with
  | nil => rfl
  | cons e l ih => exact ih (db.update ((Change.record e.2).op e.1))

/-- Entries are put into the registry alone. -/
theorem commit_entries (db : Database CF) (l : List (StreamKey × Aggregate)) :
    db.commit (ops (l.map fun e => (e.1, Change.entry e.2))) =
      { packets := db.packets
        streams := OrderedStore.putAll db.streams
          (l.map fun e => (e.1.bytes, encodeEntry e.2)) } := by
  induction l generalizing db with
  | nil => rfl
  | cons e l ih => exact ih (db.update ((Change.entry e.2).op e.1))

/-- A successful write puts its packets, then one registry value for each stream. -/
theorem exists_write (P : Platform) (readFails : Bytes → Bool) (db : Database CF)
    (receiptTimeAndData : List (Int64 × Packet)) :
    ∃ m : List (StreamKey × Aggregate),
      (write P { readFails := readFails } db receiptTimeAndData).2 =
        { packets := OrderedStore.putAll db.packets (packetPuts P receiptTimeAndData)
          streams := OrderedStore.putAll db.streams (m.map fun e => (e.1.bytes,
            encodeEntry (mergeExisting e.2 (getExisting readFails db e.1.bytes)))) } ∧
      ∀ k, updatesAt m k = (summary P receiptTimeAndData k).toList := by
  obtain ⟨m, hplan, hupdates⟩ := exists_planWrite P (getExisting readFails db) receiptTimeAndData
  refine ⟨m, ?_, hupdates⟩
  have hentries := commit_entries
    (db.commit (ops ((items P receiptTimeAndData).map fun e => (e.1, Change.record e.2))))
    (m.map fun e => (e.1, mergeExisting e.2 (getExisting readFails db e.1.bytes)))
  rw [List.map_map, List.map_map] at hentries
  rw [write_eq, if_neg Bool.false_ne_true, hplan, ops, List.map_append, Database.commit,
    List.foldl_append]
  refine Eq.trans hentries ?_
  rw [commit_records]
  rfl

/-- **A packet key holds the last packet of the batch under it,** or what it held. -/
theorem get_packets_write (P : Platform) (readFails : Bytes → Bool) (db : Database CF)
    (receiptTimeAndData : List (Int64 × Packet)) (key : Bytes) :
    OrderedStore.get (write P { readFails := readFails } db receiptTimeAndData).2.packets key =
      (updatesAt (packetPuts P receiptTimeAndData) key).getLast?.or
        (OrderedStore.get db.packets key) := by
  obtain ⟨m, hwrite, -⟩ := exists_write P readFails db receiptTimeAndData
  rw [hwrite]
  exact OrderedStore.get_putAll _ _ _

/-- **A stream's registry value is what was read of it, merged with the batch.** -/
theorem get_streams_write (P : Platform) (readFails : Bytes → Bool) (db : Database CF)
    (receiptTimeAndData : List (Int64 × Packet)) (k : StreamKey) :
    OrderedStore.get (write P { readFails := readFails } db receiptTimeAndData).2.streams k.bytes =
      (summary P receiptTimeAndData k).elim (OrderedStore.get db.streams k.bytes) fun a =>
        some (encodeEntry (mergeExisting a (getExisting readFails db k.bytes))) := by
  obtain ⟨m, hwrite, hupdates⟩ := exists_write P readFails db receiptTimeAndData
  have hinjective : Function.Injective StreamKey.bytes := fun _ _ => StreamKey.ext
  have hputs := updatesAt_map hinjective
    (fun k a => encodeEntry (mergeExisting a (getExisting readFails db k.bytes))) m k
  rw [hwrite, OrderedStore.get_putAll, hputs, hupdates]
  cases summary P receiptTimeAndData k with
  | none => rfl
  | some a => rfl

/-- Under a key of no stream the registry stays as it is. -/
theorem get_streams_write_of_ne (P : Platform) (readFails : Bytes → Bool) (db : Database CF)
    (receiptTimeAndData : List (Int64 × Packet)) {key : Bytes} (h : ∀ k : StreamKey, k.bytes ≠ key) :
    OrderedStore.get (write P { readFails := readFails } db receiptTimeAndData).2.streams key =
      OrderedStore.get db.streams key := by
  obtain ⟨m, hwrite, -⟩ := exists_write P readFails db receiptTimeAndData
  have hnone : updatesAt (m.map fun e => (e.1.bytes,
      encodeEntry (mergeExisting e.2 (getExisting readFails db e.1.bytes)))) key = [] := by
    refine List.eq_nil_iff_forall_not_mem.2 fun value hvalue => ?_
    obtain ⟨e, -, he⟩ := List.mem_map.1 (mem_updatesAt.1 hvalue)
    exact h e.1 (Prod.mk.inj he).1
  rw [hwrite, OrderedStore.get_putAll, hnone]
  rfl

/-- A successful write puts its packets into the streams, whatever its reads returned. -/
theorem records_write (P : Platform) (readFails : Bytes → Bool) (db : Database CF)
    (receiptTimeAndData : List (Int64 × Packet)) (k : StreamKey) :
    (view (write P { readFails := readFails } db receiptTimeAndData).2 k).records =
      (updatesAt (items P receiptTimeAndData) k).foldl StreamView.putRecord
        (view db k).records := by
  obtain ⟨m, hplan, hupdates⟩ := exists_planWrite P (getExisting readFails db) receiptTimeAndData
  rw [write_eq, if_neg Bool.false_ne_true, hplan, view_commit, updatesAt_append,
    updatesAt_map_snd (fun _ => Change.record), updatesAt_map_snd fun (k : StreamKey) a =>
      Change.entry (mergeExisting a (getExisting readFails db k.bytes)),
    hupdates, List.foldl_append, foldl_apply_record]
  cases (updatesAt (items P receiptTimeAndData) k).foldl Aggregate.widen none <;> rfl

/-- **The numbers of a stream after a successful write.** -/
theorem numbers_write (P : Platform) (readFails : Bytes → Bool) (db : Database CF)
    (receiptTimeAndData : List (Int64 × Packet)) (k : StreamKey) :
    (view (write P { readFails := readFails } db receiptTimeAndData).2 k).numbers =
      (view db k).numbers ∪ StreamView.itemNumbers (updatesAt (items P receiptTimeAndData) k) := by
  rw [StreamView.numbers, records_write]
  exact StreamView.numbers_write none _ (view db k)

end Database

/-! ### Stored or returned -/

/-- No two packets of a batch have the same key. -/
def DistinctKeys (receiptTimeAndData : List (Int64 × Packet)) : Prop :=
  receiptTimeAndData.Pairwise fun e e' =>
    ∀ key, toPacketKey e.2.streamIdentifier e.2.sequenceNumber = .ok key →
      toPacketKey e'.2.streamIdentifier e'.2.sequenceNumber ≠ .ok key

/-- Packets with distinct numbers have distinct keys. -/
theorem distinctKeys_of_nodup {receiptTimeAndData : List (Int64 × Packet)}
    (h : (receiptTimeAndData.map fun e => e.2.sequenceNumber).Nodup) :
    DistinctKeys receiptTimeAndData := by
  rw [List.Nodup, List.pairwise_map] at h
  refine h.imp fun hne key hkey hkey' => hne ?_
  obtain ⟨k, hk, rfl⟩ := toPacketKey_eq_ok_iff.1 hkey
  obtain ⟨k', hk', heq⟩ := toPacketKey_eq_ok_iff.1 hkey'
  obtain ⟨hid, rfl⟩ := toStreamKey_eq_ok_iff.1 hk
  obtain ⟨hid', rfl⟩ := toStreamKey_eq_ok_iff.1 hk'
  have hlength := (length_slots hid).trans (length_slots hid').symm
  exact bigEndian64_inj.1 (List.append_inj heq hlength).2

/-- The key of a packet is that of its item. -/
theorem toPacketKey_of_item {P : Platform} {e : Int64 × Packet}
    {i : StreamKey × (UInt64 × Record)} (h : item P e = some i) :
    toPacketKey e.2.streamIdentifier e.2.sequenceNumber = .ok (i.1.packetKey i.2.1) := by
  obtain ⟨k, hk, rfl⟩ := Option.map_eq_some_iff.1 h
  exact toPacketKey_eq_ok_iff.2 ⟨_, StreamKey.ofIdentifier?_eq_some_iff.1 hk, rfl⟩

/-- A batch with distinct keys puts under each key once. -/
theorem DistinctKeys.nodup_packetPuts {receiptTimeAndData : List (Int64 × Packet)}
    (h : DistinctKeys receiptTimeAndData) (P : Platform) :
    ((packetPuts P receiptTimeAndData).map Prod.fst).Nodup := by
  rw [packetPuts, List.map_map, List.Nodup, List.pairwise_map, items, List.pairwise_filterMap]
  refine List.Pairwise.imp (fun {e e'} hne i hi i' hi' heq => ?_) h
  refine hne _ (toPacketKey_of_item hi) ?_
  rw [toPacketKey_of_item hi']
  exact congrArg Except.ok heq.symm

/-- A packet of a batch with distinct keys is the only one under its key. -/
theorem DistinctKeys.updatesAt_packetPuts {receiptTimeAndData : List (Int64 × Packet)}
    (h : DistinctKeys receiptTimeAndData) (P : Platform) {receiptTime : Int64} {packet : Packet}
    (hmem : (receiptTime, packet) ∈ receiptTimeAndData) {k : StreamKey}
    (hk : StreamKey.ofIdentifier? packet.streamIdentifier = some k) :
    updatesAt (packetPuts P receiptTimeAndData) (k.packetKey packet.sequenceNumber) =
      [encodeRecord ⟨receiptTime, P.appendToString packet⟩] := by
  have hitem : (k, packet.sequenceNumber, ⟨receiptTime, P.appendToString packet⟩)
      ∈ items P receiptTimeAndData := by
    refine List.mem_filterMap.2 ⟨_, hmem, ?_⟩
    rw [item, hk]
    rfl
  have hput : encodeRecord ⟨receiptTime, P.appendToString packet⟩ ∈
      updatesAt (packetPuts P receiptTimeAndData) (k.packetKey packet.sequenceNumber) :=
    mem_updatesAt.2 (List.mem_map.2 ⟨_, hitem, rfl⟩)
  rw [updatesAt_of_nodup (h.nodup_packetPuts P)] at hput ⊢
  rw [Option.mem_toList.1 hput, Option.toList_some]

/-- A stored packet comes first in the answer that starts at its number. -/
theorem head?_query {db : Database CF} {identifier : StreamIdentifier} {k : StreamKey}
    (hk : StreamKey.ofIdentifier? identifier = some k) {s : UInt64} {r : Record}
    (hget : OrderedStore.get db.packets (k.packetKey s) = some (encodeRecord r)) :
    (query db [(identifier, s)]).head? = some ⟨r.packet, r.receivedAt, s⟩ := by
  have hquery : query db [(identifier, s)] = readStream db k s := by
    rw [query_eq]
    simp [hk]
  have hseek := OrderedStore.head?_seek hget
  have hprefix : k.bytes.isPrefixOf (k.packetKey s) = true :=
    List.isPrefixOf_iff_prefix.2 (List.prefix_append _ _)
  have hresponse : response (k.packetKey s, encodeRecord r) = ⟨r.packet, r.receivedAt, s⟩ := by
    have hpacket : (decodeRecord (encodeRecord r)).packet = r.packet := by
      rw [decodeRecord_encodeRecord]
    have htime : (decodeRecord (encodeRecord r)).receivedAt = r.receivedAt := by
      rw [decodeRecord_encodeRecord]
    rw [QueryResponse.mk.injEq]
    exact ⟨hpacket, htime, sequenceNumber_response k s (encodeRecord r)⟩
  rw [hquery, readStream, prefixIterator]
  cases hentries : OrderedStore.seek db.packets (k.packetKey s) with
  | nil => simp [hentries] at hseek
  | cons e rest =>
      rw [hentries, List.head?_cons, Option.some.injEq] at hseek
      subst hseek
      rw [List.takeWhile_cons_of_pos (by simp), scan, if_neg (not_not.2 hprefix),
        if_neg (not_lt.2 (length_encodeRecord r)), ← hresponse]
      rfl

/-- **The next query finds a packet of a batch that was written.** -/
theorem head?_query_write (P : Platform) (readFails : Bytes → Bool) (db : Database CF)
    {receiptTimeAndData : List (Int64 × Packet)} (hdistinct : DistinctKeys receiptTimeAndData)
    {receiptTime : Int64} {packet : Packet} (hmem : (receiptTime, packet) ∈ receiptTimeAndData)
    {k : StreamKey} (hk : StreamKey.ofIdentifier? packet.streamIdentifier = some k) :
    (query (write P { readFails := readFails } db receiptTimeAndData).2
        [(packet.streamIdentifier, packet.sequenceNumber)]).head? =
      some ⟨P.appendToString packet, receiptTime, packet.sequenceNumber⟩ := by
  have hget := Database.get_packets_write P readFails db receiptTimeAndData
    (k.packetKey packet.sequenceNumber)
  rw [hdistinct.updatesAt_packetPuts P hmem hk] at hget
  exact head?_query hk hget

/-- The packets returned are those without a key, in order. -/
theorem rejected_eq (receiptTimeAndData : List (Int64 × Packet)) :
    rejected receiptTimeAndData = (receiptTimeAndData.map Prod.snd).filter fun packet =>
      !(toPacketKey packet.streamIdentifier packet.sequenceNumber).toBool := by
  refine List.filter_congr fun packet _ => ?_
  cases hk : StreamKey.ofIdentifier? packet.streamIdentifier with
  | none =>
      have hnot := StreamKey.ofIdentifier?_eq_none_iff.1 hk
      cases hkey : toPacketKey packet.streamIdentifier packet.sequenceNumber with
      | error reason => rfl
      | ok key =>
          obtain ⟨k, hk, -⟩ := toPacketKey_eq_ok_iff.1 hkey
          exact absurd (toStreamKey_eq_ok_iff.1 hk).1 hnot
  | some k =>
      have hkey : toPacketKey packet.streamIdentifier packet.sequenceNumber
          = .ok (k.packetKey packet.sequenceNumber) :=
        toPacketKey_eq_ok_iff.2 ⟨_, StreamKey.ofIdentifier?_eq_some_iff.1 hk, rfl⟩
      rw [hkey]
      rfl

/-- **A write neither loses nor half-applies a batch.**  When its `Write` succeeds,
the packets without a key come back in input order and every other packet is
answered by the next query for it; when it fails, all of them come back and the
store is as it was. -/
theorem write_storesOrReturns (P : Platform) (readFails : Bytes → Bool) (db : Database CF)
    (receiptTimeAndData : List (Int64 × Packet))
    (hdistinct : (receiptTimeAndData.map fun e => e.2.sequenceNumber).Nodup) :
    ((write P { readFails := readFails, writeFails := false } db receiptTimeAndData).1 =
        (receiptTimeAndData.map Prod.snd).filter (fun packet =>
          !(toPacketKey packet.streamIdentifier packet.sequenceNumber).toBool) ∧
      ∀ receiptTime packet, (receiptTime, packet) ∈ receiptTimeAndData →
        (toPacketKey packet.streamIdentifier packet.sequenceNumber).toBool = true →
        (query (write P { readFails := readFails, writeFails := false } db receiptTimeAndData).2
            [(packet.streamIdentifier, packet.sequenceNumber)]).head? =
          some ⟨P.appendToString packet, receiptTime, packet.sequenceNumber⟩) ∧
    write P { readFails := readFails, writeFails := true } db receiptTimeAndData =
      (receiptTimeAndData.map Prod.snd, db) := by
  refine ⟨⟨?_, fun receiptTime packet hmem hkey => ?_⟩, ?_⟩
  · rw [Database.write_eq, if_neg Bool.false_ne_true]
    exact rejected_eq receiptTimeAndData
  · obtain ⟨k, hk⟩ : ∃ k, StreamKey.ofIdentifier? packet.streamIdentifier = some k := by
      refine Option.ne_none_iff_exists'.1 fun hnone => ?_
      have hmem' : packet ∈ rejected receiptTimeAndData :=
        List.mem_filter.2 ⟨List.mem_map_of_mem hmem, by rw [hnone]; rfl⟩
      rw [rejected_eq, List.mem_filter, hkey] at hmem'
      exact Bool.false_ne_true hmem'.2
    exact head?_query_write P readFails db (distinctKeys_of_nodup hdistinct) hmem hk
  · rw [Database.write_eq, if_pos rfl]

/-- A packet with a key and one without: the second comes back, the first is found. -/
theorem write_storesOrReturns_samplePacket :
    ∃ db : Database (SortedTable Bytes Bytes),
      write .protobuf {} .empty [(5, samplePacket 1), (6, { sequenceNumber? := some 2 })] =
        ([{ sequenceNumber? := some 2 }], db) ∧
      (query db [((samplePacket 1).streamIdentifier, 1)]).head? =
        some ⟨Wire.serializePacket (samplePacket 1), 5, 1⟩ := by
  obtain ⟨⟨hreturned, hstored⟩, -⟩ := write_storesOrReturns .protobuf (fun _ => false)
    (.empty : Database (SortedTable Bytes Bytes))
    [(5, samplePacket 1), (6, { sequenceNumber? := some 2 })] (by decide)
  exact ⟨_, Prod.ext (hreturned.trans (by decide)) rfl,
    hstored 5 (samplePacket 1) List.mem_cons_self (by decide)⟩

end RocksDatabase
end UDataPacketBroker
