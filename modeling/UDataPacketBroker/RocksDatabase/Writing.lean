/-
# What a write does to each stream

`write` collects its batch in a loop, with one accumulator per stream in a hash
map that is walked in an unknown order, and merges each with the registry entry
it reads.  On the streams this is simple: a write appends the packets of its
batch (`view_write`).  The batch is described for registry reads of another
moment as well (`view_planWrite`), because a truncation runs on another thread.
-/

import UDataPacketBroker.RocksDatabase.View

namespace UDataPacketBroker
namespace RocksDatabase

open Library Utilities

/-! ### Lists under stream keys -/

/-- A list under distinct keys of streams is one of stream keys, in which a stream
is named at most once. -/
theorem exists_streamKeys {A : Type} (l : List (Bytes × A)) (hnodup : (l.map Prod.fst).Nodup)
    (hkey : ∀ e ∈ l, ∃ identifier, toStreamKey identifier = .ok e.1) :
    ∃ m : List (StreamKey × A), l = m.map (fun e => (e.1.bytes, e.2)) ∧
      ∀ (k : StreamKey) (o : Option A), (∀ a, (k.bytes, a) ∈ l ↔ o = some a) →
        updatesAt m k = o.toList := by
  have hmap : l = (l.pmap (fun e he => ((⟨e.1, he⟩ : StreamKey), e.2)) hkey).map
      (fun e => (e.1.bytes, e.2)) := by
    simp [List.map_pmap]
  generalize l.pmap (fun e he => ((⟨e.1, he⟩ : StreamKey), e.2)) hkey = m at hmap
  subst hmap
  have hkeys : (m.map Prod.fst).Nodup := by
    refine List.Nodup.of_map StreamKey.bytes ?_
    simpa [Function.comp_def] using hnodup
  refine ⟨m, rfl, fun k o ho => ?_⟩
  rw [updatesAt_of_nodup hkeys]
  refine congrArg Option.toList (Option.ext fun a => ?_)
  rw [← ho a]
  refine Iff.trans (HashTable.mem_entries ⟨m, hkeys⟩ k a).symm ?_
  rw [List.mem_map]
  constructor
  · intro hmem
    exact ⟨(k, a), hmem, rfl⟩
  · rintro ⟨⟨k', a'⟩, hmem, heq⟩
    obtain ⟨hbytes, rfl⟩ := Prod.mk.inj heq
    rwa [← StreamKey.ext hbytes]

/-! ### The batch -/

/-- The stream, the number and the record of a packet that can be keyed. -/
def item (P : Platform) (receiptTimeAndPacket : Int64 × Packet) :
    Option (StreamKey × (UInt64 × Record)) :=
  let (receiptTime, packet) := receiptTimeAndPacket
  (StreamKey.ofIdentifier? packet.streamIdentifier).map fun k =>
    (k, packet.sequenceNumber, ⟨receiptTime, P.appendToString packet⟩)

/-- What a batch asks to write, in its order. -/
def items (P : Platform) (receiptTimeAndData : List (Int64 × Packet)) :
    List (StreamKey × (UInt64 × Record)) := receiptTimeAndData.filterMap (item P)

/-- What a batch asks to write to one stream. -/
theorem mem_updatesAt_items {P : Platform} {receiptTimeAndData : List (Int64 × Packet)}
    {k : StreamKey} {i : UInt64 × Record} : i ∈ updatesAt (items P receiptTimeAndData) k ↔
      ∃ receiptTime packet, (receiptTime, packet) ∈ receiptTimeAndData ∧
        StreamKey.ofIdentifier? packet.streamIdentifier = some k ∧
        i = (packet.sequenceNumber, ⟨receiptTime, P.appendToString packet⟩) := by
  rw [mem_updatesAt, items, List.mem_filterMap]
  constructor
  · rintro ⟨⟨receiptTime, packet⟩, hmem, hitem⟩
    obtain ⟨k', hk', heq⟩ := Option.map_eq_some_iff.1 hitem
    obtain ⟨rfl, rfl⟩ := Prod.mk.inj heq
    exact ⟨receiptTime, packet, hmem, hk', rfl⟩
  · rintro ⟨receiptTime, packet, hmem, hk, rfl⟩
    refine ⟨(receiptTime, packet), hmem, ?_⟩
    rw [item, hk]
    rfl

/-- The packets of a batch without a key. -/
def rejected (receiptTimeAndData : List (Int64 × Packet)) : List Packet :=
  (receiptTimeAndData.map Prod.snd).filter fun packet =>
    (StreamKey.ofIdentifier? packet.streamIdentifier).isNone

/-- One pass of the loop over the packets. -/
theorem writePacket_eq (P : Platform) (locals : WriteLocals) (e : Int64 × Packet) :
    writePacket P locals e =
      match item P e with
      | none => { locals with notWritten := locals.notWritten ++ [e.2] }
      | some (k, s, r) =>
        { locals with
          batch := locals.batch ++ [(Change.record (s, r)).op k]
          streamAggregate := locals.streamAggregate.tryEmplace k.bytes (.single s r.receivedAt)
            (·.merge (.single s r.receivedAt)) } := by
  obtain ⟨receiptTime, packet⟩ := e
  unfold writePacket item
  cases hk : StreamKey.ofIdentifier? packet.streamIdentifier with
  | none =>
      have hnot := StreamKey.ofIdentifier?_eq_none_iff.1 hk
      cases hkey : toPacketKey packet.streamIdentifier packet.sequenceNumber with
      | error e => simp only [hkey, hk, Option.map_none]
      | ok key =>
          obtain ⟨k, hk, -⟩ := toPacketKey_eq_ok_iff.1 hkey
          exact absurd (toStreamKey_eq_ok_iff.1 hk).1 hnot
  | some k =>
      have hstream := StreamKey.ofIdentifier?_eq_some_iff.1 hk
      have hkey : toPacketKey packet.streamIdentifier packet.sequenceNumber
          = .ok (k.packetKey packet.sequenceNumber) := toPacketKey_eq_ok_iff.2 ⟨_, hstream, rfl⟩
      simp only [hkey, hk, hstream, Option.map_some]
      rfl

/-- The local variables after the loop over the packets of a batch. -/
structure Collected (P : Platform) (receiptTimeAndData : List (Int64 × Packet))
    (locals : WriteLocals) : Prop where
  notWritten : locals.notWritten = rejected receiptTimeAndData
  batch : locals.batch =
    Database.ops ((items P receiptTimeAndData).map fun e => (e.1, .record e.2))
  aggregate (k : StreamKey) : locals.streamAggregate.find? k.bytes =
    (updatesAt (items P receiptTimeAndData) k).foldl Aggregate.widen none
  keys (e : Bytes × Aggregate) (h : e ∈ locals.streamAggregate.entries) :
    ∃ identifier, toStreamKey identifier = .ok e.1

/-- **The loop collects the batch, and each stream's summary of it.** -/
theorem collected (P : Platform) (receiptTimeAndData : List (Int64 × Packet)) :
    Collected P receiptTimeAndData (receiptTimeAndData.foldl (writePacket P) {}) := by
  induction receiptTimeAndData using List.reverseRecOn with
  | nil => exact ⟨rfl, rfl, fun _ => rfl, fun e h => absurd h List.not_mem_nil⟩
  | append_singleton l e ih =>
      rw [List.foldl_concat, writePacket_eq]
      have hitems : items P (l ++ [e]) = items P l ++ (item P e).toList := by
        rw [items, List.filterMap_append]
        cases hitem : item P e <;> simp [items, hitem]
      cases hitem : item P e with
      | none =>
          have hnone : StreamKey.ofIdentifier? e.2.streamIdentifier = none := by
            simpa [item] using hitem
          rw [hitem] at hitems
          refine ⟨?_, ?_, fun k => ?_, ih.keys⟩
          · simp [rejected, ih.notWritten, hnone]
          · rw [hitems, ih.batch]; simp
          · rw [hitems, ih.aggregate]; simp
      | some i =>
          obtain ⟨k, s, r⟩ := i
          have hsome : StreamKey.ofIdentifier? e.2.streamIdentifier = some k := by
            obtain ⟨k', hk', heq⟩ := Option.map_eq_some_iff.1 hitem
            exact (Prod.mk.inj heq).1 ▸ hk'
          rw [hitem] at hitems
          refine ⟨?_, ?_, fun k' => ?_, fun e' he' => ?_⟩
          · simp [rejected, ih.notWritten, hsome]
          · rw [hitems, ih.batch]; simp [Database.ops]
          · rw [hitems, updatesAt_append, List.foldl_append, ← ih.aggregate,
              HashTable.find?_tryEmplace, Function.update_apply, Option.toList_some,
              updatesAt_cons]
            by_cases hk : k' = k
            · subst hk
              simp [Aggregate.widen, updatesAt]
            · have hbytes : k'.bytes ≠ k.bytes := fun h => hk (StreamKey.ext h)
              simp [hbytes, Ne.symm hk, updatesAt]
          · have hfst : e'.1 ∈ (HashTable.upsert k.bytes (.single s r.receivedAt)
                (·.merge (.single s r.receivedAt)) (List.foldl (writePacket P) {} l
                  ).streamAggregate.entries).map Prod.fst := List.mem_map_of_mem he'
            rw [HashTable.map_fst_upsert] at hfst
            have hcases : e'.1 ∈ (List.foldl (writePacket P) {} l
                ).streamAggregate.entries.map Prod.fst ∨ e'.1 = k.bytes := by
              split_ifs at hfst with hin
              · exact Or.inl hfst
              · simpa using hfst
            rcases hcases with hold | hnew
            · obtain ⟨e'', he'', heq⟩ := List.mem_map.1 hold
              exact heq ▸ ih.keys e'' he''
            · exact hnew ▸ k.isKey

/-- The map walk visits each stream of the batch once, with its summary. -/
theorem exists_summaries (P : Platform) (receiptTimeAndData : List (Int64 × Packet)) :
    ∃ m : List (StreamKey × Aggregate),
      P.bucketOrder (receiptTimeAndData.foldl (writePacket P) {}).streamAggregate.entries
        = m.map (fun e => (e.1.bytes, e.2)) ∧
      ∀ k, updatesAt m k =
        ((updatesAt (items P receiptTimeAndData) k).foldl Aggregate.widen none).toList := by
  have hlocals := collected P receiptTimeAndData
  generalize receiptTimeAndData.foldl (writePacket P) {} = locals at hlocals ⊢
  have hperm := P.bucketOrder_perm locals.streamAggregate.entries
  obtain ⟨m, hm, hupdates⟩ := exists_streamKeys (P.bucketOrder locals.streamAggregate.entries)
    ((hperm.map Prod.fst).nodup_iff.2 locals.streamAggregate.nodup)
    fun e he => hlocals.keys e (hperm.mem_iff.1 he)
  refine ⟨m, hm, fun k => hupdates k _ fun a => ?_⟩
  rw [hperm.mem_iff, HashTable.mem_entries, hlocals.aggregate]

/-- The batch of a write, as changes. -/
theorem exists_planWrite (P : Platform) (existing : Bytes → Option Bytes)
    (receiptTimeAndData : List (Int64 × Packet)) :
    ∃ m : List (StreamKey × Aggregate),
      (planWrite P existing receiptTimeAndData).2 = Database.ops
        ((items P receiptTimeAndData).map (fun e => (e.1, Change.record e.2)) ++
          m.map fun e => (e.1, Change.entry (mergeExisting e.2 (existing e.1.bytes)))) ∧
      ∀ k, updatesAt m k =
        ((updatesAt (items P receiptTimeAndData) k).foldl Aggregate.widen none).toList := by
  obtain ⟨m, hm, hupdates⟩ := exists_summaries P receiptTimeAndData
  refine ⟨m, ?_, hupdates⟩
  rw [planWrite, hm, (collected P receiptTimeAndData).batch, List.foldl_append_eq_append]
  rw [← List.flatMap_def, ← List.map_eq_flatMap, Database.ops, Database.ops, List.map_append,
    List.map_map, List.map_map, List.map_map]
  rfl

variable {CF : Type} [OrderedStore CF Bytes Bytes]

/-- Records put one after another. -/
theorem foldl_apply_record (l : List (UInt64 × Record)) (v : StreamView) :
    (l.map Change.record).foldl Change.apply v
      = { v with records := l.foldl StreamView.putRecord v.records } := by
  induction l generalizing v with
  | nil => rfl
  | cons i l ih => exact ih (Change.apply v (.record i))

namespace Database

/-- **What the batch of a write does to each stream,** whatever its registry
reads returned. -/
theorem view_planWrite (P : Platform) (existing : Bytes → Option Bytes)
    (hexisting : ∀ key value, existing key = some value → value.length = streamsValueLength)
    (db : Database CF) (receiptTimeAndData : List (Int64 × Packet)) (k : StreamKey) :
    view (db.commit (planWrite P existing receiptTimeAndData).2) k =
      (view db k).write ((existing k.bytes).map decodeEntry)
        (updatesAt (items P receiptTimeAndData) k) := by
  obtain ⟨m, hplan, hupdates⟩ := exists_planWrite P existing receiptTimeAndData
  rw [hplan, view_commit, updatesAt_append, updatesAt_map_snd (fun _ => Change.record),
    updatesAt_map_snd fun (k : StreamKey) a => Change.entry (mergeExisting a (existing k.bytes)),
    hupdates, List.foldl_append, foldl_apply_record, StreamView.write]
  cases (updatesAt (items P receiptTimeAndData) k).foldl Aggregate.widen none with
  | none => rfl
  | some a =>
      rw [Option.toList_some, List.map_singleton, List.foldl_cons, List.foldl_nil,
        mergeExisting_eq_readEntry, readEntry_of_whole (hexisting k.bytes)]
      rfl

/-- The batch of a write keeps the layout, whatever entries it read. -/
theorem WellFormed.planWrite {db : Database CF} (hdb : WellFormed db) (P : Platform)
    (existing : Bytes → Option Bytes) (receiptTimeAndData : List (Int64 × Packet)) :
    WellFormed (db.commit (planWrite P existing receiptTimeAndData).2) := by
  obtain ⟨m, hplan, -⟩ := exists_planWrite P existing receiptTimeAndData
  rw [hplan]
  exact hdb.commit _

/-- A call of `write`: all or nothing of the batch it plans. -/
theorem write_eq (P : Platform) (faults : Faults) (db : Database CF)
    (receiptTimeAndData : List (Int64 × Packet)) :
    write P faults db receiptTimeAndData =
      if faults.writeFails then (receiptTimeAndData.map Prod.snd, db)
      else (rejected receiptTimeAndData,
        db.commit (planWrite P (getExisting faults.readFails db) receiptTimeAndData).2) := by
  unfold write
  have hrejected : (planWrite P (getExisting faults.readFails db) receiptTimeAndData).1
      = rejected receiptTimeAndData := (collected P receiptTimeAndData).notWritten
  split_ifs with hempty hfails hfails
  · rw [List.isEmpty_iff.1 hempty]
    rfl
  · rw [List.isEmpty_iff.1 hempty]
    have : (planWrite P (getExisting faults.readFails db) []).2 = [] := by
      have hnil := P.bucketOrder_perm []
      simp [planWrite, HashTable.empty, hnil.eq_nil]
    rw [this]
    rfl
  · rfl
  · rw [← hrejected]

/-- A call of `write` whose registry reads succeed. -/
theorem write_snd (P : Platform) (writeFails : Bool) (db : Database CF)
    (receiptTimeAndData : List (Int64 × Packet)) :
    (write P { writeFails := writeFails } db receiptTimeAndData).2 =
      if writeFails then db
      else db.commit (planWrite P (OrderedStore.get db.streams) receiptTimeAndData).2 := by
  have hreads : getExisting (fun _ => false) db = OrderedStore.get db.streams := by
    funext key
    rfl
  rw [write_eq, hreads]
  split_ifs <;> rfl

/-- **A successful write appends the packets of its batch to their streams.** -/
theorem WellFormed.view_write {db : Database CF} (hdb : WellFormed db) (P : Platform)
    (receiptTimeAndData : List (Int64 × Packet)) (k : StreamKey) :
    view (write P {} db receiptTimeAndData).2 k =
      (updatesAt (items P receiptTimeAndData) k).foldl StreamView.append (view db k) := by
  rw [write_snd P false, if_neg Bool.false_ne_true, view_planWrite P _
    fun key value h => (hdb.streams key value h).2]
  exact StreamView.write_entry _ _

/-- So a write does. -/
theorem WellFormed.write {db : Database CF} (hdb : WellFormed db) (P : Platform)
    (writeFails : Bool) (receiptTimeAndData : List (Int64 × Packet)) :
    WellFormed (write P { writeFails := writeFails } db receiptTimeAndData).2 := by
  rw [write_snd]
  split_ifs
  · exact hdb
  · exact hdb.planWrite P _ _

end Database

end RocksDatabase
end UDataPacketBroker
