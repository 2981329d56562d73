/-
# What the store answers

`query` seeks to the first packet key wanted and reads on until the stream key
ends; every packet of the stream lies there and nothing else does, so the
answer for one stream is its stored records from that number on, in order
(`mem_readStream`, `readStream_sorted`).  `queryAvailableStreams` decodes the
registry, one line for each stream that has an entry.
-/

import UDataPacketBroker.RocksDatabase.Truncation

namespace UDataPacketBroker
namespace RocksDatabase

open Library Utilities

variable {CF : Type} [OrderedStore CF Bytes Bytes]

/-! ### `query` -/

/-- What `scan` reports of one entry. -/
def response (keyValue : Bytes × Bytes) : QueryResponse where
  packet := keyValue.2.drop packetsValueHeaderLength
  receivedAt := (getBigEndian64 keyValue.2).toInt64
  sequenceNumber := getBigEndian64 (keyValue.1.drop streamKeyLength)

/-- The answer for one stream. -/
def readStream (db : Database CF) (k : StreamKey) (start : UInt64) : List QueryResponse :=
  scan k.bytes (prefixIterator db.packets (k.packetKey start))

/-- `query` answers stream by stream, and skips what cannot be encoded. -/
theorem query_eq (db : Database CF) (request : List (StreamIdentifier × UInt64)) :
    query db request = (request.filterMap fun e =>
      (StreamKey.ofIdentifier? e.1).map fun k => readStream db k e.2).flatten := by
  induction request with
  | nil => rfl
  | cons e request ih =>
      obtain ⟨identifier, start⟩ := e
      rw [query] at ih ⊢
      rw [List.flatMap_cons, ih]
      cases hk : StreamKey.ofIdentifier? identifier with
      | none =>
          have hnot := StreamKey.ofIdentifier?_eq_none_iff.1 hk
          cases hkey : toStreamKey identifier with
          | error reason => simp [hk, hkey]
          | ok key => exact absurd (toStreamKey_eq_ok_iff.1 hkey).1 hnot
      | some k =>
          have hkey := StreamKey.ofIdentifier?_eq_some_iff.1 hk
          have hseek : toPacketKey identifier start = .ok (k.packetKey start) :=
            toPacketKey_eq_ok_iff.2 ⟨_, hkey, rfl⟩
          simp [hk, hkey, hseek, readStream]

/-- A packet key starts with the stream key. -/
theorem take_packetKey (k : StreamKey) (s : UInt64) :
    (k.packetKey s).take streamKeyLength = k.bytes := by
  rw [StreamKey.packetKey, ← k.length_bytes, List.take_left]

/-- The number of a response is that of its key. -/
theorem sequenceNumber_response (k : StreamKey) (s : UInt64) (value : Bytes) :
    (response (k.packetKey s, value)).sequenceNumber = s := by
  have hdrop : (k.packetKey s).drop streamKeyLength = bigEndian64 s := by
    rw [StreamKey.packetKey, ← k.length_bytes, List.drop_left]
  rw [response, hdrop]
  simpa using getBigEndian64_append s []

/-- On entries of one stream with whole values, `scan` reports them all. -/
theorem scan_eq_map (k : StreamKey) (l : List (Bytes × Bytes))
    (h : ∀ e ∈ l, (∃ s, e.1 = k.packetKey s) ∧ packetsValueHeaderLength ≤ e.2.length) :
    scan k.bytes l = l.map response := by
  induction l with
  | nil => rfl
  | cons e l ih =>
      obtain ⟨key, value⟩ := e
      obtain ⟨⟨s, hkey⟩, hlen⟩ := h _ List.mem_cons_self
      dsimp only at hkey hlen
      have hprefix : k.bytes.isPrefixOf key = true := by
        rw [hkey, List.isPrefixOf_iff_prefix]
        exact List.prefix_append _ _
      rw [scan, if_neg (not_not.2 hprefix), if_neg (not_lt.2 hlen),
        ih fun e he => h e (List.mem_cons_of_mem _ he), List.map_cons]
      rfl

namespace Database

/-- The iterator walks the packets of its stream, from its seek key on. -/
theorem WellFormed.mem_prefixIterator {db : Database CF} (hdb : WellFormed db) (k : StreamKey)
    (start : UInt64) (e : Bytes × Bytes) :
    e ∈ prefixIterator db.packets (k.packetKey start) ↔
      ∃ s, e.1 = k.packetKey s ∧ start ≤ s ∧ OrderedStore.get db.packets e.1 = some e.2 := by
  -- among the keys from the seek key on, those of the stream come first
  have hfront : (OrderedStore.seek db.packets (k.packetKey start)).Pairwise fun e e' =>
      decide (e'.1.take streamKeyLength = (k.packetKey start).take streamKeyLength) = true →
        decide (e.1.take streamKeyLength = (k.packetKey start).take streamKeyLength) = true := by
    refine (OrderedStore.seek_sorted db.packets (k.packetKey start)).imp_of_mem ?_
    intro e e' he he' hlt hstream
    obtain ⟨hget, hle⟩ := (OrderedStore.mem_seek _ _ _).1 he
    obtain ⟨hget', -⟩ := (OrderedStore.mem_seek _ _ _).1 he'
    obtain ⟨⟨k₁, s₁, hkey₁⟩, -⟩ := hdb.packets _ _ hget
    obtain ⟨⟨k₂, s₂, hkey₂⟩, -⟩ := hdb.packets _ _ hget'
    simp only [hkey₁, hkey₂, take_packetKey, decide_eq_true_iff] at hstream hle hlt ⊢
    obtain rfl := StreamKey.ext hstream
    rcases lt_trichotomy k₁.bytes k₂.bytes with h | h | h
    · exact absurd hle (not_le.2 (StreamKey.packetKey_lt_iff.2 (Or.inl h)))
    · exact h
    · exact absurd hlt (lt_asymm (StreamKey.packetKey_lt_iff.2 (Or.inl h)))
  rw [prefixIterator, OrderedStore.takeWhile_eq_filter hfront, List.mem_filter,
    OrderedStore.mem_seek, decide_eq_true_iff, take_packetKey]
  constructor
  · rintro ⟨⟨hget, hle⟩, hstream⟩
    obtain ⟨⟨k', s, hkey⟩, -⟩ := hdb.packets _ _ hget
    rw [hkey, take_packetKey] at hstream
    obtain rfl := StreamKey.ext hstream
    rw [hkey, StreamKey.packetKey_le_iff] at hle
    exact ⟨s, hkey, hle, hget⟩
  · rintro ⟨s, hkey, hle, hget⟩
    rw [hkey]
    exact ⟨⟨hkey ▸ hget, StreamKey.packetKey_le_iff.2 hle⟩, take_packetKey k s⟩

/-- The loop answers what the iterator passes under the stream's prefix. -/
theorem WellFormed.readStream_eq_map {db : Database CF} (hdb : WellFormed db) (k : StreamKey)
    (start : UInt64) :
    readStream db k start = (prefixIterator db.packets (k.packetKey start)).map response := by
  refine scan_eq_map k _ fun e he => ?_
  obtain ⟨s, hkey, -, hget⟩ := (hdb.mem_prefixIterator k start e).1 he
  exact ⟨⟨s, hkey⟩, (hdb.packets _ _ hget).2⟩

/-- **The answer for a stream is its records from the start on,** -/
theorem WellFormed.mem_readStream {db : Database CF} (hdb : WellFormed db) (k : StreamKey)
    (start : UInt64) (r : QueryResponse) :
    r ∈ readStream db k start ↔ start ≤ r.sequenceNumber ∧
      (view db k).records r.sequenceNumber = some ⟨r.receivedAt, r.packet⟩ := by
  rw [hdb.readStream_eq_map, List.mem_map]
  constructor
  · rintro ⟨⟨key, value⟩, he, rfl⟩
    obtain ⟨s, rfl, hle, hget⟩ := (hdb.mem_prefixIterator k start _).1 he
    rw [sequenceNumber_response]
    exact ⟨hle, congrArg (Option.map decodeRecord) hget⟩
  · rintro ⟨hle, hrecord⟩
    obtain ⟨value, hget, hvalue⟩ := Option.map_eq_some_iff.1 hrecord
    refine ⟨(k.packetKey r.sequenceNumber, value),
      (hdb.mem_prefixIterator k start _).2 ⟨_, rfl, hle, hget⟩, ?_⟩
    have hseq := sequenceNumber_response k r.sequenceNumber value
    obtain ⟨htime, hpacket⟩ := Record.mk.inj hvalue
    obtain ⟨packet, receivedAt, sequenceNumber⟩ := r
    exact QueryResponse.mk.injEq .. ▸ ⟨hpacket, htime, hseq⟩

/-- **in the order of their numbers.** -/
theorem WellFormed.readStream_sorted {db : Database CF} (hdb : WellFormed db) (k : StreamKey)
    (start : UInt64) :
    (readStream db k start).Pairwise fun r r' => r.sequenceNumber < r'.sequenceNumber := by
  rw [hdb.readStream_eq_map, List.pairwise_map]
  have hsorted : (prefixIterator db.packets (k.packetKey start)).Pairwise fun e e' => e.1 < e'.1 :=
    (OrderedStore.seek_sorted _ _).sublist (List.takeWhile_sublist _)
  refine hsorted.imp_of_mem ?_
  rintro ⟨key, value⟩ ⟨key', value'⟩ he he' hlt
  obtain ⟨s, rfl, -⟩ := (hdb.mem_prefixIterator k start _).1 he
  obtain ⟨s', rfl, -⟩ := (hdb.mem_prefixIterator k start _).1 he'
  rw [sequenceNumber_response, sequenceNumber_response]
  rcases StreamKey.packetKey_lt_iff.1 hlt with h | h
  · exact absurd h (lt_irrefl _)
  · exact h.2

/-- **The answer for a stream depends on its records alone.** -/
theorem WellFormed.readStream_congr {db db' : Database CF} (hdb : WellFormed db)
    (hdb' : WellFormed db') {k : StreamKey} (h : (view db k).records = (view db' k).records)
    (start : UInt64) : readStream db k start = readStream db' k start := by
  have hnodup {db : Database CF} (hdb : WellFormed db) : (readStream db k start).Nodup :=
    (hdb.readStream_sorted k start).imp fun hlt heq => hlt.ne (congrArg _ heq)
  have hperm : (readStream db k start).Perm (readStream db' k start) := by
    refine (List.perm_ext_iff_of_nodup (hnodup hdb) (hnodup hdb')).2 fun r => ?_
    rw [hdb.mem_readStream, hdb'.mem_readStream, h]
  exact hperm.eq_of_pairwise (fun _ _ _ _ hlt hgt => absurd hgt (lt_asymm hlt))
    (hdb.readStream_sorted k start) (hdb'.readStream_sorted k start)

/-! ### `queryAvailableStreams` -/

/-- **The listing has one line for each registry entry.** -/
theorem Lists.queryAvailableStreams_eq {db : Database CF} {l : List (StreamKey × Aggregate)}
    (h : Lists db l) :
    queryAvailableStreams db = l.map fun e => (e.2.lastReceivedNanoSeconds, e.1.identifier) := by
  obtain ⟨m, hm, rfl, hlen⟩ := h.values
  rw [queryAvailableStreams, hm, List.filterMap_map, List.map_map]
  refine List.filterMap_eq_map_iff_forall_eq_some.2 fun e he => ?_
  simp only [Function.comp_apply, availableStream, StreamKey.fromStreamKey_bytes,
    if_pos (hlen e he).ge]
  rfl

/-- **The streams that are available** are those with an entry, each with its time. -/
theorem WellFormed.mem_queryAvailableStreams {db : Database CF} (hdb : WellFormed db)
    (time : Int64) (identifier : StreamIdentifier) :
    (time, identifier) ∈ queryAvailableStreams db ↔
      ∃ k e, (view db k).entry = some e ∧ e.lastReceivedNanoSeconds = time ∧
        k.identifier = identifier := by
  obtain ⟨l, hl⟩ := hdb.exists_lists
  rw [hl.queryAvailableStreams_eq, List.mem_map]
  constructor
  · rintro ⟨⟨k, e⟩, he, heq⟩
    obtain ⟨htime, hid⟩ := Prod.mk.inj heq
    exact ⟨k, e, hl.mem_iff.1 he, htime, hid⟩
  · rintro ⟨k, e, he, rfl, rfl⟩
    exact ⟨(k, e), hl.mem_iff.2 he, rfl⟩

/-- **No identifier is listed twice.** -/
theorem WellFormed.nodup_queryAvailableStreams {db : Database CF} (hdb : WellFormed db) :
    ((queryAvailableStreams db).map Prod.snd).Nodup := by
  obtain ⟨l, hl⟩ := hdb.exists_lists
  have hmap : (queryAvailableStreams db).map Prod.snd = (l.map Prod.fst).map StreamKey.identifier := by
    rw [hl.queryAvailableStreams_eq, List.map_map, List.map_map]
    rfl
  rw [hmap]
  exact hl.nodup.map fun _ _ => StreamKey.identifier_inj

end Database

end RocksDatabase
end UDataPacketBroker
