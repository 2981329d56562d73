/-
# The registry and the packets agree

The registry is kept by two functions that share no code: `write` merges the
summary of a batch into it, `truncateOldest` advances or deletes its entries.
Over every run of calls it says of each stream what the packets of the stream
say themselves (`registry_invariant`), and stream discovery, which reads the
registry alone, lists the streams that have packets (`streamDiscovery`).
-/

import UDataPacketBroker.RocksDatabase.Calls

namespace UDataPacketBroker
namespace RocksDatabase

open Library Utilities

variable {CF : Type} [OrderedStore CF Bytes Bytes]

/-- A packet key, as `truncateOldest` spells it. -/
theorem putBigEndian64_bytes (k : StreamKey) (s : UInt64) :
    putBigEndian64 k.bytes s = k.packetKey s := rfl

namespace Database

/-- A packet key in the store is a record of its stream. -/
theorem stored_iff (db : Database CF) (k : StreamKey) (s : UInt64) :
    (∃ packet, (k.packetKey s, packet) ∈ OrderedStore.entries db.packets) ↔
      ∃ r, (view db k).records s = some r := by
  simp only [OrderedStore.mem_entries, view]
  cases OrderedStore.get db.packets (k.packetKey s) <;> simp

/-- A line of the registry is the entry of a stream. -/
theorem WellFormed.exists_streamKey {db : Database CF} (hdb : WellFormed db) {key value : Bytes}
    (h : (key, value) ∈ OrderedStore.entries db.streams) :
    ∃ k : StreamKey, key = k.bytes ∧ value.length = streamsValueLength ∧
      (view db k).entry = some (decodeEntry value) := by
  have hget := (OrderedStore.mem_entries _ _ _).1 h
  obtain ⟨hkey, hlen⟩ := hdb.streams key value hget
  exact ⟨⟨key, hkey⟩, rfl, hlen, congrArg (Option.map decodeEntry) hget⟩

/-- An entry of a stream is a line of the registry. -/
theorem exists_value_of_entry {db : Database CF} {k : StreamKey} {e : Aggregate}
    (h : (view db k).entry = some e) :
    ∃ value, (k.bytes, value) ∈ OrderedStore.entries db.streams ∧ decodeEntry value = e := by
  obtain ⟨value, hget, hvalue⟩ := Option.map_eq_some_iff.1 h
  exact ⟨value, (OrderedStore.mem_entries _ _ _).2 hget, hvalue⟩

/-- What a line of the registry says of the packets of its stream. -/
theorem Sound.registry_line {db : Database CF} (hdb : Sound db) {key value : Bytes}
    (h : (key, value) ∈ OrderedStore.entries db.streams) :
    value.length = 24 ∧
      (∀ s packet, (putBigEndian64 key s, packet) ∈ OrderedStore.entries db.packets →
        getBigEndian64 value ≤ s) ∧
      IsGreatest {s | ∃ packet, (putBigEndian64 key s, packet) ∈ OrderedStore.entries db.packets}
        (getBigEndian64 (value.drop 8)) ∧
      getBigEndian64 value ≤ getBigEndian64 (value.drop 8) := by
  obtain ⟨k, rfl, hlen, hentry⟩ := hdb.wellFormed.exists_streamKey h
  have hvalid := hdb.valid k
  simp only [putBigEndian64_bytes]
  have hbounds (s : UInt64) (packet : Bytes)
      (hs : (k.packetKey s, packet) ∈ OrderedStore.entries db.packets) :
      getBigEndian64 value ≤ s ∧ s ≤ getBigEndian64 (value.drop 8) := by
    obtain ⟨r, hr⟩ := (stored_iff db k s).1 ⟨packet, hs⟩
    obtain ⟨e, he, hmin, hmax⟩ := hvalid.bounds s r hr
    obtain rfl := Option.some.inj (hentry.symm.trans he)
    exact ⟨hmin, hmax⟩
  have hle : getBigEndian64 value ≤ getBigEndian64 (value.drop 8) := hvalid.min_le_max hentry
  have hmax : (decodeEntry value).maxSequenceNumber = getBigEndian64 (value.drop 8) := rfl
  have hstored := hvalid.max_stored _ hentry
  rw [hmax, ← stored_iff] at hstored
  refine ⟨hlen, fun s packet hs => (hbounds s packet hs).1, ⟨hstored, ?_⟩, hle⟩
  · rintro s ⟨packet, hs⟩
    exact (hbounds s packet hs).2

/-- A stored packet has a line in the registry. -/
theorem Sound.exists_registry_line {db : Database CF} (hdb : Sound db) {key packet : Bytes}
    (h : (key, packet) ∈ OrderedStore.entries db.packets) :
    ∃ (k : StreamKey) (s : UInt64) (value : Bytes), key = k.packetKey s ∧
      (k.bytes, value) ∈ OrderedStore.entries db.streams := by
  obtain ⟨⟨k, s, rfl⟩, -⟩ := hdb.wellFormed.packets _ _ ((OrderedStore.mem_entries _ _ _).1 h)
  obtain ⟨r, hr⟩ := (stored_iff db k s).1 ⟨packet, h⟩
  obtain ⟨e, he, -⟩ := (hdb.valid k).bounds s r hr
  obtain ⟨value, hvalue, -⟩ := exists_value_of_entry he
  exact ⟨k, s, value, rfl, hvalue⟩

/-- The number at the end of a packet key. -/
theorem readBigEndian64_packetKey (k : StreamKey) (s : UInt64) :
    readBigEndian64 (k.packetKey s) streamKeyLength = s := by
  rw [readBigEndian64, StreamKey.packetKey, ← k.length_bytes, List.drop_left,
    List.take_of_length_le (by simp), ofBigEndian64_bigEndian64]

/-- The global number of a store without packets is 0, of any other the greatest stored. -/
theorem Sound.getGlobalSequenceNumber_eq {db : Database CF} (hdb : Sound db) :
    (OrderedStore.entries db.packets = [] → getGlobalSequenceNumber db = 0) ∧
      (OrderedStore.entries db.packets ≠ [] →
        IsGreatest {s | ∃ key packet, (key, packet) ∈ OrderedStore.entries db.packets ∧
          readBigEndian64 key streamKeyLength = s} (getGlobalSequenceNumber db)) := by
  constructor
  · intro hnil
    refine hdb.wellFormed.getGlobalSequenceNumber_of_entries_nil fun k => ?_
    rw [← Option.not_isSome_iff_eq_none, (hdb.valid k).entry_isSome_iff]
    rintro ⟨s, hr⟩
    obtain ⟨packet, hs⟩ := (stored_iff db k s).2 hr
    rw [hnil] at hs
    exact absurd hs List.not_mem_nil
  · intro hne
    have hset : {s | ∃ key packet, (key, packet) ∈ OrderedStore.entries db.packets ∧
        readBigEndian64 key streamKeyLength = s} = {s | ∃ k r, (view db k).records s = some r} := by
      refine Set.ext fun s => ⟨?_, ?_⟩
      · rintro ⟨key, packet, hmem, rfl⟩
        obtain ⟨k, s, -, rfl, -⟩ := hdb.exists_registry_line hmem
        rw [readBigEndian64_packetKey]
        exact ⟨k, (stored_iff db k s).1 ⟨packet, hmem⟩⟩
      · rintro ⟨k, hr⟩
        obtain ⟨packet, hs⟩ := (stored_iff db k s).2 hr
        exact ⟨_, packet, hs, readBigEndian64_packetKey k s⟩
    rw [hset]
    obtain ⟨⟨key, packet⟩, hmem⟩ := List.exists_mem_of_ne_nil _ hne
    obtain ⟨k, s, value, rfl, hline⟩ := hdb.exists_registry_line hmem
    obtain ⟨k', hbytes, -, hentry⟩ := hdb.wellFormed.exists_streamKey hline
    exact hdb.isGreatest_getGlobalSequenceNumber ⟨k', by rw [hentry]; exact Option.some_ne_none _⟩

end Database

/-- **The registry invariant over every run,** with either outcome of each
`Write`: registry values are 24 bytes, each line bounds its stream's packets
from below and carries the largest of their numbers, no packet is without a
line, and the global sequence number is the largest one stored. -/
theorem registry_invariant (P : Platform) (history : List Call) :
    let db : Database CF := run P history
    (∀ key value, (key, value) ∈ OrderedStore.entries db.streams →
      value.length = 24 ∧
      (∀ s packet, (putBigEndian64 key s, packet) ∈ OrderedStore.entries db.packets →
        getBigEndian64 value ≤ s) ∧
      IsGreatest {s | ∃ packet, (putBigEndian64 key s, packet) ∈ OrderedStore.entries db.packets}
        (getBigEndian64 (value.drop 8)) ∧
      getBigEndian64 value ≤ getBigEndian64 (value.drop 8)) ∧
    (∀ key packet, (key, packet) ∈ OrderedStore.entries db.packets →
      ∃ streamKey s value, key = putBigEndian64 streamKey s ∧
        (streamKey, value) ∈ OrderedStore.entries db.streams) ∧
    (OrderedStore.entries db.packets = [] → getGlobalSequenceNumber db = 0) ∧
    (OrderedStore.entries db.packets ≠ [] →
      IsGreatest {s | ∃ key packet, (key, packet) ∈ OrderedStore.entries db.packets ∧
        readBigEndian64 key streamKeyLength = s} (getGlobalSequenceNumber db)) := by
  have hdb : (run P history : Database CF).Sound := Database.sound_run P history
  refine ⟨fun key value h => hdb.registry_line h, fun key packet h => ?_,
    hdb.getGlobalSequenceNumber_eq⟩
  obtain ⟨k, s, value, hkey, hline⟩ := hdb.exists_registry_line h
  exact ⟨k.bytes, s, value, hkey, hline⟩

/-! ### Stream discovery -/

/-- The receipt times of the packets of a stream in the successful writes of `calls`. -/
def receiptTimes (calls : List Call) (identifier : StreamIdentifier) : Set Int64 :=
  {t | ∃ receiptTimeAndData packet, Call.write false receiptTimeAndData ∈ calls ∧
    (t, packet) ∈ receiptTimeAndData ∧ IsEncodable packet.streamIdentifier ∧
    canonical packet.streamIdentifier = identifier}

/-- The receipt times of a history in two parts. -/
theorem receiptTimes_append (calls calls' : List Call) (identifier : StreamIdentifier) :
    receiptTimes (calls ++ calls') identifier =
      receiptTimes calls identifier ∪ receiptTimes calls' identifier := by
  ext t
  constructor
  · rintro ⟨data, packet, hcall, h⟩
    exact (List.mem_append.1 hcall).imp (⟨data, packet, ·, h⟩) (⟨data, packet, ·, h⟩)
  · rintro (⟨data, packet, hcall, h⟩ | ⟨data, packet, hcall, h⟩)
    · exact ⟨data, packet, List.mem_append_left _ hcall, h⟩
    · exact ⟨data, packet, List.mem_append_right _ hcall, h⟩

/-- The receipt times of one batch, stream by stream. -/
theorem exists_mem_updatesAt_items (P : Platform) (receiptTimeAndData : List (Int64 × Packet))
    (k : StreamKey) (t : Int64) :
    (∃ i ∈ updatesAt (items P receiptTimeAndData) k, i.2.receivedAt = t) ↔
      t ∈ receiptTimes [.write false receiptTimeAndData] k.identifier := by
  constructor
  · rintro ⟨i, hi, rfl⟩
    obtain ⟨t, packet, hmem, hk, rfl⟩ := mem_updatesAt_items.1 hi
    obtain ⟨hencodable, hcanonical⟩ := StreamKey.ofIdentifier?_eq_some_iff_canonical.1 hk
    exact ⟨_, packet, List.mem_cons_self, hmem, hencodable, hcanonical⟩
  · rintro ⟨data, packet, hcall, hmem, hencodable, hcanonical⟩
    obtain rfl : data = receiptTimeAndData := by simpa using hcall
    have hk := StreamKey.ofIdentifier?_eq_some_iff_canonical.2 ⟨hencodable, hcanonical⟩
    exact ⟨_, mem_updatesAt_items.2 ⟨t, packet, hmem, hk, rfl⟩, rfl⟩

/-- The time of an entry after a call: the last of the time it had and the call's. -/
theorem isGreatest_lastReceived_step {db : Database CF} (hdb : db.Sound) (P : Platform)
    (call : Call) {k : StreamKey} {e : Aggregate} (h : ((step P db call).view k).entry = some e) :
    IsGreatest {t | (∃ a, (db.view k).entry = some a ∧ a.lastReceivedNanoSeconds = t) ∨
      t ∈ receiptTimes [call] k.identifier} e.lastReceivedNanoSeconds := by
  -- a call without a successful write adds no time
  have hsame (e' : Aggregate) (he' : (db.view k).entry = some e')
      (hlast : e'.lastReceivedNanoSeconds = e.lastReceivedNanoSeconds)
      (hcall : ∀ data, call ≠ .write false data) :
      IsGreatest {t | (∃ a, (db.view k).entry = some a ∧ a.lastReceivedNanoSeconds = t) ∨
        t ∈ receiptTimes [call] k.identifier} e.lastReceivedNanoSeconds := by
    refine ⟨Or.inl ⟨e', he', hlast⟩, ?_⟩
    rintro t (⟨a, ha, rfl⟩ | ⟨data, packet, hmem, -⟩)
    · rw [← hlast, Option.some.inj (ha.symm.trans he')]
    · exact absurd (List.mem_singleton.1 hmem).symm (hcall data)
  cases call with
  | write writeFails receiptTimeAndData =>
      cases writeFails with
      | true =>
          rw [step, Database.write_snd, if_pos rfl] at h
          exact hsame e h rfl fun _ heq => by cases heq
      | false =>
          rw [step, hdb.wellFormed.view_write, StreamView.entry_foldl_append] at h
          simpa only [Aggregate.single, exists_mem_updatesAt_items] using
            Aggregate.isGreatest_foldl_widen Aggregate.lastReceivedNanoSeconds (fun _ _ => rfl) h
  | truncateOldest writeFails nPackets =>
      rw [step, Database.truncateOldest_snd] at h
      cases writeFails with
      | true => exact hsame e h rfl fun _ heq => by cases heq
      | false =>
          rw [if_neg Bool.false_ne_true, hdb.wellFormed.view_truncateOldest] at h
          obtain ⟨e', he', hlast⟩ := StreamView.entry_of_truncate h
          exact hsame e' he' hlast fun _ heq => by cases heq
  | flushAndReopen => exact hsame e h rfl fun _ heq => by cases heq

/-- `after` is the part of a run since a state was last one in which `absent` holds. -/
def SinceLast (absent : List Call → Prop) (before after : List Call) : Prop :=
  absent before ∧ ∀ mid, mid ≠ [] → mid <+: after → ¬ absent (before ++ mid)

/-- **The time of an entry is the last receipt time since the stream had none.** -/
theorem exists_sinceLast (P : Platform) (history : List Call) {k : StreamKey} {e : Aggregate}
    (h : ((run P history : Database CF).view k).entry = some e) :
    ∃ before after, history = before ++ after ∧
      SinceLast (fun calls => ((run P calls : Database CF).view k).entry = none) before after ∧
      IsGreatest (receiptTimes after k.identifier) e.lastReceivedNanoSeconds := by
  induction history using List.reverseRecOn generalizing e with
  | nil =>
      rw [run_nil, Database.view_empty] at h
      cases h
  | append_singleton history call ih =>
      have hpresent := h
      rw [run_concat] at h
      have hsound : (run P history : Database CF).Sound := Database.sound_run P history
      have hgreatest := isGreatest_lastReceived_step hsound P call h
      cases hentry : ((run P history : Database CF).view k).entry with
      | none =>
          refine ⟨history, [call], rfl, ⟨hentry, fun mid hmid hprefix habsent => ?_⟩, ?_⟩
          · rcases List.prefix_cons_iff.1 hprefix with hnil | ⟨rest, rfl, hrest⟩
            · exact hmid hnil
            · rw [List.prefix_nil.1 hrest, hpresent] at habsent
              cases habsent
          · simpa [hentry] using hgreatest
      | some e₀ =>
          obtain ⟨before, after, rfl, ⟨habsent, hsince⟩, hmem, hub⟩ := ih hentry
          obtain ⟨hmem', hub'⟩ := hgreatest
          have hle := hub' (Or.inl ⟨e₀, hentry, rfl⟩)
          refine ⟨before, after ++ [call], List.append_assoc .., ⟨habsent, fun mid hmid hprefix => ?_⟩,
            ?_⟩
          · rcases List.prefix_concat_iff.1 hprefix with rfl | hprefix
            · rw [← List.append_assoc]
              exact fun hnone => Option.some_ne_none e (hpresent.symm.trans hnone)
            · exact hsince mid hmid hprefix
          · rw [receiptTimes_append]
            constructor
            · rcases hmem' with ⟨a, ha, hlast⟩ | hcall
              · obtain rfl := Option.some.inj (hentry.symm.trans ha)
                exact Or.inl (hlast ▸ hmem)
              · exact Or.inr hcall
            · rintro t (ht | ht)
              · exact (hub ht).trans hle
              · exact hub' (Or.inr ht)

namespace Database

/-- A stream is absent from the registry when it has no entry. -/
theorem absent_iff (db : Database CF) (k : StreamKey) :
    (∀ value, (k.bytes, value) ∉ OrderedStore.entries db.streams) ↔ (view db k).entry = none := by
  rw [view, Option.map_eq_none_iff, Option.eq_none_iff_forall_ne_some]
  simp only [OrderedStore.mem_entries, ne_eq]

/-- A query for one identifier. -/
theorem query_singleton {identifier : StreamIdentifier} {k : StreamKey} (db : Database CF)
    (h : StreamKey.ofIdentifier? identifier = some k) (start : UInt64) :
    query db [(identifier, start)] = readStream db k start := by
  simp [query_eq, h]

/-- A stream has something to read when it has an entry. -/
theorem Sound.readStream_ne_nil_iff {db : Database CF} (hdb : Sound db) (k : StreamKey) :
    readStream db k 0 ≠ [] ↔ ∃ e, (view db k).entry = some e := by
  rw [← Option.isSome_iff_exists, (hdb.valid k).entry_isSome_iff]
  constructor
  · intro hne
    obtain ⟨r, hr⟩ := List.exists_mem_of_ne_nil _ hne
    exact ⟨_, _, ((hdb.wellFormed.mem_readStream k 0 r).1 hr).2⟩
  · rintro ⟨s, r, hr⟩
    exact List.ne_nil_of_mem ((hdb.wellFormed.mem_readStream k 0 ⟨r.packet, r.receivedAt, s⟩).2
      ⟨zero_le_uint64 s, hr⟩)

end Database

/-- **Stream discovery over every run.**  No identifier is listed twice.  The
canonical form of an encodable identifier is listed exactly when a query for
the identifier from 0 finds something.  A listed identifier is canonical, its
queries return the packets under its own registry key, and its time is the
last receipt time since its stream was last absent from the registry. -/
theorem streamDiscovery (P : Platform) (history : List Call) :
    let db : Database CF := run P history
    ((queryAvailableStreams db).map Prod.snd).Nodup ∧
    (∀ identifier, IsEncodable identifier →
      ((∃ time, (time, canonical identifier) ∈ queryAvailableStreams db) ↔
        query db [(identifier, 0)] ≠ [])) ∧
    ∀ time listed, (time, listed) ∈ queryAvailableStreams db →
      canonical listed = listed ∧ ∃ key, toStreamKey listed = .ok key ∧
        (∃ value, (key, value) ∈ OrderedStore.entries db.streams) ∧
        (∀ start r, r ∈ query db [(listed, start)] ↔ start ≤ r.sequenceNumber ∧
          ∃ value, (putBigEndian64 key r.sequenceNumber, value) ∈ OrderedStore.entries db.packets ∧
            r.receivedAt = (getBigEndian64 value).toInt64 ∧
            r.packet = value.drop packetsValueHeaderLength) ∧
        ∃ before after, history = before ++ after ∧
          SinceLast (fun calls => ∀ value,
            (key, value) ∉ OrderedStore.entries (run P calls : Database CF).streams) before after ∧
          IsGreatest (receiptTimes after listed) time := by
  have hdb : (run P history : Database CF).Sound := Database.sound_run P history
  refine ⟨hdb.wellFormed.nodup_queryAvailableStreams, fun identifier hid => ?_,
    fun time listed hlisted => ?_⟩
  · obtain ⟨k, hk⟩ := Option.ne_none_iff_exists'.1
      (mt StreamKey.ofIdentifier?_eq_none_iff.1 (not_not.2 hid))
    have hcanonical := StreamKey.identifier_of_ofIdentifier? hk
    rw [Database.query_singleton _ hk, hdb.readStream_ne_nil_iff]
    simp only [hdb.wellFormed.mem_queryAvailableStreams]
    constructor
    · rintro ⟨time, k', e, he, -, heq⟩
      obtain rfl := StreamKey.identifier_inj (heq.trans hcanonical.symm)
      exact ⟨e, he⟩
    · rintro ⟨e, he⟩
      exact ⟨_, k, e, he, rfl, hcanonical⟩
  · obtain ⟨k, e, he, rfl, rfl⟩ := (hdb.wellFormed.mem_queryAvailableStreams time listed).1 hlisted
    obtain ⟨hcanonical, hkey⟩ := k.canonical_identifier
    obtain ⟨value, hline, -⟩ := Database.exists_value_of_entry he
    have hk := StreamKey.ofIdentifier?_eq_some_iff.2 hkey
    refine ⟨hcanonical, k.bytes, hkey, ⟨value, hline⟩, fun start r => ?_, ?_⟩
    · rw [Database.query_singleton _ hk, hdb.wellFormed.mem_readStream, putBigEndian64_bytes]
      refine and_congr_right fun _ => Option.map_eq_some_iff.trans (exists_congr fun value => ?_)
      rw [OrderedStore.mem_entries, decodeRecord, Record.mk.injEq]
      exact and_congr_right fun _ => and_congr eq_comm eq_comm
    · simp only [Database.absent_iff]
      exact exists_sinceLast P history he

end RocksDatabase
end UDataPacketBroker
