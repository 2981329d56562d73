/-
# What a process leaves to the next

RocksDB is not part of the repository, and what it leaves in a directory when the process
that has it open ends is a parameter here, `leaves`.  Of it the results use what RocksDB
documents.  Each column family is found as it was after some of the process's calls
(`ColumnFamilyWise`); as each is flushed by itself these need not be the same calls for
both.  And neither is older than the last `Flush` that succeeded (`KeepsFlushed`).  Whether
RocksDB keeps more than that is left open: it may flush a memtable that is full, for a
`CompactRange` or when it is closed, or replay a write-ahead log, which the default options
switch off.

Nothing that is found was made up (`written_of_mem_query`), and what was flushed is found
unless a call since has replaced or purged it (`kept_since_flush`).  But packets and
registry need not agree any more.  Packets whose stream is missing from the registry are
out of the reach of `truncateOldest` (`unlisted_kept`), and the next broker, which counts on
from the registry alone, may give a packet the number of one that is stored
(`restartable_iff`).
-/

import UDataPacketBroker.Library.Moments
import UDataPacketBroker.RocksDatabase.Registry
import UDataPacketBroker.Restart

namespace UDataPacketBroker
namespace RocksDatabase

open Library Utilities

variable {CF : Type} [OrderedStore CF Bytes Bytes]

/-! ### Processes -/

/-- What a process does to the store it has open. -/
inductive DiskEvent where
  | write (writeFails : Bool) (receiptTimeAndData : List (Int64 × Packet))
  | truncateOldest (writeFails : Bool) (nPackets : UInt64)
  /-- `RocksDatabaseImpl::flush`.  That it fails is logged. -/
  | flush (flushFails : Bool)
deriving DecidableEq

/-- The store after an event. -/
def DiskEvent.apply (P : Platform) (db : Database CF) : DiskEvent → Database CF
  | .write writeFails receiptTimeAndData =>
    (RocksDatabase.write P { writeFails := writeFails } db receiptTimeAndData).2
  | .truncateOldest writeFails nPackets => (RocksDatabase.truncateOldest writeFails db nPackets).2
  | .flush _ => db

/-- The call of an event.  To a store that stays open a flush is one that changes nothing. -/
def DiskEvent.call : DiskEvent → Call
  | .write writeFails receiptTimeAndData => .write writeFails receiptTimeAndData
  | .truncateOldest writeFails nPackets => .truncateOldest writeFails nPackets
  | .flush _ => .flushAndReopen

/-- An event is a call. -/
theorem DiskEvent.apply_eq_step (P : Platform) (db : Database CF) (e : DiskEvent) :
    e.apply P db = RocksDatabase.step P db e.call := by cases e <;> rfl

/-- The successful writes are the same. -/
theorem DiskEvent.call_eq_write_iff {e : DiskEvent} {receiptTimeAndData : List (Int64 × Packet)} :
    e.call = .write false receiptTimeAndData ↔ e = .write false receiptTimeAndData := by
  cases e <;> simp [DiskEvent.call]

/-- A process that has the store open: what it found in the directory, and what it did
since. -/
structure RocksDatabaseImpl (CF : Type) where
  opened : Database CF
  events : List DiskEvent := []
  disableWriteAheadLog : Bool := true

namespace RocksDatabaseImpl

/-- The process does one thing more. -/
def step (impl : RocksDatabaseImpl CF) (e : DiskEvent) : RocksDatabaseImpl CF :=
  { impl with events := impl.events ++ [e] }

/-- The store after the first `n` events of the process. -/
def after (P : Platform) (impl : RocksDatabaseImpl CF) (n : ℕ) : Database CF :=
  moment (DiskEvent.apply P) impl.opened impl.events n

/-- What the process reads. -/
def contents (P : Platform) (impl : RocksDatabaseImpl CF) : Database CF :=
  impl.events.foldl (DiskEvent.apply P) impl.opened

/-- The packets as they were after `n` events, with the registry as it was after `n'`. -/
def foundAt (P : Platform) (impl : RocksDatabaseImpl CF) (n n' : ℕ) : Database CF :=
  ⟨(impl.after P n).packets, (impl.after P n').streams⟩

end RocksDatabaseImpl

/-- `RocksDatabaseImpl::open`, of a directory that holds a database. -/
def openDatabase (useWriteAheadLog overWriteIfExists : Bool) (found : Database CF) :
    RocksDatabaseImpl CF where
  opened := if overWriteIfExists then Database.empty else found
  disableWriteAheadLog := !useWriteAheadLog

/-! ### What RocksDB leaves -/

section
variable (P : Platform) (leaves : RocksDatabaseImpl CF → Database CF → Prop)

/-- **Each column family is found as it was at one moment** of the process. -/
def ColumnFamilyWise : Prop :=
  ∀ impl found, leaves impl found → ∃ n n', found = impl.foundAt P n n'

/-- **What was flushed is kept:** the moments are not before a flush that succeeded. -/
def KeepsFlushed : Prop :=
  ∀ impl found, leaves impl found → ∃ n n', found = impl.foundAt P n n' ∧
    ∀ m, impl.events[m]? = some (.flush false) → m < n ∧ m < n'

/-- The processes that have a directory open, one after the other, with what all of them
did.  A process may end at any time, and in any way. -/
inductive Lifetime : List DiskEvent → RocksDatabaseImpl CF → Prop
  | created (useWriteAheadLog overWriteIfExists : Bool) :
      Lifetime [] (openDatabase useWriteAheadLog overWriteIfExists .empty)
  | step {trace : List DiskEvent} {impl : RocksDatabaseImpl CF} (life : Lifetime trace impl)
      (e : DiskEvent) : Lifetime (trace ++ [e]) (impl.step e)
  | reopened {trace : List DiskEvent} {impl : RocksDatabaseImpl CF} {found : Database CF}
      (life : Lifetime trace impl) (left : leaves impl found)
      (useWriteAheadLog overWriteIfExists : Bool) :
      Lifetime trace (openDatabase useWriteAheadLog overWriteIfExists found)

end

variable {P : Platform} {leaves : RocksDatabaseImpl CF → Database CF → Prop}
  {trace : List DiskEvent} {impl : RocksDatabaseImpl CF} {found : Database CF}

/-- Keeping what was flushed is to keep moments. -/
theorem KeepsFlushed.columnFamilyWise (h : KeepsFlushed P leaves) : ColumnFamilyWise P leaves := by
  intro impl found hleft
  obtain ⟨n, n', hfound, -⟩ := h impl found hleft
  exact ⟨n, n', hfound⟩

/-- **Any flushes.**  Of all that keeps what was flushed this leaves the most open. -/
def anyFlushes (P : Platform) (impl : RocksDatabaseImpl CF) (found : Database CF) : Prop :=
  ∃ n n', found = impl.foundAt P n n' ∧
    ∀ m, impl.events[m]? = some (.flush false) → m < n ∧ m < n'

/-- Any flushes keep what was flushed. -/
theorem keepsFlushed_anyFlushes : KeepsFlushed P (anyFlushes P : RocksDatabaseImpl CF → _) :=
  fun _ _ h => h

/-- A process that did not flush may leave any moments. -/
theorem anyFlushes_of_notMem (h : .flush false ∉ impl.events) (n n' : ℕ) :
    anyFlushes P impl (impl.foundAt P n n') :=
  ⟨n, n', rfl, fun _ hflush => absurd (List.mem_of_getElem? hflush) h⟩

/-- A successful write of the trace put the record under the number of the stream. -/
def WroteRecord (P : Platform) (trace : List DiskEvent) (identifier : StreamIdentifier)
    (s : UInt64) (record : Record) : Prop :=
  ∃ receiptTimeAndData receiptTime packet, .write false receiptTimeAndData ∈ trace ∧
    (receiptTime, packet) ∈ receiptTimeAndData ∧ IsEncodable packet.streamIdentifier ∧
    canonical packet.streamIdentifier = identifier ∧ packet.sequenceNumber = s ∧
    record = ⟨receiptTime, P.appendToString packet⟩

/-- **A store of written records.**  Whether its registry agrees with them is not asked:
after a crash it need not. -/
structure Genuine (P : Platform) (trace : List DiskEvent) (db : Database CF) : Prop where
  wellFormed : db.WellFormed
  wrote (k : StreamKey) (s : UInt64) (record : Record) (h : (db.view k).records s = some record) :
    WroteRecord P trace k.identifier s record

/-- What was written stays written. -/
theorem WroteRecord.concat {identifier : StreamIdentifier} {s : UInt64} {record : Record}
    (h : WroteRecord P trace identifier s record) (e : DiskEvent) :
    WroteRecord P (trace ++ [e]) identifier s record := by
  obtain ⟨receiptTimeAndData, receiptTime, packet, hmem, hrest⟩ := h
  exact ⟨receiptTimeAndData, receiptTime, packet, List.mem_append_left _ hmem, hrest⟩

/-- A genuine store is one of any longer trace. -/
theorem Genuine.concat {db : Database CF} (h : Genuine P trace db) (e : DiskEvent) :
    Genuine P (trace ++ [e]) db :=
  ⟨h.wellFormed, fun k s record hrecord => (h.wrote k s record hrecord).concat e⟩

/-- The empty store holds nothing that would have to be written. -/
theorem genuine_empty (P : Platform) (trace : List DiskEvent) :
    Genuine P trace (Database.empty : Database CF) := by
  refine ⟨Database.wellFormed_empty, fun k s record h => ?_⟩
  rw [Database.view_empty] at h
  cases h

/-- **The packets and the registry are checked apart,** so they may be of two stores. -/
theorem Genuine.assemble {db db' : Database CF} (h : Genuine P trace db) (h' : Genuine P trace db') :
    Genuine P trace (⟨db.packets, db'.streams⟩ : Database CF) :=
  ⟨⟨h.wellFormed.packets, h'.wellFormed.streams⟩, h.wrote⟩

/-- **An event keeps a store genuine.** -/
theorem Genuine.apply {db : Database CF} (h : Genuine P trace db) (e : DiskEvent) :
    Genuine P (trace ++ [e]) (e.apply P db) := by
  rw [DiskEvent.apply_eq_step]
  refine ⟨h.wellFormed.step P e.call, fun k s record hrecord => ?_⟩
  rcases h.wellFormed.of_records_step hrecord with
    hbefore | ⟨receiptTimeAndData, receiptTime, packet, hcall, hmem, hk, hs, rfl⟩
  · exact (h.wrote k s record hbefore).concat e
  · obtain ⟨hencodable, hcanonical⟩ := StreamKey.ofIdentifier?_eq_some_iff_canonical.1 hk
    exact ⟨receiptTimeAndData, receiptTime, packet,
      by simp [DiskEvent.call_eq_write_iff.1 hcall], hmem, hencodable, hcanonical, hs, rfl⟩

/-- **Every store a process may come to is genuine,** through any number of crashes. -/
theorem genuine_lifetime (hleaves : ColumnFamilyWise P leaves) (hlife : Lifetime leaves trace impl)
    (n : ℕ) : Genuine P trace (impl.after P n) := by
  induction hlife generalizing n with
  | created useWriteAheadLog overWriteIfExists =>
      cases n <;> cases overWriteIfExists <;> exact genuine_empty P []
  | @step trace impl life e ih =>
      refine moments_concat (fun n => (ih n).concat e) ?_ n
      have hnow := ih impl.events.length
      rw [RocksDatabaseImpl.after, moment_of_length_le _ _ le_rfl] at hnow
      exact hnow.apply e
  | @reopened trace impl found life left useWriteAheadLog overWriteIfExists ih =>
      obtain ⟨m, m', rfl⟩ := hleaves impl found left
      cases n <;> cases overWriteIfExists
      · exact (ih m).assemble (ih m')
      · exact genuine_empty P trace
      · exact (ih m).assemble (ih m')
      · exact genuine_empty P trace

/-- **What a reader is given was written.**  Through any number of restarts and crashes,
with the log or without, and whatever column family was flushed when: each response of
`query` is a packet that a successful write put into the stream under that number, as it
was serialized, with the time it was received. -/
theorem written_of_mem_query (hleaves : ColumnFamilyWise P leaves)
    (hlife : Lifetime leaves trace impl) (request : List (StreamIdentifier × UInt64))
    {response : QueryResponse} (h : response ∈ query (impl.contents P) request) :
    ∃ wanted ∈ request, wanted.2 ≤ response.sequenceNumber ∧
      WroteRecord P trace (canonical wanted.1) response.sequenceNumber
        ⟨response.receivedAt, response.packet⟩ := by
  have hgenuine := genuine_lifetime hleaves hlife impl.events.length
  rw [RocksDatabaseImpl.after, moment_of_length_le _ _ le_rfl] at hgenuine
  rw [query_eq, List.mem_flatten] at h
  obtain ⟨part, hpart, hresponse⟩ := h
  obtain ⟨wanted, hwanted, heq⟩ := List.mem_filterMap.1 hpart
  obtain ⟨k, hk, rfl⟩ := Option.map_eq_some_iff.1 heq
  obtain ⟨hle, hrecord⟩ := (hgenuine.wellFormed.mem_readStream k wanted.2 response).1 hresponse
  refine ⟨wanted, hwanted, hle, ?_⟩
  rw [(StreamKey.ofIdentifier?_eq_some_iff_canonical.1 hk).2]
  exact hgenuine.wrote k _ _ hrecord

/-- The process dies when RocksDB has flushed a packet and not its registry entry.  The
packet that is found is the one that was written. -/
theorem written_of_mem_query_samplePacket :
    ∃ impl : RocksDatabaseImpl (SortedTable Bytes Bytes),
      Lifetime (anyFlushes .protobuf) [.write false [(5, samplePacket 1)]] impl ∧
      getGlobalSequenceNumber (impl.contents .protobuf) = 0 ∧
      WroteRecord .protobuf [.write false [(5, samplePacket 1)]]
        (canonical (samplePacket 1).streamIdentifier) 1
        ⟨5, Wire.serializePacket (samplePacket 1)⟩ := by
  have hwritten := (@Lifetime.created (SortedTable Bytes Bytes) _ (anyFlushes .protobuf) false
    false).step (.write false [(5, samplePacket 1)])
  have hlife := hwritten.reopened (anyFlushes_of_notMem (by decide) 1 0) false false
  obtain ⟨wanted, hwanted, -, hwrote⟩ := @written_of_mem_query _ _ _ _ _ _
    keepsFlushed_anyFlushes.columnFamilyWise hlife [((samplePacket 1).streamIdentifier, 0)]
    ⟨Wire.serializePacket (samplePacket 1), 5, 1⟩ (by decide +kernel)
  rw [List.mem_singleton.1 hwanted] at hwrote
  exact ⟨_, hlife, by decide +kernel, hwrote⟩

/-! ### What was flushed is kept -/

/-- A successful write that puts a packet into the stream. -/
def WritesTo (identifier : StreamIdentifier) : DiskEvent → Prop
  | .write false receiptTimeAndData => ∃ entry ∈ receiptTimeAndData,
    IsEncodable entry.2.streamIdentifier ∧
      canonical entry.2.streamIdentifier = canonical identifier
  | _ => False

/-- **An event leaves a stream without registry entry alone,** except a write to it. -/
theorem view_apply_of_unlisted {db : Database CF} (hdb : db.WellFormed)
    {identifier : StreamIdentifier} {k : StreamKey}
    (hk : StreamKey.ofIdentifier? identifier = some k) (hentry : (db.view k).entry = none)
    {e : DiskEvent} (h : ¬WritesTo identifier e) : (e.apply P db).view k = db.view k := by
  cases e with
  | write writeFails receiptTimeAndData =>
      rw [DiskEvent.apply]
      cases writeFails with
      | true => rw [Database.write_snd, if_pos rfl]
      | false =>
          have hnone : updatesAt (items P receiptTimeAndData) k = [] := by
            refine List.eq_nil_iff_forall_not_mem.2 fun i hi => h ?_
            obtain ⟨receiptTime, packet, hmem, hpacket, -⟩ := mem_updatesAt_items.1 hi
            exact ⟨(receiptTime, packet), hmem,
              (StreamKey.ofIdentifier?_eq_some_iff_canonical.1 hpacket).1,
              (StreamKey.ofIdentifier?_eq_iff hk).1 hpacket⟩
          rw [hdb.view_write, hnone, List.foldl_nil]
  | truncateOldest writeFails nPackets =>
      rw [DiskEvent.apply]
      cases writeFails with
      | true => rw [Database.truncateOldest_snd, if_pos rfl]
      | false => rw [hdb.view_truncateOldest, StreamView.truncate, hentry, StreamView.purge_none]
  | flush flushFails => rfl

/-- A stream is not listed when it has no registry entry. -/
theorem unlisted_iff {db : Database CF} (hdb : db.WellFormed) (identifier : StreamIdentifier) :
    canonical identifier ∉ (queryAvailableStreams db).map Prod.snd ↔
      ∀ k, StreamKey.ofIdentifier? identifier = some k → (db.view k).entry = none := by
  rw [List.mem_map, not_exists]
  constructor
  · intro hunlisted k hk
    rw [(StreamKey.ofIdentifier?_eq_some_iff_canonical.1 hk).2] at hunlisted
    cases hentry : (db.view k).entry with
    | none => rfl
    | some e =>
        have hlisted := (hdb.mem_queryAvailableStreams e.lastReceivedNanoSeconds k.identifier).2
          ⟨k, e, hentry, rfl, rfl⟩
        exact absurd ⟨hlisted, rfl⟩ (hunlisted (e.lastReceivedNanoSeconds, k.identifier))
  · rintro hnone ⟨time, _⟩ ⟨hmem, rfl⟩
    obtain ⟨k, e, hentry, -, hk⟩ := (hdb.mem_queryAvailableStreams time _).1 hmem
    have hencodable : IsEncodable identifier := by
      rw [← encodable_canonical_iff, ← hk]
      exact (toStreamKey_eq_ok_iff.1 k.canonical_identifier.2).1
    rw [hnone k (StreamKey.ofIdentifier?_eq_some_iff_canonical.2 ⟨hencodable, hk.symm⟩)] at hentry
    cases hentry

/-- **Packets without a registry entry are out of reach.**  A crash may leave the packets of
a stream that is not listed.  Whatever the process does from a moment on, as long as it
writes nothing to the stream, `query` goes on answering these packets and the stream stays
unlisted, however much `truncateOldest` is asked to purge. -/
theorem unlisted_kept (hleaves : ColumnFamilyWise P leaves) (hlife : Lifetime leaves trace impl)
    {identifier : StreamIdentifier} {m : ℕ}
    (hunlisted : canonical identifier ∉ (queryAvailableStreams (impl.after P m)).map Prod.snd)
    (hnone : ∀ n e, m ≤ n → impl.events[n]? = some e → ¬WritesTo identifier e) (n : ℕ)
    (h : m ≤ n) (start : UInt64) :
    query (impl.after P n) [(identifier, start)] = query (impl.after P m) [(identifier, start)] ∧
      canonical identifier ∉ (queryAvailableStreams (impl.after P n)).map Prod.snd := by
  have hwellFormed (n : ℕ) := (genuine_lifetime hleaves hlife n).wellFormed
  rw [unlisted_iff (hwellFormed _)] at hunlisted ⊢
  have hview (k : StreamKey) (hk : StreamKey.ofIdentifier? identifier = some k) :
      (impl.after P n).view k = (impl.after P m).view k := by
    induction h with
    | refl => rfl
    | @step n hn ih =>
        rw [RocksDatabaseImpl.after, moment_succ]
        cases he : impl.events[n]? with
        | none => exact ih
        | some e =>
            refine (view_apply_of_unlisted (hwellFormed n) hk ?_ (hnone n e hn he)).trans ih
            rw [ih, hunlisted k hk]
  refine ⟨?_, fun k hk => (hview k hk).symm ▸ hunlisted k hk⟩
  cases hk : StreamKey.ofIdentifier? identifier with
  | none => simp [query_eq, hk]
  | some k =>
      rw [Database.query_singleton _ hk, Database.query_singleton _ hk]
      exact (hwellFormed n).readStream_congr (hwellFormed m) (by rw [hview k hk]) start

/-- RocksDB has flushed a packet and not its registry entry when the process dies.  The next
process is asked to purge a thousand packets, and the packet is still there. -/
theorem unlisted_kept_samplePacket :
    ∃ impl : RocksDatabaseImpl (SortedTable Bytes Bytes),
      Lifetime (anyFlushes .protobuf)
        [.write false [(5, samplePacket 1)], .truncateOldest false 1000] impl ∧
      impl.events = [.truncateOldest false 1000] ∧
      query (impl.after .protobuf 1) [((samplePacket 1).streamIdentifier, 0)] =
        [⟨Wire.serializePacket (samplePacket 1), 5, 1⟩] := by
  have hwritten := (@Lifetime.created (SortedTable Bytes Bytes) _ (anyFlushes .protobuf) false
    false).step (.write false [(5, samplePacket 1)])
  have hlife := (hwritten.reopened (anyFlushes_of_notMem (by decide) 1 0) false false).step
    (.truncateOldest false 1000)
  refine ⟨_, hlife, rfl, ?_⟩
  have hkept := unlisted_kept keepsFlushed_anyFlushes.columnFamilyWise hlife (m := 0)
    (show canonical (samplePacket 1).streamIdentifier ∉ _ by decide +kernel)
    (fun n e _ he hwrites => ?_) 1 (Nat.zero_le 1) 0
  · exact hkept.1.trans (by decide +kernel)
  · cases n with
    | zero =>
        cases he
        exact hwrites
    | succ n => cases he

/-! ### The next broker -/

/-- A broker that starts on the store gives no packet the number of one that is stored. -/
def Restartable (db : Database CF) : Prop := NeverReuses db {s | db.Stores s}

/-- The batches that were written. -/
def batches (events : List DiskEvent) : List (List (Int64 × Packet)) :=
  events.filterMap fun e => match e with
    | .write false receiptTimeAndData => some receiptTimeAndData
    | _ => none

/-- A batch is one of a successful write. -/
theorem mem_batches_iff {events : List DiskEvent} {batch : List (Int64 × Packet)} :
    batch ∈ batches events ↔ .write false batch ∈ events := by
  rw [batches, List.mem_filterMap]
  constructor
  · rintro ⟨e, he, heq⟩
    split at heq
    · cases heq
      exact he
    · cases heq
  · exact fun he => ⟨_, he, rfl⟩

/-- The batches of a run and of what follows it. -/
theorem batches_append (events events' : List DiskEvent) :
    batches (events ++ events') = batches events ++ batches events' := List.filterMap_append

/-- The numbers of the packets of a batch that are stored. -/
def numbersOf (receiptTimeAndData : List (Int64 × Packet)) : Set UInt64 :=
  writtenNumbers [.write false receiptTimeAndData]

/-- What an event writes. -/
theorem mem_writtenNumbers_call_iff {e : DiskEvent} {s : UInt64} :
    s ∈ writtenNumbers [e.call] ↔ ∃ batch ∈ batches [e], s ∈ numbersOf batch := by
  constructor
  · rintro ⟨batch, t, packet, hcall, hrest⟩
    obtain rfl := DiskEvent.call_eq_write_iff.1 (List.mem_singleton.1 hcall).symm
    exact ⟨batch, List.mem_cons_self, batch, t, packet, List.mem_cons_self, hrest⟩
  · rintro ⟨batch, hbatch, hs⟩
    obtain rfl := List.mem_singleton.1 (mem_batches_iff.1 hbatch)
    exact hs

/-- An event keeps a store sound. -/
theorem sound_apply {db : Database CF} (hdb : db.Sound) (e : DiskEvent) : (e.apply P db).Sound := by
  rw [DiskEvent.apply_eq_step]
  exact hdb.step P e.call

/-- So does a run of events. -/
theorem sound_foldl_apply {db : Database CF} (hdb : db.Sound) (events : List DiskEvent) :
    (events.foldl (DiskEvent.apply P) db).Sound :=
  List.foldlRecOn events _ hdb fun _ h e _ => sound_apply h e

/-- What is stored was stored before, or written since. -/
theorem stores_foldl_apply {db : Database CF} (hdb : db.Sound) (events : List DiskEvent)
    {s : UInt64} (h : (events.foldl (DiskEvent.apply P) db).Stores s) :
    db.Stores s ∨ ∃ batch ∈ batches events, s ∈ numbersOf batch := by
  induction events generalizing db with
  | nil => exact Or.inl h
  | cons e events ih =>
      rw [← List.singleton_append, batches_append]
      rcases ih (sound_apply hdb e) h with hstored | ⟨batch, hmem, hs⟩
      · rw [DiskEvent.apply_eq_step] at hstored
        refine (stores_step hdb P hstored).imp_right fun hwritten => ?_
        obtain ⟨batch, hmem, hs⟩ := mem_writtenNumbers_call_iff.1 hwritten
        exact ⟨batch, List.mem_append_left _ hmem, hs⟩
      · exact Or.inr ⟨batch, List.mem_append_right _ hmem, hs⟩

/-- **An event resets the greatest number or lets it grow,** if what it writes is past what
was stored. -/
theorem eq_zero_or_le_apply {db : Database CF} (hdb : db.Sound) (e : DiskEvent) {s : UInt64}
    (h : getGlobalSequenceNumber db = 0 ∨ s ≤ getGlobalSequenceNumber db)
    (hpast : ∀ t ∈ writtenNumbers [e.call], s < t) :
    getGlobalSequenceNumber (e.apply P db) = 0 ∨ s ≤ getGlobalSequenceNumber (e.apply P db) := by
  have hsound : (e.apply P db).Sound := sound_apply hdb e
  rw [DiskEvent.apply_eq_step] at hsound ⊢
  by_cases hwritten : ∃ t, t ∈ writtenNumbers [e.call]
  · obtain ⟨t, batch, time, packet, hcall, hrest⟩ := hwritten
    have hlt := hpast t ⟨batch, time, packet, hcall, hrest⟩
    rw [← List.mem_singleton.1 hcall] at hsound ⊢
    have hstored := (hdb.stores_write_iff P batch t).2
      (Or.inr ⟨batch, time, packet, List.mem_cons_self, hrest⟩)
    exact Or.inr (hlt.le.trans (hsound.le_getGlobalSequenceNumber hstored))
  · rcases h with hzero | hle
    · -- nothing new is stored, so the greatest number stays 0
      by_contra hne
      have hstored := stores_step hdb P (hsound.stores_getGlobalSequenceNumber (not_or.1 hne).1)
      have hbound := hdb.le_getGlobalSequenceNumber (hstored.resolve_right fun h => hwritten ⟨_, h⟩)
      rw [hzero] at hbound
      exact (not_or.1 hne).1 (le_antisymm hbound (zero_le_uint64 _))
    · by_cases hpurges : ∃ nPackets, e.call = .truncateOldest false nPackets ∧ PurgesAll db nPackets
      · obtain ⟨nPackets, hcall, hall⟩ := hpurges
        rw [hcall]
        exact Or.inl (hdb.getGlobalSequenceNumber_of_purgesAll P hall)
      · exact Or.inr (hle.trans (hdb.getGlobalSequenceNumber_step_le P
          fun nPackets hcall hall => hpurges ⟨nPackets, hcall, hall⟩))

/-- So does a run of events. -/
theorem eq_zero_or_le_foldl_apply {db : Database CF} (hdb : db.Sound) (events : List DiskEvent)
    {s : UInt64} (hs : s ≤ getGlobalSequenceNumber db)
    (hpast : ∀ batch ∈ batches events, ∀ t ∈ numbersOf batch, s < t) :
    getGlobalSequenceNumber (events.foldl (DiskEvent.apply P) db) = 0 ∨
      s ≤ getGlobalSequenceNumber (events.foldl (DiskEvent.apply P) db) := by
  induction events using List.reverseRecOn with
  | nil => exact Or.inr hs
  | append_singleton events e ih =>
      rw [batches_append] at hpast
      rw [List.foldl_concat]
      refine eq_zero_or_le_apply (sound_foldl_apply hdb events) e
        (ih fun batch hmem => hpast batch (List.mem_append_left _ hmem)) fun t ht => ?_
      obtain ⟨batch, hmem, ht⟩ := mem_writtenNumbers_call_iff.1 ht
      exact hpast batch (List.mem_append_right _ hmem) t ht

/-- **When a broker can start on what a crash left.**  A process that opened a sound store
wrote batches, each numbered past everything before it, and truncated at will, and then
died.  The packets are found as they were after `n` of its events, the registry as it was
after `n'`.  A broker can count on from there exactly when the greatest number was 0 at the
one moment, or it was not at the other and no batch that is in the packets but not in the
registry stored anything. -/
theorem restartable_iff (hopened : impl.opened.Sound)
    (hpast : ∀ batch ∈ batches impl.events, ∀ s ∈ numbersOf batch,
      getGlobalSequenceNumber impl.opened < s)
    (hascending : (batches impl.events).Pairwise fun batch batch' =>
      ∀ s ∈ numbersOf batch, ∀ s' ∈ numbersOf batch', s < s') (n n' : ℕ) :
    Restartable (impl.foundAt P n n') ↔
      getGlobalSequenceNumber (impl.after P n) = 0 ∨
        getGlobalSequenceNumber (impl.after P n') ≠ 0 ∧
          ∀ batch ∈ batches ((impl.events.take n).drop n'), numbersOf batch = ∅ := by
  have hsound (m : ℕ) : (impl.after P m).Sound := sound_foldl_apply hopened _
  have hmoment {m l : ℕ} (h : m ≤ l) :
      impl.after P l = ((impl.events.take l).drop m).foldl (DiskEvent.apply P) (impl.after P m) :=
    moment_of_le _ _ _ h
  -- what is stored at a moment is below what is written after it
  have hlater {m : ℕ} {s : UInt64} (hs : (impl.after P m).Stores s) (l : ℕ) :
      ∀ batch ∈ batches ((impl.events.take l).drop m), ∀ t ∈ numbersOf batch, s < t := by
    intro batch hbatch t ht
    have hdrop : batch ∈ batches (impl.events.drop m) := by
      rw [List.drop_take] at hbatch
      exact ((List.take_sublist _ _).filterMap _).subset hbatch
    rw [← List.take_append_drop m impl.events, batches_append] at hpast hascending
    rcases stores_foldl_apply hopened _ hs with hold | ⟨batch', hbatch', hs⟩
    · exact (hopened.le_getGlobalSequenceNumber hold).trans_lt
        (hpast batch (List.mem_append_right _ hdrop) t ht)
    · exact (List.pairwise_append.1 hascending).2.2 batch' hbatch' batch hdrop s hs t ht
  have hgrows {m l : ℕ} (h : m ≤ l) {s : UInt64} (hs : (impl.after P m).Stores s) :
      getGlobalSequenceNumber (impl.after P l) = 0 ∨ s ≤ getGlobalSequenceNumber (impl.after P l) := by
    rw [hmoment h]
    exact eq_zero_or_le_foldl_apply (hsound m) _ ((hsound m).le_getGlobalSequenceNumber hs)
      (hlater hs l)
  constructor
  · rintro ⟨hle, -⟩
    refine or_iff_not_imp_left.2 fun hne => ?_
    have hbound : getGlobalSequenceNumber (impl.after P n) ≤
        getGlobalSequenceNumber (impl.after P n') :=
      hle _ ((hsound n).stores_getGlobalSequenceNumber hne)
    have hne' : getGlobalSequenceNumber (impl.after P n') ≠ 0 := fun hzero =>
      hne (le_antisymm (hbound.trans hzero.le) (zero_le_uint64 _))
    refine ⟨hne', fun batch hbatch => Set.eq_empty_of_forall_notMem fun t ht => ?_⟩
    have hlt := hlater ((hsound n').stores_getGlobalSequenceNumber hne') n batch hbatch t ht
    -- the batch was written between the two moments, so the packets are past the registry
    obtain ⟨i, hi, hevent⟩ : ∃ i < n, impl.events[i]? = some (.write false batch) := by
      obtain ⟨i, hi, hevent⟩ :=
        List.mem_take_iff_getElem.1 (List.mem_of_mem_drop (mem_batches_iff.1 hbatch))
      exact ⟨i, (lt_min_iff.1 hi).1, List.getElem?_eq_some_iff.2 ⟨(lt_min_iff.1 hi).2, hevent⟩⟩
    have hstored : (impl.after P (i + 1)).Stores t := by
      rw [RocksDatabaseImpl.after, moment_succ, hevent]
      exact ((hsound i).stores_write_iff P batch t).2 (Or.inr ht)
    exact absurd (hlt.trans_le ((hgrows hi hstored).resolve_left hne)) (not_lt.2 hbound)
  · intro h
    refine neverReuses_of_le fun s hs => ?_
    have hs : (impl.after P n).Stores s := hs
    show s ≤ getGlobalSequenceNumber (impl.after P n')
    rcases h with hzero | ⟨hne, hnone⟩
    · exact ((hsound n).le_getGlobalSequenceNumber hs).trans (hzero.le.trans (zero_le_uint64 _))
    · rcases le_total n n' with hle | hle
      · exact (hgrows hle hs).resolve_left hne
      · rw [hmoment hle] at hs
        rcases stores_foldl_apply (hsound n') _ hs with hs | ⟨batch, hbatch, hs⟩
        · exact (hsound n').le_getGlobalSequenceNumber hs
        · rw [hnone batch hbatch] at hs
          exact absurd hs (Set.notMem_empty s)

/-- Two packets are written, and the first is found.  With the registry of before it a broker
gives its number again; with the registry of after both it does not. -/
theorem restartable_iff_samplePacket :
    ∃ impl : RocksDatabaseImpl (SortedTable Bytes Bytes),
      Lifetime (anyFlushes .protobuf)
        [.write false [(5, samplePacket 1)], .write false [(6, samplePacket 2)]] impl ∧
      ¬Restartable (impl.foundAt .protobuf 1 0) ∧ Restartable (impl.foundAt .protobuf 1 2) := by
  have hlife := ((@Lifetime.created (SortedTable Bytes Bytes) _ (anyFlushes .protobuf) false
    false).step (.write false [(5, samplePacket 1)])).step (.write false [(6, samplePacket 2)])
  have hnumbers {t : Int64} {i s : UInt64} (hs : s ∈ numbersOf [(t, samplePacket i)]) : s = i := by
    obtain ⟨batch, t', packet, hcall, hmem, -, rfl⟩ := hs
    obtain rfl : batch = [(t, samplePacket i)] := by simpa using hcall
    rw [(Prod.mk.inj (List.mem_singleton.1 hmem)).2]
    rfl
  have hiff (impl : RocksDatabaseImpl (SortedTable Bytes Bytes)) (hopened : impl.opened = .empty)
      (hevents : impl.events =
        [.write false [(5, samplePacket 1)], .write false [(6, samplePacket 2)]]) :=
    @restartable_iff _ _ .protobuf impl (hopened ▸ Database.sound_empty)
      (by
        intro batch hbatch s hs
        rw [hevents] at hbatch
        rcases List.mem_cons.1 hbatch with rfl | hbatch
        · rw [hopened, hnumbers hs]
          decide +kernel
        · rw [List.mem_singleton.1 hbatch] at hs
          rw [hopened, hnumbers hs]
          decide +kernel)
      (by
        rw [hevents]
        refine List.pairwise_pair.2 fun s hs s' hs' => ?_
        rw [hnumbers hs, hnumbers hs']
        decide)
  refine ⟨_, hlife, fun h => ?_, ((hiff _ rfl rfl) 1 2).2 (Or.inr ⟨by decide +kernel, ?_⟩)⟩
  · rcases ((hiff _ rfl rfl) 1 0).1 h with hzero | ⟨hne, -⟩
    · exact absurd hzero (by decide +kernel)
    · exact hne (by decide +kernel)
  · exact fun batch hbatch => absurd hbatch List.not_mem_nil

end RocksDatabase
end UDataPacketBroker
