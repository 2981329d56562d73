/-
# The store refines a packet log

What the store is for: a log of packets by stream and sequence number, from
which truncations cut off the low numbers of all streams at once.  A run of
calls determines such a log (`log`), in terms of identifiers, numbers and times
only: no keys, no registry values, no batches.  The store holds what the log
holds (`holds_run`), and so `query` answers from it (`query_refines_log`).
-/

import UDataPacketBroker.Library.TruncatedLog
import UDataPacketBroker.RocksDatabase.Calls

namespace UDataPacketBroker
namespace RocksDatabase

open Library Utilities

/-! ### The log of a run -/

/-- Streams are canonical identifiers. -/
abbrev PacketEvent := LogEvent StreamIdentifier Record

/-- What a batch writes: its packets in order, without those that cannot be encoded. -/
def batchEvents (P : Platform) (receiptTimeAndData : List (Int64 × Packet)) : List PacketEvent :=
  receiptTimeAndData.filterMap fun (receiptTime, packet) =>
    if IsEncodable packet.streamIdentifier then
      some (.wrote (canonical packet.streamIdentifier) packet.sequenceNumber.toNat
        ⟨receiptTime, P.appendToString packet⟩)
    else none

variable {CF : Type} [OrderedStore CF Bytes Bytes]

/-- What a call does to the log.  A truncation cuts at
`min (globalMin + n) (globalMax + 1)` of the registry it finds. -/
def callEvents (P : Platform) (db : Database CF) : Call → List PacketEvent
  | .write writeFails receiptTimeAndData =>
    if writeFails then [] else batchEvents P receiptTimeAndData
  | .truncateOldest writeFails nPackets =>
    if writeFails ∨ (snapshotRegistry db).entries = [] then []
    else [.cut ((snapshotRegistry db).purgeBound nPackets)]
  | .flushAndReopen => []

/-- The log of a run that starts from `db`. -/
def logFrom (P : Platform) (db : Database CF) : List Call → List PacketEvent
  | [] => []
  | call :: history => callEvents P db call ++ logFrom P (step P db call) history

/-- One more call, and the events it logs. -/
theorem logFrom_concat (P : Platform) (db : Database CF) (history : List Call) (call : Call) :
    logFrom P db (history ++ [call]) =
      logFrom P db history ++ callEvents P (history.foldl (step P) db) call := by
  induction history generalizing db with
  | nil => simp [logFrom]
  | cons c history ih => simp [logFrom, ih]

/-! ### The refinement -/

/-- The store and a log hold the same records. -/
def Holds (db : Database CF) (held : StreamIdentifier → ℕ → Option Record) : Prop :=
  ∀ (k : StreamKey) (s : UInt64), (db.view k).records s = held k.identifier s.toNat

/-- A batch writes its items, as `write` collects them. -/
theorem batchEvents_eq (P : Platform) (receiptTimeAndData : List (Int64 × Packet)) :
    batchEvents P receiptTimeAndData = (items P receiptTimeAndData).map fun e =>
      .wrote e.1.identifier e.2.1.toNat e.2.2 := by
  rw [batchEvents, items, List.map_filterMap]
  refine List.filterMap_congr fun e _ => ?_
  obtain ⟨receiptTime, packet⟩ := e
  dsimp only
  cases hk : StreamKey.ofIdentifier? packet.streamIdentifier with
  | none =>
      rw [if_neg (StreamKey.ofIdentifier?_eq_none_iff.1 hk)]
      simp [item, hk]
  | some k =>
      obtain ⟨hencodable, hcanonical⟩ := StreamKey.ofIdentifier?_eq_some_iff_canonical.1 hk
      rw [if_pos hencodable]
      simp [item, hk, hcanonical]

/-- Appending items to the streams is logging them. -/
theorem foldl_append_eq_foldl_apply (l : List (StreamKey × (UInt64 × Record)))
    (views : StreamKey → StreamView) (held : StreamIdentifier → ℕ → Option Record)
    (h : ∀ k s, (views k).records s = held k.identifier s.toNat) (k : StreamKey) (s : UInt64) :
    ((updatesAt l k).foldl StreamView.append (views k)).records s =
      (l.map fun e => LogEvent.wrote e.1.identifier e.2.1.toNat e.2.2).foldl LogEvent.apply held
        k.identifier s.toNat := by
  induction l generalizing views held with
  | nil => exact h k s
  | cons e l ih =>
      rw [← foldl_update_apply, List.foldl_cons, foldl_update_apply, List.map_cons, List.foldl_cons]
      refine ih _ _ fun k' s' => ?_
      obtain ⟨k₁, s₁, r⟩ := e
      by_cases hk : k' = k₁
      · subst hk
        rw [Function.update_self, StreamView.records_append, LogEvent.apply, Function.update_self]
        by_cases hs : s' = s₁
        · subst hs
          rw [Function.update_self, Function.update_self]
        · have hs' : s'.toNat ≠ s₁.toNat := fun heq => hs (UInt64.toNat_inj.1 heq)
          rw [Function.update_of_ne hs, Function.update_of_ne hs', h]
      · have hid : k'.identifier ≠ k₁.identifier := fun heq => hk (StreamKey.identifier_inj heq)
        rw [Function.update_of_ne hk, LogEvent.apply, Function.update_of_ne hid, h]

/-- **One call keeps the store and the log together.** -/
theorem Holds.step {db : Database CF} {held : StreamIdentifier → ℕ → Option Record}
    (h : Holds db held) (hdb : db.Sound) (P : Platform) {call : Call}
    (hwrap : ∀ nPackets, call = .truncateOldest false nPackets →
      (snapshotRegistry db).entries ≠ [] → (snapshotRegistry db).NoWrap nPackets) :
    Holds (RocksDatabase.step P db call) ((callEvents P db call).foldl LogEvent.apply held) := by
  intro k s
  cases call with
  | write writeFails receiptTimeAndData =>
      cases writeFails with
      | true =>
          rw [RocksDatabase.step, Database.write_snd, if_pos rfl]
          exact h k s
      | false =>
          rw [RocksDatabase.step, hdb.wellFormed.view_write, callEvents, if_neg Bool.false_ne_true,
            batchEvents_eq]
          exact foldl_append_eq_foldl_apply _ _ held h k s
  | truncateOldest writeFails nPackets =>
      rw [RocksDatabase.step, Database.truncateOldest_snd, callEvents]
      cases writeFails with
      | true => exact h k s
      | false =>
          rw [if_neg Bool.false_ne_true,
            hdb.wellFormed.records_truncateOldest hdb.valid (hwrap nPackets rfl)]
          by_cases hempty : (snapshotRegistry db).entries = []
          · -- nothing is registered, so nothing is stored that could be cut
            have hnone := hdb.wellFormed.snapshotRegistry_entries_eq_nil_iff.1 hempty k
            have hrecord := (hdb.valid k).records_of_entry_none hnone s
            rw [if_pos (Or.inr hempty), hrecord, ite_self]
            exact hrecord.symm.trans (h k s)
          · have hguard : ¬ (false = true ∨ (snapshotRegistry db).entries = []) := by
              simpa using hempty
            rw [if_neg hguard, h]
            rfl
  | flushAndReopen => exact h k s

/-- **Over a run, the store holds what the log of the run holds.** -/
theorem holds_run (P : Platform) (history : List Call)
    (hwrap : ∀ before nPackets after, history = before ++ .truncateOldest false nPackets :: after →
      (snapshotRegistry (run P before : Database CF)).entries ≠ [] →
      (snapshotRegistry (run P before : Database CF)).NoWrap nPackets) :
    Holds (run P history : Database CF)
      (LogEvent.contents (logFrom P (Database.empty : Database CF) history)) := by
  induction history using List.reverseRecOn with
  | nil =>
      intro k s
      rw [run_nil, Database.view_empty]
      rfl
  | append_singleton history call ih =>
      have hsound : (run P history : Database CF).Sound := Database.sound_run P history
      have hheld := ih fun before nPackets after h =>
        hwrap before nPackets (after ++ [call]) (by rw [h]; simp)
      rw [run_concat, logFrom_concat, LogEvent.contents, List.foldl_append]
      refine hheld.step hsound P fun nPackets hcall => ?_
      exact hwrap history nPackets [] (by rw [hcall])

/-- **The store refines a packet log.**  Over every run whose cutoffs do not
wrap, `query` answers one encodable identifier after another; its answer for an
identifier is strictly increasing in the sequence number, and consists of the
records of the canonical stream from the start on that were written there last
and not cut off since. -/
theorem query_refines_log (P : Platform) (history : List Call)
    (hwrap : ∀ before nPackets after, history = before ++ .truncateOldest false nPackets :: after →
      (snapshotRegistry (run P before : Database CF)).entries ≠ [] →
      (snapshotRegistry (run P before : Database CF)).NoWrap nPackets)
    (request : List (StreamIdentifier × UInt64)) :
    ∃ parts : List (List QueryResponse),
      query (run P history : Database CF) request = parts.flatten ∧
      List.Forall₂ (fun part (wanted : StreamIdentifier × UInt64) =>
          part.Pairwise (fun r r' => r.sequenceNumber < r'.sequenceNumber) ∧
          ∀ r, r ∈ part ↔ wanted.2 ≤ r.sequenceNumber ∧
            LogEvent.Stands (logFrom P (Database.empty : Database CF) history)
              (canonical wanted.1) r.sequenceNumber.toNat ⟨r.receivedAt, r.packet⟩)
        parts (request.filter fun wanted => IsEncodable wanted.1) := by
  have hsound : (run P history : Database CF).Sound := Database.sound_run P history
  have hheld := holds_run P history hwrap
  refine ⟨_, query_eq _ request, ?_⟩
  induction request with
  | nil => exact List.Forall₂.nil
  | cons wanted request ih =>
      cases hk : StreamKey.ofIdentifier? wanted.1 with
      | none =>
          have hskip := StreamKey.ofIdentifier?_eq_none_iff.1 hk
          rw [List.filterMap_cons_none (by rw [hk]; rfl),
            List.filter_cons_of_neg (by simpa using hskip)]
          exact ih
      | some k =>
          obtain ⟨hencodable, hcanonical⟩ := StreamKey.ofIdentifier?_eq_some_iff_canonical.1 hk
          rw [List.filterMap_cons_some (by rw [hk]; rfl),
            List.filter_cons_of_pos (by simpa using hencodable)]
          refine List.Forall₂.cons ⟨hsound.wellFormed.readStream_sorted k wanted.2, fun r => ?_⟩ ih
          rw [hsound.wellFormed.mem_readStream, hheld, LogEvent.contents_eq_some_iff, hcanonical]

/-- Two packets, and a truncation of one: the second remains. -/
theorem query_refines_log_samplePacket :
    ∃ parts : List (List QueryResponse),
      query (run .protobuf [.write false [(5, samplePacket 1), (9, samplePacket 2)],
        .truncateOldest false 1] : Database (SortedTable Bytes Bytes))
        [((samplePacket 1).streamIdentifier, 0)] = parts.flatten ∧
      parts.flatten = [⟨Wire.serializePacket (samplePacket 2), 9, 2⟩] := by
  obtain ⟨parts, hparts, -⟩ := @query_refines_log (SortedTable Bytes Bytes) _ .protobuf
    [.write false [(5, samplePacket 1), (9, samplePacket 2)], .truncateOldest false 1]
    (by
      intro before nPackets after h hne
      rcases before with _ | ⟨c₁, _ | ⟨c₂, before⟩⟩
      · simp at h
      · simp only [List.cons_append, List.nil_append, List.cons.injEq, Call.truncateOldest.injEq,
          true_and] at h
        obtain ⟨rfl, rfl, rfl⟩ := h
        decide +kernel
      · simp at h)
    [((samplePacket 1).streamIdentifier, 0)]
  exact ⟨parts, hparts, hparts.symm.trans (by decide +kernel)⟩

end RocksDatabase
end UDataPacketBroker
