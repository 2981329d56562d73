/-
# Accepted packets and stored packets

Two validators decide about a packet, at two ends of the pipeline.  `isValid`
decides in `addPacketCallback` whether the publisher is told that its packet was
processed; it asks which fields are set.  `toPacketKey` decides in `write` whether
the packet can be stored; it asks what is in them.  A packet that passes the first
and not the second is numbered and never stored, and leaves a gap in the numbers
that `truncateOldest` takes to be dense.
-/

import UDataPacketBroker.Broker.Accounting
import UDataPacketBroker.RocksDatabase.Contents

namespace UDataPacketBroker
namespace Broker

open Library Utilities RocksDatabase

variable (CF : Type) [OrderedStore CF Bytes Bytes]

/-- **A packet the store takes,** whatever number it gets: it has a key, and no
successful write of a batch that contains it hands it back. -/
def Storable (P : Platform) (packet : Packet) : Prop :=
  (∀ s, (toPacketKey packet.streamIdentifier s).toBool = true) ∧
    ∀ (readFails : Bytes → Bool) (db : Database CF) (receiptTimeAndData : List (Int64 × Packet))
      (receiptTime : Int64) (s : UInt64),
      (receiptTime, packet.setSequenceNumber s) ∈ receiptTimeAndData →
        packet.setSequenceNumber s ∉
          (write P { readFails := readFails } db receiptTimeAndData).1

/-- A packet has a key exactly when its identifier can be encoded. -/
theorem toBool_toPacketKey (identifier : StreamIdentifier) (s : UInt64) :
    (toPacketKey identifier s).toBool = true ↔ IsEncodable identifier := by
  constructor
  · intro h
    cases hkey : toPacketKey identifier s with
    | error reason => simp [hkey, Except.toBool] at h
    | ok key =>
        obtain ⟨streamKey, hstreamKey, -⟩ := toPacketKey_eq_ok_iff.1 hkey
        exact (toStreamKey_eq_ok_iff.1 hstreamKey).1
  · intro h
    rw [toPacketKey_of_encodable h]
    rfl

/-- **When a packet that was accepted can be stored:** each code that is written
into its key has one to eight bytes and none of them is null. -/
theorem accepted_storable_iff (P : Platform) {packet : Packet} (hvalid : isValid packet = .ok true) :
    (∀ metrics, (receivePacket metrics packet).2 = .ok ()) ∧
      (Storable CF P packet ↔ IsEncodable packet.streamIdentifier) := by
  refine ⟨fun metrics => ?_, ⟨fun h => ?_, fun h => ⟨fun s => ?_, ?_⟩⟩⟩
  · rw [receivePacket, hvalid]
  · exact (toBool_toPacketKey packet.streamIdentifier 0).1 (h.1 0)
  · exact (toBool_toPacketKey packet.streamIdentifier s).2 h
  · intro readFails db receiptTimeAndData receiptTime s _ hreturned
    rw [Database.write_eq, if_neg Bool.false_ne_true, rejected_eq, List.mem_filter] at hreturned
    obtain ⟨-, hrejected⟩ := hreturned
    rw [Bool.not_eq_true', ← Bool.not_eq_true, toBool_toPacketKey] at hrejected
    exact hrejected h

/-- The sample packet is accepted and can be stored. -/
theorem accepted_storable_iff_samplePacket :
    isValid (samplePacket 0) = .ok true ∧
      Storable (SortedTable Bytes Bytes) .protobuf (samplePacket 0) := by
  have hvalid : isValid (samplePacket 0) = .ok true := by decide
  exact ⟨hvalid, ((accepted_storable_iff (SortedTable Bytes Bytes) .protobuf hvalid).2).2
    (by decide)⟩

/-- The sample packet with a network code that is set, and empty. -/
def emptyNetworkPacket : Packet :=
  { samplePacket 0 with
    streamIdentifier? := some ⟨some [], some [70, 84, 85], some [72, 72, 90], some [48, 49]⟩ }

/-- **An empty network code is set,** so its packet is accepted and has no key. -/
theorem not_accepted_storable_emptyNetworkPacket :
    ¬ ∀ packet, isValid packet = .ok true →
      ∀ s, (toPacketKey packet.streamIdentifier s).toBool = true := by
  intro h
  exact absurd (h emptyNetworkPacket (by decide) 1) (by decide)

end Broker
end UDataPacketBroker
