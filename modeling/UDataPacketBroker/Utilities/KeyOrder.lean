/-
# Packet keys are an order embedding

RocksDB orders keys byte by byte.  The layout is chosen so that this is the
order of the tuples (network, station, location, channel, sequence number) of
the canonical forms: zero padding keeps the order of the codes because no code
contains a null byte, the slots have fixed widths, and the sequence number is
big-endian.  The seeks, the prefix stops and the range deletes of the store all
rest on this.
-/

import UDataPacketBroker.Utilities.KeyCodec

namespace UDataPacketBroker
namespace Utilities

open Library

/-- The tuple an identifier and a sequence number are sorted by. -/
def keyTuple (identifier : StreamIdentifier) (s : UInt64) :
    Bytes ×ₗ Bytes ×ₗ Bytes ×ₗ Bytes ×ₗ UInt64 :=
  toLex (identifier.network, toLex (identifier.station, toLex (identifier.locationCode,
    toLex (identifier.channel, s))))

/-- Two padded codes compare as the codes, and what follows them decides ties. -/
theorem compare_slot_append {v w : Bytes} (hv : IsCode 8 v) (hw : IsCode 8 w) (x y : Bytes) :
    compare (padRight 8 0 v ++ x) (padRight 8 0 w ++ y) = (compare v w).then (compare x y) := by
  have hlen : (padRight 8 (0 : UInt8) v).length = (padRight 8 (0 : UInt8) w).length := by
    rw [length_padRight 0 hv.length_le, length_padRight 0 hw.length_le]
  rw [compare_append hlen, compare_padRight zero_le_uint8 hv.noNull hw.noNull hv.length_le
    hw.length_le]

/-- The keys of two canonical forms compare as their tuples. -/
theorem compare_slots {a b : StreamIdentifier} (ha : IsEncodable a) (hb : IsEncodable b)
    (s t : UInt64) :
    compare (slots (canonical a) ++ bigEndian64 s) (slots (canonical b) ++ bigEndian64 t)
      = compare (keyTuple (canonical a) s) (keyTuple (canonical b) t) := by
  obtain ⟨han, has, hal, hac⟩ := isCode_canonical ha
  obtain ⟨hbn, hbs, hbl, hbc⟩ := isCode_canonical hb
  simp only [slots, keyTuple, compare_toLex, List.append_assoc]
  rw [compare_slot_append han hbn, compare_slot_append has hbs, compare_slot_append hal hbl,
    compare_slot_append hac hbc, compare_bigEndian64]

/-- A stream key is a prefix of the packet keys of its own stream only. -/
theorem slots_prefix_iff {a b : StreamIdentifier} (ha : IsEncodable a) (hb : IsEncodable b)
    (t : UInt64) :
    slots (canonical a) <+: slots (canonical b) ++ bigEndian64 t ↔ canonical a = canonical b := by
  have hlen : (slots (canonical a)).length = (slots (canonical b)).length := by
    rw [length_slots ha, length_slots hb]
  constructor
  · rintro ⟨rest, hrest⟩
    exact slots_inj ha hb (List.append_inj hrest hlen).1
  · intro h
    exact ⟨bigEndian64 t, by rw [h]⟩

/-- Nothing of another stream lies between two packets of one stream. -/
theorem slots_contiguous {a b : StreamIdentifier} (ha : IsEncodable a) (hb : IsEncodable b)
    {u v t : UInt64}
    (hlo : compare (slots (canonical a) ++ bigEndian64 u) (slots (canonical b) ++ bigEndian64 t) ≠ .gt)
    (hhi : compare (slots (canonical b) ++ bigEndian64 t) (slots (canonical a) ++ bigEndian64 v) ≠ .gt) :
    canonical a = canonical b := by
  have hlen : (slots (canonical a)).length = (slots (canonical b)).length := by
    rw [length_slots ha, length_slots hb]
  rw [compare_append hlen] at hlo
  rw [compare_append hlen.symm] at hhi
  -- the stream keys decide either comparison unless they are equal
  rcases lt_trichotomy (slots (canonical a)) (slots (canonical b)) with h | h | h
  · rw [compare_word_gt.2 h] at hhi
    exact absurd rfl hhi
  · exact slots_inj ha hb h
  · rw [compare_word_gt.2 h] at hlo
    exact absurd rfl hlo

/-- **Packet keys are an order embedding.**  Byte order on keys is the
lexicographic order on canonical tuples; a stream key is a prefix of exactly
the packet keys of its stream; and the packets of one stream are contiguous. -/
theorem packetKey_orderEmbedding {a b : StreamIdentifier} {s t : UInt64} {ka kb : Bytes}
    (ha : toPacketKey a s = .ok ka) (hb : toPacketKey b t = .ok kb) :
    compare ka kb = compare (keyTuple (canonical a) s) (keyTuple (canonical b) t) ∧
      (∀ streamKey, toStreamKey a = .ok streamKey →
        (streamKey <+: kb ↔ canonical a = canonical b)) ∧
      ∀ u v ku kv, toPacketKey a u = .ok ku → toPacketKey a v = .ok kv →
        compare ku kb ≠ .gt → compare kb kv ≠ .gt → canonical a = canonical b := by
  obtain ⟨_, hka, rfl⟩ := toPacketKey_eq_ok_iff.1 ha
  obtain ⟨_, hkb, rfl⟩ := toPacketKey_eq_ok_iff.1 hb
  obtain ⟨hida, rfl⟩ := toStreamKey_eq_ok_iff.1 hka
  obtain ⟨hidb, rfl⟩ := toStreamKey_eq_ok_iff.1 hkb
  refine ⟨compare_slots hida hidb s t, fun streamKey hkey => ?_, fun u v ku kv hu hv hlo hhi => ?_⟩
  · rw [hka] at hkey
    rw [← Except.ok.inj hkey]
    exact slots_prefix_iff hida hidb t
  · rw [toPacketKey_of_encodable hida] at hu hv
    rw [← Except.ok.inj hu] at hlo
    rw [← Except.ok.inj hv] at hhi
    exact slots_contiguous hida hidb hlo hhi

/-- `UU.SR..HHZ` and `uu.sru.01.hhz`: the shorter station comes first. -/
theorem packetKey_orderEmbedding_stations :
    ∃ ka kb, toPacketKey ⟨some [85, 85], some [83, 82], some [72, 72, 90], none⟩ 7 = .ok ka ∧
      toPacketKey ⟨some [117, 117], some [115, 114, 117], some [104, 104, 122], some [48, 49]⟩ 3
        = .ok kb ∧ compare ka kb = .lt := by
  obtain ⟨ka, hka⟩ : ∃ ka, toPacketKey ⟨some [85, 85], some [83, 82], some [72, 72, 90], none⟩ 7
      = .ok ka := ⟨_, rfl⟩
  obtain ⟨kb, hkb⟩ : ∃ kb, toPacketKey
      ⟨some [117, 117], some [115, 114, 117], some [104, 104, 122], some [48, 49]⟩ 3 = .ok kb :=
    ⟨_, rfl⟩
  exact ⟨ka, kb, hka, hkb, (packetKey_orderEmbedding hka hkb).1.trans (by decide)⟩

namespace StreamKey

/-- Packet keys of stream keys compare by the stream, then by the number. -/
theorem packetKey_lt_iff {k k' : StreamKey} {s s' : UInt64} :
    k.packetKey s < k'.packetKey s' ↔ k.bytes < k'.bytes ∨ k = k' ∧ s < s' := by
  rw [← compare_word_lt, packetKey, packetKey,
    compare_append (by rw [length_bytes, length_bytes]), compare_bigEndian64,
    Ordering.then_eq_lt, compare_word_lt, compare_word_eq, compare_lt_iff_lt, StreamKey.ext_iff]

/-- **A range of packet keys of one stream holds nothing of another.** -/
theorem packetKey_mem_range {k k' : StreamKey} {a b s : UInt64} :
    k.packetKey a ≤ k'.packetKey s ∧ k'.packetKey s < k.packetKey b ↔ k = k' ∧ a ≤ s ∧ s < b := by
  rw [← not_lt, packetKey_lt_iff, packetKey_lt_iff]
  constructor
  · rintro ⟨hlow, hlt | ⟨rfl, hlt⟩⟩
    · exact absurd (Or.inl hlt) hlow
    · exact ⟨rfl, not_lt.1 fun h => hlow (Or.inr ⟨rfl, h⟩), hlt⟩
  · rintro ⟨rfl, hle, hlt⟩
    exact ⟨by simp [hle], Or.inr ⟨rfl, hlt⟩⟩

/-- The keys of one stream from a number on. -/
theorem packetKey_le_iff {k : StreamKey} {s s' : UInt64} :
    k.packetKey s ≤ k.packetKey s' ↔ s ≤ s' := by
  rw [← not_lt, packetKey_lt_iff, ← not_lt]
  simp

end StreamKey

end Utilities
end UDataPacketBroker
