/-
# Decoding keys

`fromStreamKey` cuts a key at hand-computed offsets and strips the padding;
`fromPacketKey` reads the trailing sequence number as well.  On the keys the
encoder writes they recover the canonical identifier and the number
(`packetKey_roundTrip`), including the full-width code that leaves no padding
byte.  A key that some identifier is encoded to is a `StreamKey`: the column
families of the store are indexed by these, and each stands for one canonical
identifier (`StreamKey.canonical_identifier`).
-/

import UDataPacketBroker.Utilities.Canonical

namespace UDataPacketBroker
namespace Utilities

open Library

/-! ### Reading one slot -/

/-- A padded code between other slots is read back whole. -/
theorem readPaddedComponent_padRight {value : Bytes} (h : IsCode 8 value) (front back : Bytes) :
    readPaddedComponent (front ++ (padRight 8 0 value ++ back)) front.length 8 = value := by
  have hlen : (padRight 8 0 value).length = 8 := length_padRight 0 h.length_le
  rw [readPaddedComponent, List.drop_left, List.take_append_of_le_length hlen.ge,
    List.take_of_length_le hlen.le]
  exact takeWhile_padRight 8 h.noNull

/-- The codes of the canonical form of an encodable identifier. -/
theorem isCode_canonical {identifier : StreamIdentifier} (h : IsEncodable identifier) :
    IsCode 8 (canonical identifier).network ∧ IsCode 8 (canonical identifier).station ∧
      IsCode 8 (canonical identifier).locationCode ∧ IsCode 8 (canonical identifier).channel :=
  ⟨isCode_map_toupper.2 h.network, isCode_map_toupper.2 h.station,
    isCode_map_toupper.2 ((isCode_canonicalLocationCode_iff identifier).2 h.location),
    isCode_map_toupper.2 h.channel⟩

/-- **Decoding the slots of a canonical form gives the canonical form.** -/
theorem fromStreamKey_slots {identifier : StreamIdentifier} (h : IsEncodable identifier)
    (out : StreamIdentifier) :
    fromStreamKey (slots (canonical identifier)) out = .ok (canonical identifier) := by
  obtain ⟨hn, hs, hl, hc⟩ := isCode_canonical h
  have hnLen : (padRight 8 (0 : UInt8) (canonical identifier).network).length = 8 :=
    length_padRight 0 hn.length_le
  have hsLen : (padRight 8 (0 : UInt8) (canonical identifier).station).length = 8 :=
    length_padRight 0 hs.length_le
  have hlLen : (padRight 8 (0 : UInt8) (canonical identifier).locationCode).length = 8 :=
    length_padRight 0 hl.length_le
  have hnetwork := readPaddedComponent_padRight hn [] (padRight 8 0 (canonical identifier).station ++
    (padRight 8 0 (canonical identifier).locationCode ++ padRight 8 0 (canonical identifier).channel))
  have hstation := readPaddedComponent_padRight hs (padRight 8 0 (canonical identifier).network)
    (padRight 8 0 (canonical identifier).locationCode ++ padRight 8 0 (canonical identifier).channel)
  have hlocation := readPaddedComponent_padRight hl
    (padRight 8 0 (canonical identifier).network ++ padRight 8 0 (canonical identifier).station)
    (padRight 8 0 (canonical identifier).channel)
  have hchannel := readPaddedComponent_padRight hc
    (padRight 8 0 (canonical identifier).network ++ (padRight 8 0 (canonical identifier).station ++
      padRight 8 0 (canonical identifier).locationCode)) []
  simp only [List.append_assoc, List.append_nil, List.nil_append, List.length_nil,
    List.length_append, hnLen, hsLen, hlLen] at hnetwork hstation hlocation hchannel
  have hkey : ¬ (slots (canonical identifier)).length ≠ streamKeyLength := not_not.2 (length_slots h)
  rw [fromStreamKey, if_neg hkey]
  simp only [slots, networkKeyLength, stationKeyLength, locationKeyLength, channelKeyLength,
    Nat.reduceAdd, hnetwork, hstation, hlocation, hchannel, List.isEmpty_iff, hl.nonempty, if_false]
  rfl

/-- Equal slots come from equal canonical forms. -/
theorem slots_inj {a b : StreamIdentifier} (ha : IsEncodable a) (hb : IsEncodable b)
    (h : slots (canonical a) = slots (canonical b)) : canonical a = canonical b := by
  have hdecode := fromStreamKey_slots ha {}
  rw [h, fromStreamKey_slots hb] at hdecode
  exact (Except.ok.inj hdecode).symm

/-- **Two identifiers share a stream key exactly when they are encodable and
their canonical forms are equal.** -/
theorem share_streamKey_iff (a b : StreamIdentifier) :
    (∃ key, toStreamKey a = .ok key ∧ toStreamKey b = .ok key) ↔
      IsEncodable a ∧ canonical a = canonical b := by
  simp only [toStreamKey_eq_ok_iff]
  constructor
  · rintro ⟨key, ⟨ha, hka⟩, hb, hkb⟩
    exact ⟨ha, slots_inj ha hb (hka.symm.trans hkb)⟩
  · rintro ⟨ha, hab⟩
    have hb : IsEncodable b := by
      rw [← encodable_canonical_iff, ← hab, encodable_canonical_iff]
      exact ha
    exact ⟨_, ⟨ha, rfl⟩, hb, by rw [hab]⟩

/-- The parts of a packet key, cut where the decoder cuts them. -/
theorem fromPacketKey_append {key : Bytes} (h : key.length = streamKeyLength) (s : UInt64)
    (out : StreamIdentifier) :
    fromPacketKey (key ++ bigEndian64 s) out = (fromStreamKey key out).map (·, s) := by
  have hlen : ¬ (key ++ bigEndian64 s).length ≠ packetKeyLength := by
    simp [h, packetKeyLength, sequenceNumberKeyLength]
  have hread : readBigEndian64 (key ++ bigEndian64 s) streamKeyLength = s := by
    rw [readBigEndian64, ← h, List.drop_left, List.take_of_length_le (by simp),
      ofBigEndian64_bigEndian64]
  rw [fromPacketKey, if_neg hlen, hread, ← h, List.take_left]
  cases fromStreamKey key out <;> rfl

/-- **The key codec round trip.**  A packet key exists exactly for the
encodable identifiers; it has 40 bytes, decodes to the canonical identifier and
the sequence number, and encoding what it decodes to gives it back. -/
theorem packetKey_roundTrip (identifier : StreamIdentifier) (s : UInt64) :
    ((∃ key, toPacketKey identifier s = .ok key) ↔ IsEncodable identifier) ∧
      (∀ key, toPacketKey identifier s = .ok key →
        key.length = 40 ∧ (∀ out, fromPacketKey key out = .ok (canonical identifier, s)) ∧
          ∀ out decoded t, fromPacketKey key out = .ok (decoded, t) →
            toPacketKey decoded t = .ok key) ∧
      ∀ other, (∃ key, toStreamKey identifier = .ok key ∧ toStreamKey other = .ok key) ↔
        IsEncodable identifier ∧ canonical identifier = canonical other := by
  refine ⟨⟨?_, fun h => ⟨_, toPacketKey_of_encodable h s⟩⟩, ?_, share_streamKey_iff identifier⟩
  · rintro ⟨key, hkey⟩
    obtain ⟨k, hk, -⟩ := toPacketKey_eq_ok_iff.1 hkey
    exact (toStreamKey_eq_ok_iff.1 hk).1
  · intro key hkey
    obtain ⟨k, hk, rfl⟩ := toPacketKey_eq_ok_iff.1 hkey
    obtain ⟨hid, rfl⟩ := toStreamKey_eq_ok_iff.1 hk
    have hdecode (out : StreamIdentifier) :
        fromPacketKey (slots (canonical identifier) ++ bigEndian64 s) out
          = .ok (canonical identifier, s) := by
      rw [fromPacketKey_append (length_slots hid), fromStreamKey_slots hid]
      rfl
    refine ⟨by simp [length_slots hid, streamKeyLength, networkKeyLength, stationKeyLength,
      locationKeyLength, channelKeyLength], hdecode, fun out decoded t hout => ?_⟩
    rw [hdecode] at hout
    obtain ⟨rfl, rfl⟩ := Prod.mk.inj (Except.ok.inj hout)
    rw [toPacketKey_of_encodable ((encodable_canonical_iff identifier).2 hid),
      canonical_canonical]

/-! ### Stream keys -/

/-- A key of the `streams` column family: the encoding of some identifier. -/
structure StreamKey where
  bytes : Bytes
  isKey : ∃ identifier, toStreamKey identifier = .ok bytes

namespace StreamKey

/-- A stream key is its bytes. -/
@[ext] theorem ext {k k' : StreamKey} (h : k.bytes = k'.bytes) : k = k' := by
  cases k; cases k'; congr

instance : DecidableEq StreamKey := fun k k' =>
  decidable_of_iff (k.bytes = k'.bytes) ⟨ext, fun h => h ▸ rfl⟩

/-- The key of an identifier, when it has one. -/
def ofIdentifier? (identifier : StreamIdentifier) : Option StreamKey :=
  match h : toStreamKey identifier with
  | .ok bytes => some ⟨bytes, identifier, h⟩
  | .error _ => none

/-- The key of an identifier is what `toStreamKey` answers. -/
theorem ofIdentifier?_eq_some_iff {identifier : StreamIdentifier} {k : StreamKey} :
    ofIdentifier? identifier = some k ↔ toStreamKey identifier = .ok k.bytes := by
  unfold ofIdentifier?
  split
  · rename_i bytes h
    rw [Option.some.injEq, StreamKey.ext_iff]
    exact ⟨fun hb => hb ▸ h, fun hk => Except.ok.inj (h.symm.trans hk)⟩
  · rename_i e h
    exact ⟨fun hk => (Option.some_ne_none k hk.symm).elim, fun hk => by rw [h] at hk; cases hk⟩

/-- There is none exactly if the identifier cannot be encoded. -/
theorem ofIdentifier?_eq_none_iff {identifier : StreamIdentifier} :
    ofIdentifier? identifier = none ↔ ¬ IsEncodable identifier := by
  constructor
  · intro h hid
    obtain ⟨k, hk⟩ : ∃ k, ofIdentifier? identifier = some k :=
      ⟨⟨_, identifier, toStreamKey_of_encodable hid⟩,
        ofIdentifier?_eq_some_iff.2 (toStreamKey_of_encodable hid)⟩
    rw [h] at hk
    cases hk
  · intro h
    cases hk : ofIdentifier? identifier with
    | none => rfl
    | some k => exact absurd (toStreamKey_eq_ok_iff.1 (ofIdentifier?_eq_some_iff.1 hk)).1 h

/-- IsEncodable identifiers with one canonical form have one stream key, and
conversely. -/
theorem ofIdentifier?_eq_iff {a b : StreamIdentifier} {k : StreamKey}
    (h : ofIdentifier? a = some k) :
    ofIdentifier? b = some k ↔ canonical b = canonical a := by
  have ha := ofIdentifier?_eq_some_iff.1 h
  have hshare := share_streamKey_iff a b
  rw [ofIdentifier?_eq_some_iff]
  constructor
  · intro hb
    exact (hshare.1 ⟨_, ha, hb⟩).2.symm
  · intro hcanon
    obtain ⟨key, hka, hkb⟩ := hshare.2 ⟨(toStreamKey_eq_ok_iff.1 ha).1, hcanon.symm⟩
    rw [ha] at hka
    rw [hkb, ← Except.ok.inj hka]

/-- All stream keys have one length. -/
theorem length_bytes (k : StreamKey) : k.bytes.length = streamKeyLength := by
  obtain ⟨identifier, h⟩ := k.isKey
  obtain ⟨hid, hk⟩ := toStreamKey_eq_ok_iff.1 h
  rw [hk, length_slots hid]

/-- The canonical identifier a stream key stands for. -/
def identifier (k : StreamKey) : StreamIdentifier :=
  match fromStreamKey k.bytes {} with
  | .ok identifier => identifier
  | .error _ => {}

/-- A stream key decodes to its identifier, whatever was in the output. -/
theorem fromStreamKey_bytes (k : StreamKey) (out : StreamIdentifier) :
    fromStreamKey k.bytes out = .ok k.identifier := by
  obtain ⟨source, h⟩ := k.isKey
  obtain ⟨hid, hk⟩ := toStreamKey_eq_ok_iff.1 h
  rw [identifier, hk, fromStreamKey_slots hid, fromStreamKey_slots hid]

/-- **The identifier of a stream key is canonical and has that key.** -/
theorem canonical_identifier (k : StreamKey) :
    canonical k.identifier = k.identifier ∧ toStreamKey k.identifier = .ok k.bytes := by
  obtain ⟨source, h⟩ := k.isKey
  obtain ⟨hid, hk⟩ := toStreamKey_eq_ok_iff.1 h
  have hdecode := k.fromStreamKey_bytes {}
  rw [hk, fromStreamKey_slots hid] at hdecode
  rw [← Except.ok.inj hdecode, canonical_canonical, hk, toStreamKey_eq_ok_iff,
    canonical_canonical]
  exact ⟨rfl, (encodable_canonical_iff source).2 hid, rfl⟩

/-- The identifier of the key of `a` is the canonical form of `a`. -/
theorem identifier_of_ofIdentifier? {a : StreamIdentifier} {k : StreamKey}
    (h : ofIdentifier? a = some k) : k.identifier = canonical a := by
  obtain ⟨hcanon, hkey⟩ := k.canonical_identifier
  rw [← (ofIdentifier?_eq_iff h).1 (ofIdentifier?_eq_some_iff.2 hkey), hcanon]

/-- The identifier of a stream key determines it. -/
theorem identifier_inj {k k' : StreamKey} (h : k.identifier = k'.identifier) : k = k' := by
  have hkey := k.canonical_identifier.2
  rw [h, k'.canonical_identifier.2] at hkey
  exact (StreamKey.ext (Except.ok.inj hkey)).symm

/-- **Which identifiers a stream key stands for.** -/
theorem ofIdentifier?_eq_some_iff_canonical {a : StreamIdentifier} {k : StreamKey} :
    ofIdentifier? a = some k ↔ IsEncodable a ∧ canonical a = k.identifier := by
  constructor
  · intro h
    exact ⟨(toStreamKey_eq_ok_iff.1 (ofIdentifier?_eq_some_iff.1 h)).1,
      (identifier_of_ofIdentifier? h).symm⟩
  · rintro ⟨ha, hcanon⟩
    cases h : ofIdentifier? a with
    | none => exact absurd ha (ofIdentifier?_eq_none_iff.1 h)
    | some k' =>
        rw [← identifier_of_ofIdentifier? h] at hcanon
        rw [identifier_inj hcanon]

/-- The packet key of a stream key and a sequence number. -/
def packetKey (k : StreamKey) (s : UInt64) : Bytes := k.bytes ++ bigEndian64 s

/-- Packet keys determine their stream and their number. -/
theorem packetKey_inj {k k' : StreamKey} {s s' : UInt64} :
    k.packetKey s = k'.packetKey s' ↔ k = k' ∧ s = s' := by
  constructor
  · intro h
    obtain ⟨hk, hs⟩ := List.append_inj h (by rw [length_bytes, length_bytes])
    exact ⟨ext hk, bigEndian64_inj.1 hs⟩
  · rintro ⟨rfl, rfl⟩
    rfl

end StreamKey

end Utilities
end UDataPacketBroker
