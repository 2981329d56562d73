/-
# Canonical identifiers and the keys that encode them

`toStreamKey` accepts an identifier whose codes are one to eight bytes long and
free of null bytes (`IsEncodable`) and writes its canonical form, four slots
padded with `0x00` (`slots`).  `toStreamKey_eq_ok_iff` says so in one equation;
everything about keys is read off it.

A key that some identifier is encoded to is a `StreamKey`.  The store's column
families are indexed by these.
-/

import UDataPacketBroker.Utilities

namespace UDataPacketBroker
namespace Utilities

open Library

/-! ### Folding to upper case -/

/-- Case folding never produces a null byte. -/
theorem toupper_eq_zero_iff (c : UInt8) : toupper c = 0 ↔ c = 0 := by
  unfold toupper
  split_ifs with h
  · obtain ⟨hlo, hhi⟩ := h
    rw [UInt8.le_iff_toNat_le] at hlo hhi
    have hsub : (c - 0x20).toNat = c.toNat - 0x20 := by
      rw [UInt8.toNat_sub_of_le _ _ (UInt8.le_iff_toNat_le.2 (le_trans (by decide) hlo))]; rfl
    rw [← UInt8.toNat_inj, ← UInt8.toNat_inj, hsub]
    simp only [UInt8.reduceToNat] at *
    omega
  · rfl

/-- Folding twice is folding once. -/
theorem toupper_toupper (c : UInt8) : toupper (toupper c) = toupper c := by
  unfold toupper
  split_ifs with h h'
  · obtain ⟨hlo, hhi⟩ := h
    obtain ⟨hlo', -⟩ := h'
    rw [UInt8.le_iff_toNat_le] at hlo hhi hlo'
    have hsub : (c - 0x20).toNat = c.toNat - 0x20 := by
      rw [UInt8.toNat_sub_of_le _ _ (UInt8.le_iff_toNat_le.2 (le_trans (by decide) hlo))]; rfl
    rw [hsub] at hlo'
    simp only [UInt8.reduceToNat] at *
    omega
  · rfl
  · rfl

/-- Capitals bring in no null byte and take none away. -/
theorem zero_notMem_map_toupper {value : Bytes} : 0 ∉ value.map toupper ↔ 0 ∉ value := by
  simp [toupper_eq_zero_iff]

/-- Capitals stay as they are. -/
theorem map_toupper_map_toupper (value : Bytes) :
    (value.map toupper).map toupper = value.map toupper := by
  simp [Function.comp_def, toupper_toupper]

/-! ### Codes -/

/-- A code that fits a slot of `width` bytes: not empty, not too long, no null byte. -/
structure IsCode (width : ℕ) (value : Bytes) : Prop where
  nonempty : value ≠ []
  length_le : value.length ≤ width
  noNull : 0 ∉ value

/-- A code is one in any case. -/
theorem isCode_map_toupper {width : ℕ} {value : Bytes} :
    IsCode width (value.map toupper) ↔ IsCode width value := by
  constructor
  · rintro ⟨hne, hlen, hnull⟩
    exact ⟨by simpa using hne, by simpa using hlen, zero_notMem_map_toupper.1 hnull⟩
  · rintro ⟨hne, hlen, hnull⟩
    exact ⟨by simpa using hne, by simpa using hlen, zero_notMem_map_toupper.2 hnull⟩

/-- What `appendPaddedComponent` accepts, and what it appends. -/
theorem appendPaddedComponent_eq_ok_iff {key value fieldName result : Bytes} {width : ℕ} :
    appendPaddedComponent key value fieldName width = .ok result ↔
      IsCode width value ∧ result = key ++ padRight width 0 (value.map toupper) := by
  unfold appendPaddedComponent
  split_ifs with hempty hlong hnull
  · constructor
    · intro h; cases h
    · rintro ⟨hcode, -⟩
      exact absurd (List.isEmpty_iff.1 hempty) hcode.nonempty
  · constructor
    · intro h; cases h
    · rintro ⟨hcode, -⟩
      exact absurd hcode.length_le (by omega)
  · constructor
    · intro h; cases h
    · rintro ⟨hcode, -⟩
      exact absurd (List.contains_iff_mem.1 hnull) hcode.noNull
  · have hcode : IsCode width value :=
      ⟨fun h => hempty (List.isEmpty_iff.2 h), by omega, fun h => hnull (List.contains_iff_mem.2 h)⟩
    simp only [Except.ok.injEq, hcode, true_and, padRight, List.length_map, List.append_assoc]
    exact eq_comm

/-! ### Identifiers -/

/-- An identifier the key layout has room for. -/
structure IsEncodable (identifier : StreamIdentifier) : Prop where
  network : IsCode 8 identifier.network
  station : IsCode 8 identifier.station
  channel : IsCode 8 identifier.channel
  location : identifier.hasLocationCode = false ∨ identifier.locationCode = [] ∨
    IsCode 8 identifier.locationCode

/-- The canonical form: every code uppercased, the location folded to `"--"`
when it is unset or empty. -/
def canonical (identifier : StreamIdentifier) : StreamIdentifier where
  network? := some (identifier.network.map toupper)
  station? := some (identifier.station.map toupper)
  channel? := some (identifier.channel.map toupper)
  locationCode? := some ((canonicalLocationCode identifier).map toupper)

/-- The canonical network is in capitals. -/
@[simp] theorem network_canonical (identifier : StreamIdentifier) :
    (canonical identifier).network = identifier.network.map toupper := rfl

/-- So is the station. -/
@[simp] theorem station_canonical (identifier : StreamIdentifier) :
    (canonical identifier).station = identifier.station.map toupper := rfl

/-- So is the channel. -/
@[simp] theorem channel_canonical (identifier : StreamIdentifier) :
    (canonical identifier).channel = identifier.channel.map toupper := rfl

/-- The canonical location code is dashes where there is none, and in capitals. -/
@[simp] theorem locationCode_canonical (identifier : StreamIdentifier) :
    (canonical identifier).locationCode = (canonicalLocationCode identifier).map toupper := rfl

/-- The dashes are a code. -/
theorem isCode_dashes : IsCode 8 dashes := ⟨by decide, by decide, by decide⟩

/-- The location that is written is a code exactly when the location given is
unset, empty or a code. -/
theorem isCode_canonicalLocationCode_iff (identifier : StreamIdentifier) :
    IsCode 8 (canonicalLocationCode identifier) ↔ identifier.hasLocationCode = false ∨
      identifier.locationCode = [] ∨ IsCode 8 identifier.locationCode := by
  unfold canonicalLocationCode
  split_ifs with hset hempty
  · simp [isCode_dashes, List.isEmpty_iff.1 hempty]
  · simp [hset, List.isEmpty_iff.not.1 hempty]
  · simp [isCode_dashes, hset]

/-- There is a location code, or the dashes. -/
theorem canonicalLocationCode_ne_nil (identifier : StreamIdentifier) :
    canonicalLocationCode identifier ≠ [] := by
  unfold canonicalLocationCode
  split_ifs with hset hempty
  · decide
  · exact List.isEmpty_iff.not.1 hempty
  · decide

/-- A canonical location is written as it stands. -/
theorem canonicalLocationCode_canonical (identifier : StreamIdentifier) :
    canonicalLocationCode (canonical identifier) = (canonicalLocationCode identifier).map toupper := by
  have hset : (canonical identifier).hasLocationCode = true := rfl
  have hne : ¬ ((canonicalLocationCode identifier).map toupper).isEmpty = true := by
    simpa using canonicalLocationCode_ne_nil identifier
  rw [canonicalLocationCode, if_pos hset, locationCode_canonical, if_neg hne]

/-- **Canonical forms are fixed points.** -/
theorem canonical_canonical (identifier : StreamIdentifier) :
    canonical (canonical identifier) = canonical identifier := by
  rw [canonical, canonicalLocationCode_canonical, network_canonical, station_canonical,
    channel_canonical]
  simp only [map_toupper_map_toupper]
  rfl

/-- An identifier has a key exactly if its canonical form has. -/
theorem encodable_canonical_iff (identifier : StreamIdentifier) :
    IsEncodable (canonical identifier) ↔ IsEncodable identifier := by
  have hloc : IsCode 8 (canonicalLocationCode (canonical identifier)) ↔
      IsCode 8 (canonicalLocationCode identifier) := by
    rw [canonicalLocationCode_canonical, isCode_map_toupper]
  rw [isCode_canonicalLocationCode_iff, isCode_canonicalLocationCode_iff] at hloc
  constructor
  · rintro ⟨hn, hs, hc, hl⟩
    exact ⟨isCode_map_toupper.1 hn, isCode_map_toupper.1 hs, isCode_map_toupper.1 hc, hloc.1 hl⟩
  · rintro ⟨hn, hs, hc, hl⟩
    exact ⟨isCode_map_toupper.2 hn, isCode_map_toupper.2 hs, isCode_map_toupper.2 hc, hloc.2 hl⟩

/-! ### Stream keys -/

/-- The four slots of a stream key. -/
def slots (identifier : StreamIdentifier) : Bytes :=
  padRight 8 0 identifier.network ++ (padRight 8 0 identifier.station ++
    (padRight 8 0 identifier.locationCode ++ padRight 8 0 identifier.channel))

/-- **What `toStreamKey` accepts, and what it writes:** the slots of the
canonical form of an encodable identifier. -/
theorem toStreamKey_eq_ok_iff {identifier : StreamIdentifier} {key : Bytes} :
    toStreamKey identifier = .ok key ↔
      IsEncodable identifier ∧ key = slots (canonical identifier) := by
  have hbind (x : Except Bytes Bytes) (f : Bytes → Except Bytes Bytes) :
      x >>= f = .ok key ↔ ∃ k, x = .ok k ∧ f k = .ok key := by
    cases x <;> simp [bind, Except.bind]
  unfold toStreamKey
  simp only [hbind, appendPaddedComponent_eq_ok_iff, networkKeyLength, stationKeyLength,
    locationKeyLength, channelKeyLength, isCode_canonicalLocationCode_iff]
  constructor
  · rintro ⟨_, ⟨hn, rfl⟩, _, ⟨hs, rfl⟩, _, ⟨hl, rfl⟩, hc, rfl⟩
    exact ⟨⟨hn, hs, hc, hl⟩, by simp [slots]⟩
  · rintro ⟨⟨hn, hs, hc, hl⟩, rfl⟩
    exact ⟨_, ⟨hn, rfl⟩, _, ⟨hs, rfl⟩, _, ⟨hl, rfl⟩, hc, by simp [slots]⟩

/-- **The stream key** is the four slots of the canonical form. -/
theorem toStreamKey_of_encodable {identifier : StreamIdentifier} (h : IsEncodable identifier) :
    toStreamKey identifier = .ok (slots (canonical identifier)) :=
  toStreamKey_eq_ok_iff.2 ⟨h, rfl⟩

/-- `toPacketKey` is the stream key followed by the sequence number. -/
theorem toPacketKey_eq_ok_iff {identifier : StreamIdentifier} {s : UInt64} {key : Bytes} :
    toPacketKey identifier s = .ok key ↔
      ∃ k, toStreamKey identifier = .ok k ∧ key = k ++ bigEndian64 s := by
  unfold toPacketKey appendBigEndian64
  cases toStreamKey identifier with
  | error e => simp [bind, Except.bind]
  | ok k => simp [bind, Except.bind, pure, Except.pure, eq_comm]

/-- The packet key has the number behind them. -/
theorem toPacketKey_of_encodable {identifier : StreamIdentifier} (h : IsEncodable identifier)
    (s : UInt64) :
    toPacketKey identifier s = .ok (slots (canonical identifier) ++ bigEndian64 s) :=
  toPacketKey_eq_ok_iff.2 ⟨_, toStreamKey_of_encodable h, rfl⟩

/-- An identifier with a key is encodable; one without is not. -/
theorem not_encodable_of_error {identifier : StreamIdentifier} {reason : Bytes}
    (h : toStreamKey identifier = .error reason) : ¬ IsEncodable identifier := by
  intro hid
  rw [toStreamKey_of_encodable hid] at h
  cases h

/-- Encodability is what `toStreamKey` decides. -/
instance (identifier : StreamIdentifier) : Decidable (IsEncodable identifier) :=
  decidable_of_iff ((toStreamKey identifier).toBool = true) (by
    cases h : toStreamKey identifier with
    | error reason => simp [Except.toBool, not_encodable_of_error h]
    | ok key => simp [Except.toBool, (toStreamKey_eq_ok_iff.1 h).1])

/-- The slots are as long as a stream key. -/
theorem length_slots {identifier : StreamIdentifier} (h : IsEncodable identifier) :
    (slots (canonical identifier)).length = streamKeyLength := by
  have hl := (isCode_canonicalLocationCode_iff identifier).2 h.location
  have hpad {value : Bytes} (hv : IsCode 8 value) : (padRight 8 0 (value.map toupper)).length = 8 :=
    length_padRight 0 (by simpa using hv.length_le)
  simp [slots, hpad h.network, hpad h.station, hpad h.channel, hpad hl, streamKeyLength,
    networkKeyLength, stationKeyLength, locationKeyLength, channelKeyLength]

end Utilities
end UDataPacketBroker
