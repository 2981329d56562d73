/-
# The names of streams

`Utilities::toString` writes the name of a stream, like `UU.ELU.EHZ.01`, for the messages
on packets that are rejected.  As the codes stand between dots, a name tells the streams
apart that the store keeps apart, as long as no code in front of the location has a dot of
its own (`toString_eq_iff`).
-/

import UDataPacketBroker.Library.Text
import UDataPacketBroker.Utilities.KeyCodec

namespace UDataPacketBroker
namespace Utilities

open Library

/-- The dot, `'.'`. -/
def dot : UInt8 := 0x2E

/-- Capitals make no dot and take none away. -/
theorem toupper_eq_dot_iff (c : UInt8) : toupper c = dot ↔ c = dot := by
  unfold toupper dot
  split_ifs with h
  · obtain ⟨hlo, hhi⟩ := h
    rw [UInt8.le_iff_toNat_le] at hlo hhi
    have hsub : (c - 0x20).toNat = c.toNat - 0x20 := by
      rw [UInt8.toNat_sub_of_le _ _ (UInt8.le_iff_toNat_le.2 (le_trans (by decide) hlo))]; rfl
    rw [← UInt8.toNat_inj, ← UInt8.toNat_inj, hsub]
    simp only [UInt8.reduceToNat] at *
    omega
  · rfl

/-- Uppercasing brings no dot in, and takes none out. -/
theorem dot_notMem_map_toupper {value : Bytes} : dot ∉ value.map toupper ↔ dot ∉ value := by
  rw [not_iff_not, List.mem_map]
  constructor
  · rintro ⟨c, hc, heq⟩
    rwa [← (toupper_eq_dot_iff c).1 heq]
  · exact fun h => ⟨dot, h, rfl⟩

/-- The codes in front of the location have no dots. -/
structure Undotted (identifier : StreamIdentifier) : Prop where
  network : dot ∉ identifier.network
  station : dot ∉ identifier.station
  channel : dot ∉ identifier.channel

/-- A name is the codes of the canonical identifier, with dots between them. -/
theorem toString_eq (identifier : StreamIdentifier) :
    toString identifier = (canonical identifier).network ++ dot ::
      ((canonical identifier).station ++ dot :: ((canonical identifier).channel ++ dot ::
        (canonical identifier).locationCode)) := by
  have hlocation : (let locationCode :=
        if identifier.hasLocationCode then identifier.locationCode else []
      if locationCode.isEmpty then dashes else locationCode) = canonicalLocationCode identifier := by
    unfold canonicalLocationCode
    cases identifier.hasLocationCode <;> rfl
  have hdot : (ascii ".").map toupper = [dot] := rfl
  rw [network_canonical, station_canonical, channel_canonical, locationCode_canonical, ← hlocation,
    toString]
  simp only [List.map_append, hdot, List.append_assoc, List.singleton_append]

/-- **Names tell streams apart.**  Identifiers whose codes in front of the location have no
dots have one name exactly when they have one stream key. -/
theorem toString_eq_iff {a b : StreamIdentifier} (ha : Undotted a) (hb : Undotted b)
    (hencodable : IsEncodable a) :
    toString a = toString b ↔ ∃ key, toStreamKey a = .ok key ∧ toStreamKey b = .ok key := by
  have hcanonical {identifier : StreamIdentifier} (h : Undotted identifier) :
      Undotted (canonical identifier) :=
    ⟨dot_notMem_map_toupper.2 h.network, dot_notMem_map_toupper.2 h.station,
      dot_notMem_map_toupper.2 h.channel⟩
  rw [share_streamKey_iff, and_iff_right hencodable, toString_eq, toString_eq,
    append_cons_inj (hcanonical ha).network (hcanonical hb).network,
    append_cons_inj (hcanonical ha).station (hcanonical hb).station,
    append_cons_inj (hcanonical ha).channel (hcanonical hb).channel]
  constructor
  · rintro ⟨hnetwork, hstation, hchannel, hlocation⟩
    rw [network_canonical, network_canonical] at hnetwork
    rw [station_canonical, station_canonical] at hstation
    rw [channel_canonical, channel_canonical] at hchannel
    rw [locationCode_canonical, locationCode_canonical] at hlocation
    rw [canonical, canonical, hnetwork, hstation, hchannel, hlocation]
  · intro h
    rw [h]
    exact ⟨rfl, rfl, rfl, rfl⟩

/-- Case and an empty location make no difference to a name, and a dot in the location
none to this. -/
theorem toString_eq_iff_stations :
    (∃ key, toStreamKey ⟨some (ascii "uu"), some (ascii "elu"), some (ascii "ehz"), none⟩ = .ok key ∧
      toStreamKey ⟨some (ascii "UU"), some (ascii "ELU"), some (ascii "EHZ"), some []⟩ = .ok key) ∧
    ¬∃ key, toStreamKey ⟨some (ascii "UU"), some (ascii "ELU"), some (ascii "EHZ"), none⟩ = .ok key ∧
      toStreamKey ⟨some (ascii "UU"), some (ascii "ELU"), some (ascii "EHZ"),
        some (ascii "0.1")⟩ = .ok key := by
  have hcode {value : Bytes} (hne : value ≠ []) (hlength : value.length ≤ 8) (hzero : 0 ∉ value) :
      IsCode 8 value := ⟨hne, hlength, hzero⟩
  have hdotted : ∀ location, Undotted
      ⟨some (ascii "UU"), some (ascii "ELU"), some (ascii "EHZ"), location⟩ := fun _ =>
    ⟨show dot ∉ ascii "UU" by decide, show dot ∉ ascii "ELU" by decide,
      show dot ∉ ascii "EHZ" by decide⟩
  constructor
  · exact (toString_eq_iff ⟨by decide, by decide, by decide⟩ (hdotted _)
      ⟨hcode (by decide) (by decide) (by decide), hcode (by decide) (by decide) (by decide),
        hcode (by decide) (by decide) (by decide), Or.inl rfl⟩).1 (by decide)
  · rw [← toString_eq_iff (hdotted _) (hdotted _)
      ⟨hcode (by decide) (by decide) (by decide), hcode (by decide) (by decide) (by decide),
        hcode (by decide) (by decide) (by decide), Or.inl rfl⟩]
    decide

end Utilities
end UDataPacketBroker
