/-
# Keys and packet validation

`src/utilities.cpp` and the key layout of `include/uDataPacketBroker/utilities.hpp`:

    packet key : network(8) | station(8) | location(8) | channel(8) | seq(8)
    stream key : network(8) | station(8) | location(8) | channel(8)

`std::expected<T, std::string>` is `Except Bytes T`.  An output parameter is
part of the result.  `std::toupper` is the one of the
C locale, `std::to_string` is `Nat.repr`.
-/

import UDataPacketBroker.Library.BigEndian
import UDataPacketBroker.Proto

namespace UDataPacketBroker
namespace Utilities

open Library

def networkKeyLength : ℕ := 8
def stationKeyLength : ℕ := 8
def locationKeyLength : ℕ := 8
def channelKeyLength : ℕ := 8
/-- The stream key length (network + station + location + channel). -/
def streamKeyLength : ℕ :=
  networkKeyLength + stationKeyLength + locationKeyLength + channelKeyLength
/-- The big-endian sequence number length. -/
def sequenceNumberKeyLength : ℕ := 8
/-- The packet key length (stream key + sequence number). -/
def packetKeyLength : ℕ := streamKeyLength + sequenceNumberKeyLength

/-- `std::toupper` of the C locale: only `a` … `z` change. -/
def toupper (character : UInt8) : UInt8 :=
  if 0x61 ≤ character ∧ character ≤ 0x7A then character - 0x20 else character

/-- `appendPaddedComponent`: a code, uppercased and right-padded with `0x00`. -/
def appendPaddedComponent (key value fieldName : Bytes) (width : ℕ) : Except Bytes Bytes :=
  if value.isEmpty then
    .error (fieldName ++ ascii " is empty")
  else if value.length > width then
    .error (fieldName ++ ascii " '" ++ value ++ ascii "' exceeds " ++ ascii (Nat.repr width)
      ++ ascii " bytes")
  else if value.contains 0 then
    .error (fieldName ++ ascii " contains an embedded null byte")
  else
    .ok (key ++ value.map toupper ++ List.replicate (width - value.length) 0)

/-- `appendBigEndian64`. -/
def appendBigEndian64 (key : Bytes) (value : UInt64) : Bytes := key ++ bigEndian64 value

/-- `readBigEndian64`: the eight bytes from `offset` on. -/
def readBigEndian64 (key : Bytes) (offset : ℕ) : UInt64 :=
  ofBigEndian64 ((key.drop offset).take 8)

/-- `readPaddedComponent`: the slot at `offset`, cut at its first null byte. -/
def readPaddedComponent (key : Bytes) (offset width : ℕ) : Bytes :=
  ((key.drop offset).take width).takeWhile (· ≠ 0)

/-- `canonicalLocationCode`: an unset or empty location folds to `"--"`. -/
def canonicalLocationCode (identifier : StreamIdentifier) : Bytes :=
  if identifier.hasLocationCode then
    if identifier.locationCode.isEmpty then dashes else identifier.locationCode
  else dashes

/-- `Utilities::toString`: like `UU.ELU.EHZ.01`, uppercased. -/
def toString (identifier : StreamIdentifier) : Bytes :=
  let locationCode := if identifier.hasLocationCode then identifier.locationCode else []
  let result := identifier.network ++ ascii "." ++ identifier.station ++ ascii "."
    ++ identifier.channel ++ ascii "."
    ++ (if locationCode.isEmpty then dashes else locationCode)
  result.map toupper

/-- `Utilities::isValid`: the checks in the order of the source, the first that
fails naming the reason. -/
def isValid (packet : Packet) : Except Bytes Bool :=
  let identifier := packet.streamIdentifier
  if !packet.hasStreamIdentifier then
    .error (ascii "Packet does not have an identifier")
  else if !identifier.hasNetwork then
    .error (ascii "Network not set in packet identifier")
  else if !identifier.hasStation then
    .error (ascii "Station not set in packet identifier")
  else if !identifier.hasChannel then
    .error (ascii "Channel not set in packet identifier")
  else if !packet.hasStartTime then
    .error (toString identifier ++ ascii " does not have a start time.")
  else if !packet.hasSamplingRate then
    .error (toString identifier ++ ascii " does not have a sampling rate.")
  else if packet.samplingRate.leZero then
    .error (toString identifier ++ ascii " sampling rate not positive.")
  else if !packet.hasDataType then
    .error (toString identifier ++ ascii " does not have a data type.")
  else if !packet.hasNumberOfSamples then
    .error (toString identifier ++ ascii " does not have any samples.")
  else
    .ok true

/-- `Utilities::toStreamKey`. -/
def toStreamKey (identifier : StreamIdentifier) : Except Bytes Bytes := do
  let key ← appendPaddedComponent [] identifier.network (ascii "Network") networkKeyLength
  let key ← appendPaddedComponent key identifier.station (ascii "Station") stationKeyLength
  let key ← appendPaddedComponent key (canonicalLocationCode identifier) (ascii "Location")
    locationKeyLength
  appendPaddedComponent key identifier.channel (ascii "Channel") channelKeyLength

/-- `Utilities::toPacketKey`. -/
def toPacketKey (identifier : StreamIdentifier) (sequenceNumber : UInt64) : Except Bytes Bytes := do
  let key ← toStreamKey identifier
  return appendBigEndian64 key sequenceNumber

/-- `Utilities::fromStreamKey`: every field of the identifier passed in is set. -/
def fromStreamKey (key : Bytes) (identifier : StreamIdentifier) : Except Bytes StreamIdentifier :=
  if key.length ≠ streamKeyLength then
    .error (ascii "Stream key has " ++ ascii (Nat.repr key.length) ++ ascii " bytes; expected "
      ++ ascii (Nat.repr streamKeyLength))
  else
    let locationCode :=
      readPaddedComponent key (networkKeyLength + stationKeyLength) locationKeyLength
    .ok { identifier with
      network? := some (readPaddedComponent key 0 networkKeyLength)
      station? := some (readPaddedComponent key networkKeyLength stationKeyLength)
      locationCode? := some (if locationCode.isEmpty then dashes else locationCode)
      channel? := some (readPaddedComponent key
        (networkKeyLength + stationKeyLength + locationKeyLength) channelKeyLength) }

/-- `Utilities::fromPacketKey`. -/
def fromPacketKey (key : Bytes) (identifier : StreamIdentifier) :
    Except Bytes (StreamIdentifier × UInt64) := do
  if key.length ≠ packetKeyLength then
    .error (ascii "Packet key has " ++ ascii (Nat.repr key.length) ++ ascii " bytes; expected "
      ++ ascii (Nat.repr packetKeyLength))
  else
    let identifier ← fromStreamKey (key.take streamKeyLength) identifier
    return (identifier, readBigEndian64 key streamKeyLength)

end Utilities
end UDataPacketBroker
