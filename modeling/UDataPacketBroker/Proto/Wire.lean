/-
# Packets on the wire

The protobuf encoding of a `Packet`: fields in the order of their numbers, each
a tag and a varint, eight little-endian bytes, or a length and bytes.  A field
with explicit presence is written when it is set; the two fields of
`google.protobuf.Timestamp` have implicit presence and are written when they
are not zero.  Nothing in the broker depends on these bytes; they make the
serializer the store is given concrete.
-/

import UDataPacketBroker.Library.BigEndian
import UDataPacketBroker.Proto

namespace UDataPacketBroker
namespace Wire

open Library

/-- Seven bits a byte, lowest first, the high bit set on all but the last. -/
def varintBytes : ℕ → ℕ → Bytes
  | 0, _ => []
  | fuel + 1, n =>
    if n < 128 then [n.toUInt8] else (n % 128 + 128).toUInt8 :: varintBytes fuel (n / 128)

/-- A 64-bit word as a varint: at most ten bytes. -/
def varint (value : UInt64) : Bytes := varintBytes 10 value.toNat

/-- The tag of a field: its number and its wire type. -/
def tag (field wireType : ℕ) : Bytes := varintBytes 10 (field * 8 + wireType)

def varintField (field : ℕ) (value : UInt64) : Bytes := tag field 0 ++ varint value

def fixed64Field (field : ℕ) (value : UInt64) : Bytes := tag field 1 ++ (bigEndian64 value).reverse

def bytesField (field : ℕ) (value : Bytes) : Bytes :=
  tag field 2 ++ varintBytes 10 value.length ++ value

/-- A field with explicit presence. -/
def optional {α : Type} (value : Option α) (write : α → Bytes) : Bytes := value.elim [] write

def serializeStreamIdentifier (identifier : StreamIdentifier) : Bytes :=
  optional identifier.network? (bytesField 1) ++ optional identifier.station? (bytesField 2)
    ++ optional identifier.channel? (bytesField 3) ++ optional identifier.locationCode? (bytesField 4)

def serializeTimestamp (time : Timestamp) : Bytes :=
  (if time.seconds = 0 then [] else varintField 1 time.seconds.toUInt64)
    ++ (if time.nanos = 0 then [] else varintField 2 time.nanos.toInt64.toUInt64)

def dataTypeNumber : DataType → UInt64
  | .unknown => 0
  | .integer32 => 1
  | .float => 2
  | .double => 3
  | .text => 4
  | .integer64 => 5

/-- `Packet::SerializeAsString`. -/
def serializePacket (packet : Packet) : Bytes :=
  optional packet.streamIdentifier? (fun identifier =>
      bytesField 1 (serializeStreamIdentifier identifier))
    ++ optional packet.startTime? (fun time => bytesField 2 (serializeTimestamp time))
    ++ optional packet.samplingRate? (fun rate => fixed64Field 3 rate.bits)
    ++ optional packet.dataType? (fun dataType => varintField 4 (dataTypeNumber dataType))
    ++ optional packet.numberOfSamples? (fun n => varintField 5 n.toUInt64)
    ++ optional packet.data? (bytesField 6)
    ++ optional packet.sequenceNumber? (varintField 7)

/-- `UU.FTU.HHZ` with sequence number 300. -/
example : serializePacket
    { streamIdentifier? := some ⟨some [85, 85], some [70, 84, 85], some [72, 72, 90], none⟩
      sequenceNumber? := some 300 } =
    [10, 14, 10, 2, 85, 85, 18, 3, 70, 84, 85, 26, 3, 72, 72, 90, 56, 172, 2] := by decide

end Wire
end UDataPacketBroker
