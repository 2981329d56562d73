/-
# The messages of the broker API

`uDataPacketBrokerAPI/v1/stream_identifier.proto`, `packet.proto`,
`data_type.proto` and `publish_response.proto`.  The files use edition 2023, so
every singular field has explicit presence: a field is an `Option`, `has_x` asks
whether it is set, and the getter `x` answers the declared default when it is
not.  A `string` field holds whatever bytes a client put there, so strings are
byte lists.
-/

import UDataPacketBroker.Library.Words

namespace UDataPacketBroker

/-- The contents of an `std::string`. -/
abbrev Bytes := List UInt8

/-- A text literal of the source.  The literals are ASCII. -/
def ascii (text : String) : Bytes := text.toList.map fun c => c.toNat.toUInt8

/-- The location code `"--"`. -/
def dashes : Bytes := [0x2D, 0x2D]

/-- `StreamIdentifier` (`stream_identifier.proto`). -/
structure StreamIdentifier where
  network? : Option Bytes := none
  station? : Option Bytes := none
  channel? : Option Bytes := none
  locationCode? : Option Bytes := none
deriving DecidableEq, Repr

namespace StreamIdentifier

def hasNetwork (identifier : StreamIdentifier) : Bool := identifier.network?.isSome
def hasStation (identifier : StreamIdentifier) : Bool := identifier.station?.isSome
def hasChannel (identifier : StreamIdentifier) : Bool := identifier.channel?.isSome
def hasLocationCode (identifier : StreamIdentifier) : Bool := identifier.locationCode?.isSome

def network (identifier : StreamIdentifier) : Bytes := identifier.network?.getD []
def station (identifier : StreamIdentifier) : Bytes := identifier.station?.getD []
def channel (identifier : StreamIdentifier) : Bytes := identifier.channel?.getD []
/-- The only field with a declared default: `location_code = 4 [default = "--"]`. -/
def locationCode (identifier : StreamIdentifier) : Bytes := identifier.locationCode?.getD dashes

end StreamIdentifier

/-- `DataType` (`data_type.proto`). -/
inductive DataType where
  | unknown | integer32 | float | double | text | integer64
deriving DecidableEq, Repr

/-- `google.protobuf.Timestamp`. -/
structure Timestamp where
  seconds : Int64
  nanos : Int32
deriving DecidableEq, Repr

/-- A `double`, as its binary64 bit pattern. -/
structure Binary64 where
  bits : UInt64
deriving DecidableEq, Repr

namespace Binary64

/-- The pattern without its sign bit. -/
def magnitude (x : Binary64) : UInt64 := x.bits &&& 0x7FFFFFFFFFFFFFFF

/-- All exponent bits set and a fraction: not a number. -/
def isNaN (x : Binary64) : Bool := 0x7FF0000000000000 < x.magnitude

/-- `x <= 0`: a zero of either sign or a negative number.  A NaN compares false. -/
def leZero (x : Binary64) : Bool :=
  !x.isNaN && (x.magnitude == 0 || x.bits != x.magnitude)

end Binary64

/-- `Packet` (`packet.proto`). -/
structure Packet where
  streamIdentifier? : Option StreamIdentifier := none
  startTime? : Option Timestamp := none
  samplingRate? : Option Binary64 := none
  dataType? : Option DataType := none
  numberOfSamples? : Option UInt32 := none
  data? : Option Bytes := none
  sequenceNumber? : Option UInt64 := none
deriving DecidableEq, Repr

namespace Packet

def hasStreamIdentifier (packet : Packet) : Bool := packet.streamIdentifier?.isSome
def hasStartTime (packet : Packet) : Bool := packet.startTime?.isSome
def hasSamplingRate (packet : Packet) : Bool := packet.samplingRate?.isSome
def hasDataType (packet : Packet) : Bool := packet.dataType?.isSome
def hasNumberOfSamples (packet : Packet) : Bool := packet.numberOfSamples?.isSome

/-- An unset identifier reads as the default instance, with every field unset. -/
def streamIdentifier (packet : Packet) : StreamIdentifier := packet.streamIdentifier?.getD {}
def samplingRate (packet : Packet) : Binary64 := packet.samplingRate?.getD ⟨0⟩
def sequenceNumber (packet : Packet) : UInt64 := packet.sequenceNumber?.getD 0

def setSequenceNumber (packet : Packet) (sequenceNumber : UInt64) : Packet :=
  { packet with sequenceNumber? := some sequenceNumber }

/-- A number that was set is read back. -/
@[simp] theorem sequenceNumber_setSequenceNumber (packet : Packet) (s : UInt64) :
    (packet.setSequenceNumber s).sequenceNumber = s := rfl

end Packet

/-- `PublishResponse.LastPacketIdentifier` (`publish_response.proto`). -/
structure LastPacketIdentifier where
  streamIdentifier? : Option StreamIdentifier := none
  sequenceNumber? : Option UInt64 := none
deriving DecidableEq, Repr

/-- `PublishResponse` (`publish_response.proto`). -/
structure PublishResponse where
  lastPacketIdentifier? : Option LastPacketIdentifier := none
  totalPackets? : Option UInt64 := none
  invalidPackets? : Option UInt64 := none
  messages? : Option Bytes := none
deriving DecidableEq, Repr

namespace PublishResponse

def lastPacketIdentifier (response : PublishResponse) : LastPacketIdentifier :=
  response.lastPacketIdentifier?.getD {}
def totalPackets (response : PublishResponse) : UInt64 := response.totalPackets?.getD 0
def invalidPackets (response : PublishResponse) : UInt64 := response.invalidPackets?.getD 0

end PublishResponse

/-- A second of `UU.FTU.HHZ.01`, under a sequence number. -/
def samplePacket (s : UInt64) : Packet where
  streamIdentifier? := some ⟨some [85, 85], some [70, 84, 85], some [72, 72, 90], some [48, 49]⟩
  startTime? := some ⟨1700000000, 0⟩
  samplingRate? := some ⟨0x4059000000000000⟩
  dataType? := some .integer32
  numberOfSamples? := some 100
  data? := some []
  sequenceNumber? := some s

end UDataPacketBroker
