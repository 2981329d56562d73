/-
# The publish service

`src/publishService.cpp`.  One `AsynchronousReader` serves each client-streaming
`Publish` call.  gRPC is not part of the repository; it calls the members of a
reader one at a time, first the constructor and then `OnReadDone` once for each
`StartRead`.  A reader of the model keeps the operations it asked of gRPC in a
list, each `Finish` with the `PublishResponse` as it is then.  That is what gRPC sends if
the status is OK; with any other status it drops the response (`Operation.sent`).

What other threads and the client decide is an argument of the call that meets
it: the number of publishers, `mKeepRunning`, the packet read, and how the
callback ends.
-/

import UDataPacketBroker.Proto

namespace UDataPacketBroker
namespace PublishService

/-- The codes of `grpc::StatusCode` that the service uses. -/
inductive StatusCode where
  | ok | invalidArgument | resourceExhausted | unavailable | unauthenticated
deriving DecidableEq, Repr

/-- `grpc::Status`.  Its default is `grpc::Status::OK`. -/
structure Status where
  code : StatusCode := .ok
  message : Bytes := []
deriving DecidableEq, Repr

/-- An operation that a reader asks of gRPC.  `response` is the object that the reader
points to, when it calls `Finish`. -/
inductive Operation where
  | startRead
  | finish (status : Status) (response : PublishResponse)
deriving DecidableEq, Repr

/-- The response that gRPC sends to the client. -/
def Operation.sent : Operation → Option PublishResponse
  | .startRead => none
  | .finish status response => if status.code = .ok then some response else none

/-- What a reader reads of the `PublishServiceOptions`.  The setter throws on a
maximum below 1. -/
structure PublishServiceOptions where
  maximumNumberOfPublishers : ℤ := 64
  maximumNumberOfPublishers_pos : 1 ≤ maximumNumberOfPublishers := by decide
  maximumConsecutiveInvalidMessages : UInt32 := 16
  accessToken : Option Bytes := none

/-- `validatePublisher`. -/
def validatePublisher (clientMetadata : List (Bytes × Bytes)) (accessToken : Bytes) : Bool :=
  accessToken.isEmpty || clientMetadata.any fun item =>
    item.1 == ascii "x-custom-auth-token" && item.2 == accessToken

/-- The members of `AsynchronousReader`, the response it points to, and the
operations it asked of gRPC. -/
structure AsynchronousReader where
  response : PublishResponse := {}
  currentPacket : Packet := {}
  lastPacketIdentifier : LastPacketIdentifier := {}
  totalPackets : UInt64 := 0
  invalidPackets : UInt64 := 0
  invalidMessageCounter : UInt32 := 0
  maximumConsecutiveInvalidMessages : UInt32 := 8
  registered : Bool := false
  operations : List Operation := []

/-- How a call of the callback ends. -/
inductive CallbackOutcome where
  | returned | invalidArgument | otherException
deriving DecidableEq, Repr

namespace AsynchronousReader

def startRead (reader : AsynchronousReader) : AsynchronousReader :=
  { reader with operations := reader.operations ++ [.startRead] }

/-- `Finish`, whatever gRPC makes of the response. -/
def finish (reader : AsynchronousReader) (status : Status) : AsynchronousReader :=
  { reader with operations := reader.operations ++ [.finish status reader.response] }

/-! ### The constructor -/

/-- The limit and the access token: the status a session is turned away with.  On a
server that is not secured a token is not checked. -/
def admission (options : PublishServiceOptions) (isSecured : Bool)
    (clientMetadata : List (Bytes × Bytes)) (publisherCount : ℤ) : Except Status Unit :=
  if publisherCount ≥ options.maximumNumberOfPublishers then
    .error ⟨.resourceExhausted, ascii "Maximum publisher limit reached"⟩
  else if isSecured then
    match options.accessToken with
    | none => .ok ()
    | some accessToken =>
      if validatePublisher clientMetadata accessToken then .ok ()
      else .error ⟨.unauthenticated, ascii "Invalid access token"⟩
  else .ok ()

/-- From `fetch_add` to the end of the constructor: the number of publishers after it,
and the reader. -/
def register (publisherCount : ℤ) (keepRunning : Bool) (reader : AsynchronousReader) :
    ℤ × AsynchronousReader :=
  let reader := { reader with registered := true }
  (publisherCount + 1, if keepRunning then reader.startRead else reader.finish {})

/-- `AsynchronousReader::AsynchronousReader`, with no other session in between. -/
def construct (options : PublishServiceOptions) (isSecured : Bool)
    (clientMetadata : List (Bytes × Bytes)) (publisherCount : ℤ) (keepRunning : Bool) :
    ℤ × AsynchronousReader :=
  let reader : AsynchronousReader :=
    { maximumConsecutiveInvalidMessages := options.maximumConsecutiveInvalidMessages }
  match admission options isSecured clientMetadata publisherCount with
  | .error status => (publisherCount, reader.finish status)
  | .ok _ => reader.register publisherCount keepRunning

/-! ### `OnReadDone` -/

/-- The status of a session that the server ends. -/
def serverShutdown : Status := ⟨.unavailable, ascii "Server shutdown - try again later"⟩

/-- The call of the callback and the handlers around it.  `movedFrom` is what the
callback leaves in `mCurrentPacket`; what the reader needs was copied before. -/
def invokeCallback (reader : AsynchronousReader) (outcome : CallbackOutcome)
    (movedFrom : Packet) : AsynchronousReader :=
  let lastSequenceNumber := reader.currentPacket.sequenceNumber
  let lastStreamIdentifier := reader.currentPacket.streamIdentifier
  let reader := { reader with currentPacket := movedFrom }
  match outcome with
  | .returned =>
    { reader with
      invalidMessageCounter := 0
      lastPacketIdentifier := ⟨some lastStreamIdentifier, some lastSequenceNumber⟩ }
  | .invalidArgument =>
    { reader with
      invalidMessageCounter := reader.invalidMessageCounter + 1
      invalidPackets := reader.invalidPackets + 1 }
  | .otherException => reader

/-- `OnReadDone(true)`, after gRPC put `packet` into `mCurrentPacket`. -/
def onReadOk (reader : AsynchronousReader) (packet : Packet) (outcome : CallbackOutcome)
    (movedFrom : Packet) (keepRunning : Bool) : AsynchronousReader :=
  let reader :=
    { reader with currentPacket := packet, totalPackets := reader.totalPackets + 1 }
  let reader := reader.invokeCallback outcome movedFrom
  if outcome = .invalidArgument ∧
      reader.invalidMessageCounter > reader.maximumConsecutiveInvalidMessages then
    reader.finish ⟨.invalidArgument,
      ascii "Too many consecutive messages were invalid - check API"⟩
  else if keepRunning then reader.startRead
  else reader.finish serverShutdown

/-- `OnReadDone(false)`. -/
def onReadNotOk (reader : AsynchronousReader) (keepRunning : Bool) : AsynchronousReader :=
  let reader :=
    { reader with response :=
      { reader.response with
        totalPackets? := some reader.totalPackets
        invalidPackets? := some reader.invalidPackets
        lastPacketIdentifier? := some reader.lastPacketIdentifier } }
  if keepRunning then reader.finish {} else reader.finish serverShutdown

end AsynchronousReader

/-! ### Sessions -/

/-- One call of `OnReadDone`. -/
inductive SessionEvent where
  | read (packet : Packet) (outcome : CallbackOutcome) (movedFrom : Packet) (keepRunning : Bool)
  | endOfStream (keepRunning : Bool)

namespace AsynchronousReader

/-- `AsynchronousReader::OnReadDone`. -/
def onReadDone (reader : AsynchronousReader) : SessionEvent → AsynchronousReader
  | .read packet outcome movedFrom keepRunning =>
    reader.onReadOk packet outcome movedFrom keepRunning
  | .endOfStream keepRunning => reader.onReadNotOk keepRunning

/-! ### `OnDone` -/

/-- `AsynchronousReader::OnDone`: the number of publishers after it. -/
def onDone (reader : AsynchronousReader) (publisherCount : ℤ) : ℤ :=
  if reader.registered then publisherCount - 1 else publisherCount

end AsynchronousReader

/-- The life of a reader after its constructor: gRPC answers each `StartRead` once. -/
inductive Session (start : AsynchronousReader) : List SessionEvent → AsynchronousReader → Prop
  | nil : Session start [] start
  | concat {trace : List SessionEvent} {reader : AsynchronousReader} (e : SessionEvent)
      (session : Session start trace reader)
      (outstanding : trace.length < reader.operations.count .startRead) :
      Session start (trace ++ [e]) (reader.onReadDone e)

end PublishService
end UDataPacketBroker
