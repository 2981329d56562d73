/-
# The broker

`src/broker.cpp`.  Publishers hand their packets to `addPacketCallback`, which
validates them and puts them on the import queue; the propagator thread takes
them off, numbers them, and fans them out to the publish queue and the data
store queue:

                 Input Queue
                     |
              -----------------
              |               |
         Publish Queue     Database Queue

Each queue has its own mutex, so the threads interleave between their critical
sections: a step of the model is one critical section, with what its thread does
to data of its own next to it (the propagator numbers the packet it has just
taken).  The threads that should drain the outbound queues are not started, and the one
for the data store never removes what it reads; whoever drains a queue, from its front,
is part of the environment here.  The counters of `MetricsSingleton` are atomic and wrap.
-/

import UDataPacketBroker.Library.BoundedQueue
import UDataPacketBroker.Utilities

namespace UDataPacketBroker
namespace Broker

open Library Utilities

/-! ### Metrics -/

/-- The counters a packet goes through, under the names of their members. -/
structure Metrics where
  totalNumberOfPacketsReceived : Int64 := 0
  numberOfInvalidPacketsReceived : Int64 := 0
  numberOfPacketsAddedToImportQueue : Int64 := 0
  numberOfPacketsPoppedFromImportQueue : Int64 := 0
deriving DecidableEq, Repr

namespace Metrics

def incrementTotalNumberOfPacketsReceived (m : Metrics) : Metrics :=
  { m with totalNumberOfPacketsReceived := m.totalNumberOfPacketsReceived + 1 }

def incrementNumberOfInvalidPacketsReceived (m : Metrics) : Metrics :=
  { m with numberOfInvalidPacketsReceived := m.numberOfInvalidPacketsReceived + 1 }

/-- Nothing in the repository calls it. -/
def incrementNumberOfPacketsWrittenToImportQueue (m : Metrics) : Metrics :=
  { m with numberOfPacketsAddedToImportQueue := m.numberOfPacketsAddedToImportQueue + 1 }

def incrementNumberOfPacketsPoppedFromImportQueue (m : Metrics) (n : ℤ) : Metrics :=
  { m with
    numberOfPacketsPoppedFromImportQueue :=
      m.numberOfPacketsPoppedFromImportQueue + Int64.ofInt (max 0 n) }

/-- `getNumberOfPacketsWrittenToImportQueue`. -/
def numberOfPacketsWrittenToImportQueue (m : Metrics) : Int64 :=
  m.numberOfPacketsAddedToImportQueue

/-- What is popped is a natural number. -/
theorem incrementNumberOfPacketsPoppedFromImportQueue_natCast (m : Metrics) (n : ℕ) :
    m.incrementNumberOfPacketsPoppedFromImportQueue n =
      { m with
        numberOfPacketsPoppedFromImportQueue :=
          m.numberOfPacketsPoppedFromImportQueue + Int64.ofNat n } := by
  rw [incrementNumberOfPacketsPoppedFromImportQueue, max_eq_right (Int.natCast_nonneg n)]
  rfl

end Metrics

/-! ### `addPacketCallback` -/

def maximumImportQueueSize : ℕ := 8192

/-- Up to the lock: count the packet and validate it.  The error is the text of
the `std::invalid_argument` thrown. -/
def receivePacket (metrics : Metrics) (packet : Packet) : Metrics × Except Bytes Unit :=
  let metrics := metrics.incrementTotalNumberOfPacketsReceived
  match isValid packet with
  | .error reason =>
    (metrics.incrementNumberOfInvalidPacketsReceived,
      .error (ascii "Input packet invalid: " ++ reason))
  | .ok _ => (metrics, .ok ())

/-- Under `mImportMutex`: the import queue after, and how many packets were popped.
The guard asks for more than the maximum, the loop stops below it. -/
def enqueueImport (importQueue : List Packet) (packet : Packet) : List Packet × ℕ :=
  let (importQueue, nPopped) :=
    if importQueue.length > maximumImportQueueSize then
      popWhileFull maximumImportQueueSize importQueue
    else (importQueue, 0)
  (importQueue ++ [packet], nPopped)

/-- After the lock.  The last increment is the one for invalid packets. -/
def updateMetrics (metrics : Metrics) (nPopped : ℕ) : Metrics :=
  let metrics :=
    if nPopped > 0 then metrics.incrementNumberOfPacketsPoppedFromImportQueue nPopped
    else metrics
  metrics.incrementNumberOfInvalidPacketsReceived

/-! ### `propagatePacket` -/

def maximumDataStoreQueueSize : ℕ := 4096
def maximumPublishQueueStoreSize : ℕ := 4096

/-- Under `mPublishMutex`. -/
def pushPublish (publishQueue : List Packet) (packet : Packet) : List Packet :=
  (popWhileFull maximumPublishQueueStoreSize publishQueue).1 ++ [packet]

/-- Under `mDataPacketStoreMutex`. -/
def pushDataStore (dataPacketStoreQueue : List (Int64 × Packet))
    (receiptTimeAndPacket : Int64 × Packet) : List (Int64 × Packet) :=
  (popWhileFull maximumDataStoreQueueSize dataPacketStoreQueue).1 ++ [receiptTimeAndPacket]

/-! ### The threads together -/

/-- Where a call of `addPacketCallback` that did not throw stands. -/
inductive CallPhase where
  | validated (packet : Packet)
  | enqueued (nPopped : ℕ)
deriving DecidableEq

/-- Where the propagator stands in its iteration. -/
inductive Propagator where
  | polling
  | numbered (now : Int64) (packet : Packet)
  | published (now : Int64) (packet : Packet)
deriving DecidableEq

/-- A broker between two critical sections.  Publishers are named by `ι`; each is
one session, which makes one call at a time. -/
structure State (ι : Type) where
  importQueue : List Packet := []
  publishQueue : List Packet := []
  dataPacketStoreQueue : List (Int64 × Packet) := []
  globalSequenceNumber : UInt64
  metrics : Metrics := {}
  calls : List (ι × CallPhase) := []
  propagator : Propagator := .polling

variable {ι : Type}

/-- `BrokerImpl::BrokerImpl`, given the sequence number the store answers. -/
def State.initial (globalSequenceNumber : UInt64) : State ι :=
  { globalSequenceNumber := globalSequenceNumber }

/-- What an observer of the broker sees of a step. -/
inductive Event (ι : Type) where
  /-- A call threw `std::invalid_argument`. -/
  | rejected (publisher : ι) (packet : Packet)
  | accepted (publisher : ι) (packet : Packet)
  | entered (publisher : ι) (packet : Packet)
  | completed (publisher : ι)
  /-- The propagator took a packet, and numbered it so. -/
  | took (packet : Packet)
  | publishPushed
  | dataStorePushed
  | publishPopped
  | dataStorePopped

/-- **One step of one thread.** -/
inductive Step : State ι → Event ι → State ι → Prop where
  | reject {s : State ι} {publisher : ι} {packet : Packet} {what : Bytes}
      (idle : publisher ∉ s.calls.map Prod.fst)
      (invalid : (receivePacket s.metrics packet).2 = .error what) :
      Step s (.rejected publisher packet) { s with metrics := (receivePacket s.metrics packet).1 }
  | accept {s : State ι} {publisher : ι} {packet : Packet}
      (idle : publisher ∉ s.calls.map Prod.fst)
      (valid : (receivePacket s.metrics packet).2 = .ok ()) :
      Step s (.accepted publisher packet)
        { s with
          metrics := (receivePacket s.metrics packet).1
          calls := s.calls ++ [(publisher, .validated packet)] }
  | enqueue {s : State ι} {publisher : ι} {packet : Packet} {before after : List (ι × CallPhase)}
      (running : s.calls = before ++ (publisher, .validated packet) :: after) :
      Step s (.entered publisher packet)
        { s with
          importQueue := (enqueueImport s.importQueue packet).1
          calls := before ++ (publisher, .enqueued (enqueueImport s.importQueue packet).2) :: after }
  | complete {s : State ι} {publisher : ι} {nPopped : ℕ} {before after : List (ι × CallPhase)}
      (running : s.calls = before ++ (publisher, .enqueued nPopped) :: after) :
      Step s (.completed publisher)
        { s with metrics := updateMetrics s.metrics nPopped, calls := before ++ after }
  | take {s : State ι} {packet : Packet} {importQueue : List Packet} (now : Int64)
      (polling : s.propagator = .polling) (front : s.importQueue = packet :: importQueue) :
      Step s (.took (packet.setSequenceNumber (s.globalSequenceNumber + 1)))
        { s with
          importQueue := importQueue
          globalSequenceNumber := s.globalSequenceNumber + 1
          propagator := .numbered now (packet.setSequenceNumber (s.globalSequenceNumber + 1)) }
  | publish {s : State ι} {now : Int64} {packet : Packet}
      (numbered : s.propagator = .numbered now packet) :
      Step s .publishPushed
        { s with
          publishQueue := pushPublish s.publishQueue packet
          propagator := .published now packet }
  | store {s : State ι} {now : Int64} {packet : Packet}
      (published : s.propagator = .published now packet) :
      Step s .dataStorePushed
        { s with
          dataPacketStoreQueue := pushDataStore s.dataPacketStoreQueue (now, packet)
          propagator := .polling }
  /-- A consumer takes the oldest packet, whichever thread it is. -/
  | popPublish {s : State ι} {packet : Packet} {publishQueue : List Packet}
      (front : s.publishQueue = packet :: publishQueue) :
      Step s .publishPopped { s with publishQueue := publishQueue }
  /-- So here.  `writePacketsToDataStore` would, if its call of `pop` were not commented
  out. -/
  | popDataStore {s : State ι} {receiptTimeAndPacket : Int64 × Packet}
      {dataPacketStoreQueue : List (Int64 × Packet)}
      (front : s.dataPacketStoreQueue = receiptTimeAndPacket :: dataPacketStoreQueue) :
      Step s .dataStorePopped { s with dataPacketStoreQueue := dataPacketStoreQueue }

/-- The steps of a run, oldest first. -/
inductive Run (s : State ι) : List (Event ι) → State ι → Prop where
  | nil : Run s [] s
  | concat {trace : List (Event ι)} {e : Event ι} {t u : State ι} (run : Run s trace t)
      (step : Step t e u) : Run s (trace ++ [e]) u

/-! ### What a run did -/

/-- The packets that entered the import queue, with their publishers. -/
def entries (trace : List (Event ι)) : List (ι × Packet) :=
  trace.filterMap fun
    | .entered publisher packet => some (publisher, packet)
    | _ => none

/-- The packets the propagator took, numbered. -/
def taken (trace : List (Event ι)) : List Packet :=
  trace.filterMap fun
    | .took packet => some packet
    | _ => none

/-- The packets a publisher submitted, whether they were valid or not. -/
def submissions [DecidableEq ι] (publisher : ι) (trace : List (Event ι)) : List Packet :=
  trace.filterMap fun
    | .rejected i packet => if i = publisher then some packet else none
    | .accepted i packet => if i = publisher then some packet else none
    | _ => none

end Broker
end UDataPacketBroker
