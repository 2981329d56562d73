/-
# The response of a session

The response sums the session up: how many packets were read, how many were
invalid, and which one was processed last, so that a publisher can go on from
there with another broker.  The counters are right at every moment
(`Tracked`), but they are copied into the response where `OnReadDone` meets the
end of the stream, and nowhere else.  In a session that ends with a packet, because
the server shuts down or because of too many invalid ones, the response is still empty
when `Finish` is called (`accurate_iff`).
-/

import Mathlib.Algebra.Order.Ring.Int
import UDataPacketBroker.PublishService

namespace UDataPacketBroker
namespace PublishService

/-- The packets that were read, and how the callback ended on each. -/
def reads : List SessionEvent → List (Packet × CallbackOutcome)
  | [] => []
  | .read packet outcome _ _ :: rest => (packet, outcome) :: reads rest
  | .endOfStream _ :: rest => reads rest

/-- The reads of a trace in two parts. -/
theorem reads_append (trace trace' : List SessionEvent) :
    reads (trace ++ trace') = reads trace ++ reads trace' := by
  induction trace with
  | nil => rfl
  | cons e trace ih => cases e <;> simp [reads, ih]

/-- The packets on which the callback ended in one way. -/
def packetsThat (outcome : CallbackOutcome) (trace : List SessionEvent) : List Packet :=
  ((reads trace).filter (·.2 = outcome)).map Prod.fst

/-- The packets of one outcome in a trace in two parts. -/
theorem packetsThat_append (outcome : CallbackOutcome) (trace trace' : List SessionEvent) :
    packetsThat outcome (trace ++ trace') =
      packetsThat outcome trace ++ packetsThat outcome trace' := by
  rw [packetsThat, reads_append, List.filter_append, List.map_append]
  rfl

/-- The identification of a packet, and the default where there is none. -/
def identify : Option Packet → LastPacketIdentifier
  | none => {}
  | some packet => ⟨some packet.streamIdentifier, some packet.sequenceNumber⟩

/-- **A response that sums up the session.** -/
structure Accurate (trace : List SessionEvent) (response : PublishResponse) : Prop where
  totalPackets : response.totalPackets.toNat = (reads trace).length
  invalidPackets : response.invalidPackets.toNat = (packetsThat .invalidArgument trace).length
  lastPacketIdentifier :
    response.lastPacketIdentifier = identify (packetsThat .returned trace).getLast?

/-! ### The counters -/

/-- The members of a reader after the calls of a trace. -/
structure Tracked (trace : List SessionEvent) (reader : AsynchronousReader) : Prop where
  totalPackets : reader.totalPackets = UInt64.ofNat (reads trace).length
  invalidPackets : reader.invalidPackets = UInt64.ofNat (packetsThat .invalidArgument trace).length
  lastPacketIdentifier :
    reader.lastPacketIdentifier = identify (packetsThat .returned trace).getLast?

namespace AsynchronousReader

/-- The operation that `OnReadDone(true)` ends with. -/
theorem exists_operation_onReadOk (reader : AsynchronousReader) (packet : Packet)
    (outcome : CallbackOutcome) (movedFrom : Packet) (keepRunning : Bool) :
    ∃ operation : Operation,
      (operation = .startRead ∨
        ∃ status : Status, status.code ≠ .ok ∧ operation = .finish status reader.response) ∧
      reader.onReadOk packet outcome movedFrom keepRunning =
        { ({ reader with
              currentPacket := packet
              totalPackets := reader.totalPackets + 1 } : AsynchronousReader).invokeCallback
            outcome movedFrom with operations := reader.operations ++ [operation] } := by
  unfold onReadOk
  dsimp only
  split_ifs
  · exact ⟨.finish ⟨.invalidArgument, _⟩ reader.response, Or.inr ⟨_, by rintro ⟨⟩, rfl⟩,
      by cases outcome <;> rfl⟩
  · exact ⟨.startRead, Or.inl rfl, by cases outcome <;> rfl⟩
  · exact ⟨.finish serverShutdown reader.response, Or.inr ⟨_, by decide, rfl⟩,
      by cases outcome <;> rfl⟩

/-- A read leaves the response as it was. -/
theorem response_onReadOk (reader : AsynchronousReader) (packet : Packet)
    (outcome : CallbackOutcome) (movedFrom : Packet) (keepRunning : Bool) :
    (reader.onReadOk packet outcome movedFrom keepRunning).response = reader.response := by
  obtain ⟨operation, -, heq⟩ :=
    reader.exists_operation_onReadOk packet outcome movedFrom keepRunning
  rw [heq]
  cases outcome <;> rfl

end AsynchronousReader

/-- **A call of `OnReadDone` keeps the counters right.** -/
theorem Tracked.step {trace : List SessionEvent} {reader : AsynchronousReader}
    (h : Tracked trace reader) (e : SessionEvent) :
    Tracked (trace ++ [e]) (reader.onReadDone e) := by
  obtain ⟨htotal, hinvalid, hlast⟩ := h
  cases e with
  | endOfStream keepRunning =>
      have hreads : reads (trace ++ [.endOfStream keepRunning]) = reads trace := by
        rw [reads_append, reads, reads, List.append_nil]
      have hpackets (outcome : CallbackOutcome) :
          packetsThat outcome (trace ++ [.endOfStream keepRunning]) = packetsThat outcome trace := by
        rw [packetsThat, hreads, packetsThat]
      constructor
      · rw [hreads, ← htotal]
        cases keepRunning <;> rfl
      · rw [hpackets, ← hinvalid]
        cases keepRunning <;> rfl
      · rw [hpackets, ← hlast]
        cases keepRunning <;> rfl
  | read packet outcome movedFrom keepRunning =>
      obtain ⟨operation, -, heq⟩ :=
        reader.exists_operation_onReadOk packet outcome movedFrom keepRunning
      rw [AsynchronousReader.onReadDone, heq]
      constructor
      · rw [reads_append, List.length_append, UInt64.ofNat_add, ← htotal]
        cases outcome <;> rfl
      · rw [packetsThat_append, List.length_append, UInt64.ofNat_add, ← hinvalid]
        cases outcome with
        | invalidArgument => rfl
        | returned => exact (UInt64.add_zero _).symm
        | otherException => exact (UInt64.add_zero _).symm
      · rw [packetsThat_append]
        cases outcome with
        | returned => simp [packetsThat, reads, identify, AsynchronousReader.invokeCallback]
        | invalidArgument => exact hlast.trans (by rw [packetsThat, packetsThat]; simp [reads])
        | otherException => exact hlast.trans (by rw [packetsThat, packetsThat]; simp [reads])

/-! ### The operations -/

/-- How far a session is: it waits for a read, or it finished, with which status and
response. -/
inductive Progress (trace : List SessionEvent) (reader : AsynchronousReader) : Prop
  | reading (operations : reader.operations = List.replicate (trace.length + 1) .startRead)
      (response : reader.response = {})
  | unfilled (status : Status)
      (operations : reader.operations =
        List.replicate trace.length .startRead ++ [.finish status {}])
      (fails : status.code = .ok → trace = [])
      (last : ∀ before keepRunning, trace ≠ before ++ [.endOfStream keepRunning])
  | filled (status : Status) (before : List SessionEvent) (keepRunning : Bool)
      (operations : reader.operations =
        List.replicate trace.length .startRead ++ [.finish status reader.response])
      (isOk : status.code = .ok ↔ keepRunning = true)
      (last : trace = before ++ [.endOfStream keepRunning])
      (response : reader.response =
        { lastPacketIdentifier? := some reader.lastPacketIdentifier
          totalPackets? := some reader.totalPackets
          invalidPackets? := some reader.invalidPackets })

/-- A reader that finished once has one status and one response. -/
theorem eq_of_finish_mem {n : ℕ} {status status' : Status} {response response' : PublishResponse}
    (h : .finish status response ∈
      List.replicate n Operation.startRead ++ [.finish status' response']) :
    status = status' ∧ response = response' := by
  rcases List.mem_append.1 h with h | h
  · cases List.eq_of_mem_replicate h
  · exact Operation.finish.inj (List.mem_singleton.1 h)

/-- A reader that gRPC owes an `OnReadDone` has started reads only. -/
theorem Progress.reading_of_outstanding {trace : List SessionEvent} {reader : AsynchronousReader}
    (h : Progress trace reader) (outstanding : trace.length < reader.operations.count .startRead) :
    reader.operations = List.replicate (trace.length + 1) .startRead ∧ reader.response = {} := by
  cases h with
  | reading operations response => exact ⟨operations, response⟩
  | unfilled status operations fails last =>
      rw [operations] at outstanding
      simp at outstanding
  | filled status before keepRunning operations isOk last response =>
      rw [operations] at outstanding
      simp at outstanding

/-- **A read leads to the next read or to `Finish`.** -/
theorem Progress.step {trace : List SessionEvent} {reader : AsynchronousReader}
    (h : Progress trace reader) (outstanding : trace.length < reader.operations.count .startRead)
    (e : SessionEvent) : Progress (trace ++ [e]) (reader.onReadDone e) := by
  have hlength : (trace ++ [e]).length = trace.length + 1 := List.length_append
  obtain ⟨operations, response⟩ := h.reading_of_outstanding outstanding
  cases e with
  | endOfStream keepRunning =>
      obtain ⟨status, hisOk, hfinish⟩ : ∃ status : Status,
          (status.code = .ok ↔ keepRunning = true) ∧
          (reader.onReadNotOk keepRunning).operations =
            reader.operations ++ [.finish status (reader.onReadNotOk keepRunning).response] := by
        cases keepRunning <;> exact ⟨_, by decide, rfl⟩
      refine .filled status trace keepRunning ?_ hisOk rfl ?_
      · rw [hlength, ← operations]
        exact hfinish
      · cases keepRunning <;> simp [AsynchronousReader.onReadDone,
          AsynchronousReader.onReadNotOk, AsynchronousReader.finish, response]
  | read packet outcome movedFrom keepRunning =>
      have hresponse := reader.response_onReadOk packet outcome movedFrom keepRunning
      obtain ⟨operation, hoperation, heq⟩ :=
        reader.exists_operation_onReadOk packet outcome movedFrom keepRunning
      have hoperations : (reader.onReadOk packet outcome movedFrom keepRunning).operations
          = List.replicate (trace.length + 1) .startRead ++ [operation] := by
        rw [heq, ← operations]
      rcases hoperation with rfl | ⟨status, hstatus, rfl⟩
      · refine .reading ?_ (hresponse.trans response)
        rw [hlength, List.replicate_succ', ← hoperations]
        rfl
      · refine .unfilled status ?_ (fun hok => absurd hok hstatus) fun before keepRunning' heq' => ?_
        · rw [hlength, ← response]
          exact hoperations
        · cases (List.append_inj' heq' rfl).2

/-! ### Sessions -/

/-- A reader that the constructor finishes has an empty response. -/
theorem progress_finish (maximum : UInt32) (registered : Bool) (status : Status) :
    Tracked [] (AsynchronousReader.finish
        { maximumConsecutiveInvalidMessages := maximum, registered := registered } status) ∧
      Progress [] (AsynchronousReader.finish
        { maximumConsecutiveInvalidMessages := maximum, registered := registered } status) := by
  refine ⟨⟨rfl, rfl, rfl⟩, .unfilled status rfl (fun _ => rfl) fun before keepRunning h => ?_⟩
  simp at h

/-- A reader that registers starts with a read, or is finished at once. -/
theorem progress_register (maximum : UInt32) (publisherCount : ℤ) (keepRunning : Bool) :
    Tracked [] (AsynchronousReader.register publisherCount keepRunning
        { maximumConsecutiveInvalidMessages := maximum }).2 ∧
      Progress [] (AsynchronousReader.register publisherCount keepRunning
        { maximumConsecutiveInvalidMessages := maximum }).2 := by
  cases keepRunning with
  | true => exact ⟨⟨rfl, rfl, rfl⟩, .reading rfl rfl⟩
  | false => exact progress_finish maximum true {}

/-- So an admitted reader starts with a read, or is finished at once. -/
theorem progress_construct (options : PublishServiceOptions) (isSecured : Bool)
    (clientMetadata : List (Bytes × Bytes)) (publisherCount : ℤ) (keepRunning : Bool)
    (hadmission :
      AsynchronousReader.admission options isSecured clientMetadata publisherCount = .ok ()) :
    Tracked [] (AsynchronousReader.construct options isSecured clientMetadata publisherCount
        keepRunning).2 ∧
      Progress [] (AsynchronousReader.construct options isSecured clientMetadata publisherCount
        keepRunning).2 := by
  unfold AsynchronousReader.construct
  dsimp only
  rw [hadmission]
  exact progress_register options.maximumConsecutiveInvalidMessages publisherCount keepRunning

/-- So the counters are right, and the operations in order, throughout a session. -/
theorem progress_session {start reader : AsynchronousReader} {trace : List SessionEvent}
    (hstart : Tracked [] start ∧ Progress [] start) (hsession : Session start trace reader) :
    Tracked trace reader ∧ Progress trace reader := by
  induction hsession with
  | nil => exact hstart
  | concat e _ outstanding ih => exact ⟨ih.1.step e, ih.2.step outstanding e⟩

/-- **When the response is accurate.**  The response of an admitted session at `Finish`
sums it up exactly when its last call of `OnReadDone` did not read a packet, and
it read fewer than 2^64 packets. -/
theorem accurate_iff (options : PublishServiceOptions) (isSecured : Bool)
    (clientMetadata : List (Bytes × Bytes)) (publisherCount : ℤ) (keepRunning : Bool)
    (hadmission :
      AsynchronousReader.admission options isSecured clientMetadata publisherCount = .ok ())
    {trace : List SessionEvent} {reader : AsynchronousReader}
    (hsession : Session (AsynchronousReader.construct options isSecured clientMetadata
      publisherCount keepRunning).2 trace reader)
    {status : Status} {response : PublishResponse}
    (hfinish : .finish status response ∈ reader.operations) :
    Accurate trace response ↔ (reads trace).length < 2 ^ 64 ∧
      ∀ before packet outcome movedFrom keepRunning,
        trace ≠ before ++ [.read packet outcome movedFrom keepRunning] := by
  have hstart :=
    progress_construct options isSecured clientMetadata publisherCount keepRunning hadmission
  obtain ⟨⟨htotal, hinvalid, hlast⟩, hprogress⟩ := progress_session hstart hsession
  cases hprogress with
  | reading operations _ =>
      rw [operations] at hfinish
      cases List.eq_of_mem_replicate hfinish
  | unfilled status' operations fails last =>
      rw [operations] at hfinish
      obtain ⟨-, rfl⟩ := eq_of_finish_mem hfinish
      rcases List.eq_nil_or_concat trace with rfl | ⟨before, e, htrace⟩
      · exact iff_of_true ⟨rfl, rfl, rfl⟩ ⟨by decide, fun before _ _ _ _ h => by simp at h⟩
      · rw [List.concat_eq_append] at htrace
        subst htrace
        cases e with
        | endOfStream keepRunning' => exact absurd rfl (last before keepRunning')
        | read packet outcome movedFrom keepRunning' =>
            refine iff_of_false (fun h => ?_) fun h => h.2 _ _ _ _ _ rfl
            have hzero := h.totalPackets
            rw [reads_append, List.length_append] at hzero
            exact absurd hzero (Nat.succ_ne_zero _).symm
  | filled status' before keepRunning' operations isOk last hresponse =>
      rw [operations] at hfinish
      obtain ⟨-, rfl⟩ := eq_of_finish_mem hfinish
      have hinvalidLe : (packetsThat .invalidArgument trace).length ≤ (reads trace).length := by
        rw [packetsThat, List.length_map]
        exact List.length_filter_le _ _
      rw [hresponse]
      constructor
      · rintro ⟨hreads, -, -⟩
        refine ⟨hreads ▸ UInt64.toNat_lt _, fun before' packet outcome movedFrom running h => ?_⟩
        rw [last] at h
        cases (List.append_inj' h rfl).2
      · rintro ⟨hreads, -⟩
        refine ⟨?_, ?_, hlast⟩
        · exact (congrArg UInt64.toNat htotal).trans (UInt64.toNat_ofNat_of_lt' hreads)
        · exact (congrArg UInt64.toNat hinvalid).trans
            (UInt64.toNat_ofNat_of_lt' (hinvalidLe.trans_lt hreads))

/-- A publisher ends its stream after a packet and an invalid one, while the server shuts
down.  The response says so. -/
theorem accurate_iff_samplePacket :
    ∃ reader, Session (AsynchronousReader.construct {} false [] 0 true).2
        [.read (samplePacket 7) .returned {} true, .read {} .invalidArgument {} true,
          .endOfStream false] reader ∧
      ∀ status response, .finish status response ∈ reader.operations →
        response.totalPackets.toNat = 2 ∧ response.invalidPackets.toNat = 1 ∧
        response.lastPacketIdentifier =
          ⟨(samplePacket 7).streamIdentifier?, (samplePacket 7).sequenceNumber?⟩ := by
  have hstart : Session (AsynchronousReader.construct {} false [] 0 true).2 [] _ := .nil
  have hsession := ((hstart.concat (.read (samplePacket 7) .returned {} true) (by decide)).concat
    (.read {} .invalidArgument {} true) (by decide)).concat (.endOfStream false) (by decide)
  refine ⟨_, hsession, fun status response hfinish => ?_⟩
  have hlast : ∀ before packet outcome movedFrom keepRunning,
      [SessionEvent.read (samplePacket 7) .returned {} true, .read {} .invalidArgument {} true,
        .endOfStream false] ≠ before ++ [.read packet outcome movedFrom keepRunning] := by
    intro before packet outcome movedFrom keepRunning h
    have hsame := congrArg List.getLast? h
    rw [List.getLast?_concat] at hsame
    cases hsame
  have haccurate := (accurate_iff {} false [] 0 true rfl hsession hfinish).2 ⟨by decide, hlast⟩
  exact ⟨haccurate.totalPackets, haccurate.invalidPackets, haccurate.lastPacketIdentifier⟩

/-- **A shutdown right after a packet leaves the response empty,** though the packet was
read and processed. -/
theorem not_accurate_samplePacket :
    ¬ ∀ (options : PublishServiceOptions) (isSecured : Bool)
      (clientMetadata : List (Bytes × Bytes)) (publisherCount : ℤ) (keepRunning : Bool)
      (trace : List SessionEvent) (reader : AsynchronousReader) (status : Status)
      (response : PublishResponse),
      AsynchronousReader.admission options isSecured clientMetadata publisherCount = .ok () →
      Session (AsynchronousReader.construct options isSecured clientMetadata publisherCount
        keepRunning).2 trace reader →
      .finish status response ∈ reader.operations → Accurate trace response := by
  intro h
  have hstart : Session (AsynchronousReader.construct {} false [] 0 true).2 [] _ := .nil
  have hsession := hstart.concat (.read (samplePacket 7) .returned {} false) (by decide)
  have haccurate := h {} false [] 0 true _ _ AsynchronousReader.serverShutdown {} rfl hsession
    (by decide)
  exact absurd haccurate.totalPackets (by decide)

end PublishService
end UDataPacketBroker
