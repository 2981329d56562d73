/-
# Consecutive invalid messages

A publisher that goes on sending invalid packets is cut off.  `OnReadDone` counts the
run of invalid messages in 32 bits: a packet that was accepted ends the run, and any
other exception leaves it as it is.  The options say that the client is purged after
the maximum of consecutive invalid messages.  The reader counts a message and then
asks for more than the maximum, so it sits through that one and purges at the next
(`finishedInvalid_iff`), and where the maximum is the largest 32-bit number, never.
-/

import Mathlib.Data.List.Induction
import UDataPacketBroker.PublishService.Protocol

namespace UDataPacketBroker
namespace PublishService

/-! ### Runs of invalid messages -/

/-- What a call of `OnReadDone` does to the run of consecutive invalid messages. -/
def extendRun (run : ℕ) : SessionEvent → ℕ
  | .read _ .returned _ _ => 0
  | .read _ .invalidArgument _ _ => run + 1
  | .read _ .otherException _ _ => run
  | .endOfStream _ => run

/-- The consecutive invalid messages that a session is at. -/
def invalidRun (trace : List SessionEvent) : ℕ := trace.foldl extendRun 0

/-- **The last message is the first one** that makes the run reach the limit. -/
structure ReachesAtLast (limit : ℕ) (trace : List SessionEvent) : Prop where
  reached : limit ≤ invalidRun trace
  first : ∀ front, front <+: trace → front ≠ trace → invalidRun front < limit

/-- The run of invalid messages after one more event. -/
theorem invalidRun_concat (trace : List SessionEvent) (e : SessionEvent) :
    invalidRun (trace ++ [e]) = extendRun (invalidRun trace) e := by
  rw [invalidRun, List.foldl_append]
  rfl

/-- An event lengthens the run by one at most. -/
theorem extendRun_le (run : ℕ) (e : SessionEvent) : extendRun run e ≤ run + 1 := by
  cases e with
  | endOfStream keepRunning => exact Nat.le_succ run
  | read packet outcome movedFrom keepRunning => cases outcome <;> simp [extendRun]

/-- A proper front of a trace ends before its last event. -/
theorem prefix_of_prefix_concat {front trace : List SessionEvent} {e : SessionEvent}
    (h : front <+: trace ++ [e]) (hne : front ≠ trace ++ [e]) : front <+: trace := by
  rcases List.prefix_concat_iff.1 h with heq | hfront
  · exact absurd heq hne
  · exact hfront

/-- If the limit was not reached before, the last event reaches it or none does. -/
theorem reachesAtLast_concat_iff {limit : ℕ} {trace : List SessionEvent} (e : SessionEvent)
    (h : ∀ front, front <+: trace → invalidRun front < limit) :
    ReachesAtLast limit (trace ++ [e]) ↔ limit ≤ invalidRun (trace ++ [e]) :=
  ⟨fun hreaches => hreaches.reached, fun hreached =>
    ⟨hreached, fun front hfront hne => h front (prefix_of_prefix_concat hfront hne)⟩⟩

/-- The run grows by one at a time, so it hits the limit. -/
theorem ReachesAtLast.invalidRun_eq {limit : ℕ} {trace : List SessionEvent}
    (h : ReachesAtLast limit trace) : invalidRun trace = limit := by
  obtain ⟨hreached, hfirst⟩ := h
  rcases List.eq_nil_or_concat trace with rfl | ⟨front, e, rfl⟩
  · exact (Nat.eq_zero_of_le_zero hreached).symm
  · rw [List.concat_eq_append] at hreached hfirst ⊢
    have hfront := hfirst front (List.prefix_append ..) (by simp)
    have hgrows := extendRun_le (invalidRun front) e
    rw [invalidRun_concat] at hreached ⊢
    omega

/-- A session that reaches the limit reaches it at some message. -/
theorem exists_reachesAtLast {limit : ℕ} {trace : List SessionEvent}
    (h : ∃ front, front <+: trace ∧ limit ≤ invalidRun front) :
    ∃ front, front <+: trace ∧ ReachesAtLast limit front := by
  induction trace using List.reverseRecOn with
  | nil =>
      obtain ⟨front, hfront, hreached⟩ := h
      refine ⟨front, hfront, hreached, fun front' hfront' hne => ?_⟩
      rw [List.prefix_nil.1 hfront] at hfront' hne
      exact absurd (List.prefix_nil.1 hfront') hne
  | append_singleton trace e ih =>
      by_cases hbefore : ∃ front, front <+: trace ∧ limit ≤ invalidRun front
      · obtain ⟨front, hfront, hreaches⟩ := ih hbefore
        exact ⟨front, hfront.trans (List.prefix_append ..), hreaches⟩
      · have hbelow : ∀ front, front <+: trace → invalidRun front < limit := fun front hfront =>
          not_le.1 fun hreached => hbefore ⟨front, hfront, hreached⟩
        obtain ⟨front, hfront, hreached⟩ := h
        refine ⟨trace ++ [e], List.prefix_rfl, (reachesAtLast_concat_iff e hbelow).2 ?_⟩
        rcases List.prefix_concat_iff.1 hfront with rfl | hfront
        · exact hreached
        · exact absurd hreached (hbelow front hfront).not_ge

/-! ### The counter -/

/-- The reader finished with `INVALID_ARGUMENT`. -/
def AsynchronousReader.FinishedInvalid (reader : AsynchronousReader) : Prop :=
  ∃ message response, .finish ⟨.invalidArgument, message⟩ response ∈ reader.operations

/-- The members of a reader that count invalid messages, after the calls of a trace. -/
structure Strikes (limit : UInt32) (trace : List SessionEvent) (reader : AsynchronousReader) :
    Prop where
  maximum : reader.maximumConsecutiveInvalidMessages = limit
  counter : reader.invalidMessageCounter = UInt32.ofNat (invalidRun trace)
  finished : reader.FinishedInvalid ↔ limit < reader.invalidMessageCounter

/-- A reader whose operations so far do not finish it invalidly, and its next one. -/
theorem finishedInvalid_append {reader : AsynchronousReader} {operations : List Operation}
    (hreads : ∀ operation ∈ operations, operation = .startRead) {operation : Operation}
    (hoperations : reader.operations = operations ++ [operation]) :
    reader.FinishedInvalid ↔
      ∃ message response, operation = .finish ⟨.invalidArgument, message⟩ response := by
  unfold AsynchronousReader.FinishedInvalid
  rw [hoperations]
  constructor
  · rintro ⟨message, response, hmem⟩
    rcases List.mem_append.1 hmem with hmem | hmem
    · cases hreads _ hmem
    · exact ⟨message, response, (List.mem_singleton.1 hmem).symm⟩
  · rintro ⟨message, response, rfl⟩
    exact ⟨message, response, List.mem_append_right _ (List.mem_singleton_self _)⟩

/-- A reader that only reads was not cut off. -/
theorem not_finishedInvalid {reader : AsynchronousReader}
    (hreads : ∀ operation ∈ reader.operations, operation = .startRead) :
    ¬reader.FinishedInvalid := by
  rintro ⟨message, response, hmem⟩
  cases hreads _ hmem

/-- No call changes the maximum. -/
theorem maximum_onReadDone (reader : AsynchronousReader) (e : SessionEvent) :
    (reader.onReadDone e).maximumConsecutiveInvalidMessages
      = reader.maximumConsecutiveInvalidMessages := by
  cases e with
  | endOfStream keepRunning => cases keepRunning <;> rfl
  | read packet outcome movedFrom keepRunning =>
      obtain ⟨operation, -, heq⟩ :=
        reader.exists_operation_onReadOk packet outcome movedFrom keepRunning
      rw [AsynchronousReader.onReadDone, heq]
      cases outcome <;> rfl

/-- **The counter is the length of the run,** modulo 2^32. -/
theorem counter_onReadDone {reader : AsynchronousReader} {run : ℕ}
    (h : reader.invalidMessageCounter = UInt32.ofNat run) (e : SessionEvent) :
    (reader.onReadDone e).invalidMessageCounter = UInt32.ofNat (extendRun run e) := by
  cases e with
  | endOfStream keepRunning => cases keepRunning <;> exact h
  | read packet outcome movedFrom keepRunning =>
      obtain ⟨operation, -, heq⟩ :=
        reader.exists_operation_onReadOk packet outcome movedFrom keepRunning
      rw [AsynchronousReader.onReadDone, heq]
      cases outcome with
      | returned => rfl
      | otherException => exact h
      | invalidArgument =>
          rw [extendRun, UInt32.ofNat_add, ← h]
          rfl

/-- **A reader that waits for a read is finished invalidly** when the counter passes
the maximum, and in no other way. -/
theorem finishedInvalid_onReadDone {reader : AsynchronousReader}
    (hreads : ∀ operation ∈ reader.operations, operation = .startRead)
    (hwithin : ¬reader.maximumConsecutiveInvalidMessages < reader.invalidMessageCounter)
    (e : SessionEvent) :
    (reader.onReadDone e).FinishedInvalid ↔
      reader.maximumConsecutiveInvalidMessages < (reader.onReadDone e).invalidMessageCounter := by
  cases e with
  | endOfStream keepRunning =>
      cases keepRunning <;>
      · rw [finishedInvalid_append hreads rfl]
        exact iff_of_false (by rintro ⟨_, _, ⟨⟩⟩) hwithin
  | read packet outcome movedFrom keepRunning =>
      cases outcome with
      | returned =>
          cases keepRunning <;>
          · rw [finishedInvalid_append hreads rfl]
            exact iff_of_false (by rintro ⟨_, _, ⟨⟩⟩) UInt32.not_lt_zero
      | otherException =>
          cases keepRunning <;>
          · rw [finishedInvalid_append hreads rfl]
            exact iff_of_false (by rintro ⟨_, _, ⟨⟩⟩) hwithin
      | invalidArgument =>
          unfold AsynchronousReader.onReadDone AsynchronousReader.onReadOk
          dsimp only
          split_ifs with hover hrunning
          · exact iff_of_true ((finishedInvalid_append hreads rfl).2 ⟨_, _, rfl⟩) hover.2
          all_goals
            rw [finishedInvalid_append hreads rfl]
            exact iff_of_false (by rintro ⟨_, _, ⟨⟩⟩) fun hover' => hover ⟨rfl, hover'⟩

/-- **A call of `OnReadDone` counts one message.** -/
theorem Strikes.step {limit : UInt32} {trace : List SessionEvent} {reader : AsynchronousReader}
    (h : Strikes limit trace reader)
    (hreads : ∀ operation ∈ reader.operations, operation = .startRead) (e : SessionEvent) :
    Strikes limit (trace ++ [e]) (reader.onReadDone e) := by
  obtain ⟨rfl, hcounter, hfinished⟩ := h
  have hwithin : ¬reader.maximumConsecutiveInvalidMessages < reader.invalidMessageCounter :=
    fun hover => not_finishedInvalid hreads (hfinished.2 hover)
  refine ⟨maximum_onReadDone reader e, ?_, finishedInvalid_onReadDone hreads hwithin e⟩
  rw [invalidRun_concat]
  exact counter_onReadDone hcounter e

/-! ### Sessions -/

section
variable {options : PublishServiceOptions} {isSecured : Bool}
  {clientMetadata : List (Bytes × Bytes)} {publisherCount effect : ℤ}
  {start reader : AsynchronousReader} {trace : List SessionEvent}

/-- A session is not turned away with `INVALID_ARGUMENT`. -/
theorem code_ne_of_admission {status : Status}
    (h : AsynchronousReader.admission options isSecured clientMetadata publisherCount
      = .error status) : status.code ≠ .invalidArgument := by
  unfold AsynchronousReader.admission at h
  split_ifs at h with hfull hsecured
  · cases h
    decide
  · cases htoken : options.accessToken with
    | none =>
        rw [htoken] at h
        cases h
    | some accessToken =>
        rw [htoken] at h
        dsimp only at h
        split_ifs at h
        cases h
        decide

/-- A new reader has seen no message. -/
theorem Started.strikes
    (h : Started options isSecured clientMetadata publisherCount start effect) :
    Strikes options.maximumConsecutiveInvalidMessages [] start := by
  cases h with
  | turnedAway fails =>
      refine ⟨rfl, rfl, iff_of_false ?_ UInt32.not_lt_zero⟩
      rw [@finishedInvalid_append _ [] (by simp) _ rfl]
      rintro ⟨message, response, heq⟩
      cases heq
      exact code_ne_of_admission fails rfl
  | registered count count' keepRunning passes adds =>
      cases adds
      cases keepRunning <;>
      · refine ⟨rfl, rfl, iff_of_false ?_ UInt32.not_lt_zero⟩
        rw [@finishedInvalid_append _ [] (by simp) _ rfl]
        rintro ⟨_, _, ⟨⟩⟩

/-- A reader that gRPC owes an `OnReadDone` only read so far. -/
theorem Progress.reads_of_outstanding (h : Progress trace reader)
    (houtstanding : trace.length < reader.operations.count .startRead) :
    ∀ operation ∈ reader.operations, operation = .startRead := by
  intro operation hmem
  rw [(h.reading_of_outstanding houtstanding).1] at hmem
  exact List.eq_of_mem_replicate hmem

/-- So the counter follows the run in every session. -/
theorem strikes_session
    (hstart : Started options isSecured clientMetadata publisherCount start effect)
    (hsession : Session start trace reader) :
    Strikes options.maximumConsecutiveInvalidMessages trace reader := by
  induction hsession with
  | nil => exact hstart.strikes
  | concat e hsession houtstanding ih =>
      have hprogress := (progress_session hstart.progress hsession).2
      exact ih.step (hprogress.reads_of_outstanding houtstanding) e

/-- The runs that a reader which goes on reading has seen are within the maximum, unless
that is the largest 32-bit number. -/
theorem invalidRun_le_of_outstanding
    (hstart : Started options isSecured clientMetadata publisherCount start effect)
    (hmaximum : options.maximumConsecutiveInvalidMessages.toNat + 1 < 2 ^ 32)
    (hsession : Session start trace reader)
    (houtstanding : trace.length < reader.operations.count .startRead) :
    ∀ front, front <+: trace →
      invalidRun front < options.maximumConsecutiveInvalidMessages.toNat + 1 := by
  induction hsession with
  | nil =>
      intro front hfront
      rw [List.prefix_nil.1 hfront]
      exact Nat.succ_pos _
  | @concat trace reader e hsession houtstanding' ih =>
      intro front hfront
      rcases List.prefix_concat_iff.1 hfront with rfl | hfront
      · have hsession' := hsession.concat e houtstanding'
        have hstrikes := strikes_session hstart hsession'
        have hreads := (progress_session hstart.progress hsession').2.reads_of_outstanding
          houtstanding
        have hwithin : ¬options.maximumConsecutiveInvalidMessages
            < (reader.onReadDone e).invalidMessageCounter :=
          fun hover => not_finishedInvalid hreads (hstrikes.finished.2 hover)
        have hbefore := ih houtstanding' trace List.prefix_rfl
        have hgrows := extendRun_le (invalidRun trace) e
        rw [invalidRun_concat]
        rw [hstrikes.counter, UInt32.lt_iff_toNat_lt, invalidRun_concat,
          UInt32.toNat_ofNat_of_lt' (show _ < 2 ^ 32 by omega)] at hwithin
        omega
      · exact ih houtstanding' front hfront

/-- **When the code purges a publisher:** at the first message that makes the run
reach the maximum and one. -/
theorem finishedInvalid_iff
    (hstart : Started options isSecured clientMetadata publisherCount start effect)
    (hsession : Session start trace reader) :
    reader.FinishedInvalid ↔
      ReachesAtLast (options.maximumConsecutiveInvalidMessages.toNat + 1) trace ∧
        options.maximumConsecutiveInvalidMessages.toNat + 1 < 2 ^ 32 := by
  have hstrikes := strikes_session hstart hsession
  rw [hstrikes.finished, UInt32.lt_iff_toNat_lt]
  by_cases hmaximum : options.maximumConsecutiveInvalidMessages.toNat + 1 < 2 ^ 32
  · rw [and_iff_left hmaximum]
    cases hsession with
    | nil =>
        rw [hstart.strikes.counter]
        exact iff_of_false (Nat.not_lt_zero _) fun h => absurd h.reached (Nat.not_succ_le_zero _)
    | @concat trace reader e hsession houtstanding =>
        have hbelow := invalidRun_le_of_outstanding hstart hmaximum hsession houtstanding
        have hbefore := hbelow trace List.prefix_rfl
        have hgrows := extendRun_le (invalidRun trace) e
        rw [reachesAtLast_concat_iff e hbelow, hstrikes.counter, invalidRun_concat,
          UInt32.toNat_ofNat_of_lt' (show _ < 2 ^ 32 by omega)]
        omega
  · have hcounter := reader.invalidMessageCounter.toNat_lt
    exact iff_of_false (by omega) fun h => hmaximum h.2

/-- **The publisher is cut off at the limit:** the reader finishes with
`INVALID_ARGUMENT` at the first message that makes the run reach it, and at no other. -/
def CutsOff (limit : ℕ) (trace : List SessionEvent) (reader : AsynchronousReader) : Prop :=
  reader.FinishedInvalid ↔ ReachesAtLast limit trace

/-- A front of a session is a session. -/
theorem exists_session_of_prefix {front : List SessionEvent} (hsession : Session start trace reader)
    (hfront : front <+: trace) : ∃ reader', Session start front reader' := by
  induction hsession with
  | nil =>
      rw [List.prefix_nil.1 hfront]
      exact ⟨_, .nil⟩
  | concat e hsession houtstanding ih =>
      rcases List.prefix_concat_iff.1 hfront with rfl | hfront
      · exact ⟨_, hsession.concat e houtstanding⟩
      · exact ih hfront

/-- **When a publisher is cut off at the documented count.**  At every moment of a
session, exactly when the session never gets to that many consecutive invalid
messages. -/
theorem cutsOff_iff
    (hstart : Started options isSecured clientMetadata publisherCount start effect)
    (hsession : Session start trace reader) :
    (∀ front reader', front <+: trace → Session start front reader' →
      CutsOff options.maximumConsecutiveInvalidMessages.toNat front reader') ↔
    ∀ front, front <+: trace →
      invalidRun front < options.maximumConsecutiveInvalidMessages.toNat := by
  constructor
  · intro h front hfront
    by_contra hreached
    obtain ⟨front', hfront', hreaches⟩ :=
      exists_reachesAtLast ⟨front, hfront, not_lt.1 hreached⟩
    obtain ⟨reader', hsession'⟩ := exists_session_of_prefix hsession hfront'
    have hfinished := (h front' reader' hfront' hsession').2 hreaches
    have hlater := ((finishedInvalid_iff hstart hsession').1 hfinished).1.invalidRun_eq
    have hnow := hreaches.invalidRun_eq
    omega
  · intro h front reader' hfront hsession'
    have hbelow := h front hfront
    refine iff_of_false (fun hfinished => ?_) fun hreaches => ?_
    · have hlater := ((finishedInvalid_iff hstart hsession').1 hfinished).1.reached
      omega
    · have hnow := hreaches.reached
      omega

end

/-- One invalid message of two that are allowed. -/
theorem cutsOff_iff_samplePacket :
    ∃ reader, Session (AsynchronousReader.register 0 true
        { maximumConsecutiveInvalidMessages := 2 }).2 [.read {} .invalidArgument {} true] reader ∧
      CutsOff 2 [.read {} .invalidArgument {} true] reader := by
  have hstart : Started { maximumConsecutiveInvalidMessages := 2 } false [] 0 _ (1 - 0) :=
    .registered 0 1 true (by decide) rfl
  have hsession : Session (AsynchronousReader.register 0 true
      { maximumConsecutiveInvalidMessages := 2 }).2 [] _ := .nil
  have hread := hsession.concat (.read {} .invalidArgument {} true) (by decide)
  refine ⟨_, hread, (cutsOff_iff hstart hread).2 (fun front hfront => ?_) _ _ List.prefix_rfl hread⟩
  rcases List.prefix_concat_iff.1 hfront with rfl | hfront
  · decide
  · rw [List.prefix_nil.1 hfront]
    decide

/-- **A publisher that sent as many invalid messages as allowed is read on.** -/
theorem not_cutsOff_one :
    ¬ ∀ (options : PublishServiceOptions) (isSecured : Bool)
      (clientMetadata : List (Bytes × Bytes)) (publisherCount effect : ℤ)
      (start reader : AsynchronousReader) (trace : List SessionEvent),
      1 ≤ options.maximumConsecutiveInvalidMessages →
      Started options isSecured clientMetadata publisherCount start effect →
      Session start trace reader →
      CutsOff options.maximumConsecutiveInvalidMessages.toNat trace reader := by
  intro h
  have hstart : Started { maximumConsecutiveInvalidMessages := 1 } false [] 0 _ (1 - 0) :=
    .registered 0 1 true (by decide) rfl
  have hsession : Session (AsynchronousReader.register 0 true
      { maximumConsecutiveInvalidMessages := 1 }).2 [] _ := .nil
  have hread := hsession.concat (.read {} .invalidArgument {} true) (by decide)
  have hcutsOff := h _ _ _ _ _ _ _ _ (by decide) hstart hread
  have hreaches : ReachesAtLast 1 [.read {} .invalidArgument {} true] := by
    refine ⟨by decide, fun front hfront hne => ?_⟩
    rw [List.prefix_nil.1 (@prefix_of_prefix_concat _ [] _ hfront hne)]
    decide
  obtain ⟨message, response, hmem⟩ := hcutsOff.2 hreaches
  exact absurd hmem (by simp [AsynchronousReader.register, AsynchronousReader.startRead,
    AsynchronousReader.onReadDone, AsynchronousReader.onReadOk, AsynchronousReader.invokeCallback])

end PublishService
end UDataPacketBroker
