/-
# Packet accounting

`addPacketCallback` counts every packet it is handed and every packet it
rejects; a packet it enqueues should be counted as written to the import queue,
but its last line increments the invalid counter once more instead.
`Accounted` is what the counters do say over every interleaving.  The law an
operator expects of them (`Conserved`) follows exactly for the runs in which no
call carried a valid packet (`conserved_iff`), and fewer than 2^63 an invalid one:
from there on an `int64_t` counter is not the number of what it counted.
-/

import UDataPacketBroker.Broker.Sequencing

namespace UDataPacketBroker
namespace Broker

open Library Utilities

variable {ι : Type}

/-! ### Counting events and calls -/

/-- How often each thing happened to a packet. -/
structure Tally where
  rejected : ℕ := 0
  accepted : ℕ := 0
  entered : ℕ := 0
  completed : ℕ := 0
  taken : ℕ := 0
deriving DecidableEq, Repr

/-- The tally after one more event. -/
def Tally.count (n : Tally) : Event ι → Tally
  | .rejected _ _ => { n with rejected := n.rejected + 1 }
  | .accepted _ _ => { n with accepted := n.accepted + 1 }
  | .entered _ _ => { n with entered := n.entered + 1 }
  | .completed _ => { n with completed := n.completed + 1 }
  | .took _ => { n with taken := n.taken + 1 }
  | .publishPushed | .dataStorePushed | .publishPopped | .dataStorePopped => n

def tally (trace : List (Event ι)) : Tally := trace.foldl Tally.count {}

/-- One more event is counted. -/
theorem tally_concat (trace : List (Event ι)) (e : Event ι) :
    tally (trace ++ [e]) = (tally trace).count e := by
  rw [tally, List.foldl_append]
  rfl

/-- A call that has still to enqueue its packet. -/
def CallPhase.entering : CallPhase → ℕ
  | .validated _ => 1
  | .enqueued _ => 0

/-- A call that has still to count its packet. -/
def CallPhase.counting : CallPhase → ℕ
  | .validated _ => 0
  | .enqueued _ => 1

/-- The packets a call popped and has still to count. -/
def CallPhase.popped : CallPhase → ℕ
  | .validated _ => 0
  | .enqueued nPopped => nPopped

/-- A quantity summed over the calls that are running. -/
def sumCalls (f : CallPhase → ℕ) (calls : List (ι × CallPhase)) : ℕ :=
  (calls.map fun call => f call.2).sum

/-- A sum over calls in two parts. -/
theorem sumCalls_append (f : CallPhase → ℕ) (calls calls' : List (ι × CallPhase)) :
    sumCalls f (calls ++ calls') = sumCalls f calls + sumCalls f calls' := by
  rw [sumCalls, List.map_append, List.sum_append]
  rfl

/-- A sum over calls, without the first. -/
theorem sumCalls_cons (f : CallPhase → ℕ) (call : ι × CallPhase) (calls : List (ι × CallPhase)) :
    sumCalls f (call :: calls) = f call.2 + sumCalls f calls := rfl

/-- With no call running there is nothing to sum. -/
theorem sumCalls_nil (f : CallPhase → ℕ) : sumCalls f ([] : List (ι × CallPhase)) = 0 := rfl

/-! ### What the counters say -/

/-- **The counters over every interleaving.** -/
structure Accounted (n : Tally) (s : State ι) : Prop where
  total : s.metrics.totalNumberOfPacketsReceived = Int64.ofNat (n.accepted + n.rejected)
  invalid : s.metrics.numberOfInvalidPacketsReceived = Int64.ofNat (n.rejected + n.completed)
  added : s.metrics.numberOfPacketsAddedToImportQueue = 0
  queue : ∃ popped, s.metrics.numberOfPacketsPoppedFromImportQueue = Int64.ofNat popped ∧
    s.importQueue.length + popped + sumCalls CallPhase.popped s.calls + n.taken = n.entered
  accepted : n.accepted = n.entered + sumCalls CallPhase.entering s.calls
  entered : n.entered = n.completed + sumCalls CallPhase.counting s.calls

/-- A new broker has counted nothing. -/
theorem accounted_initial (g : UInt64) : Accounted {} (State.initial g : State ι) :=
  ⟨rfl, rfl, rfl, ⟨0, rfl, rfl⟩, rfl, rfl⟩

/-- A counter of so many is one of one more after an increment. -/
theorem ofNat_succ_counter (n : ℕ) : Int64.ofNat n + 1 = Int64.ofNat (n + 1) :=
  (Int64.ofNat_add n 1).symm

/-- A packet that is not valid is counted as such. -/
theorem receivePacket_error {metrics : Metrics} {packet : Packet} {what : Bytes}
    (h : (receivePacket metrics packet).2 = .error what) :
    (∃ reason, isValid packet = .error reason) ∧ (receivePacket metrics packet).1 =
      metrics.incrementTotalNumberOfPacketsReceived.incrementNumberOfInvalidPacketsReceived := by
  unfold receivePacket at h ⊢
  cases hvalid : isValid packet with
  | error reason => exact ⟨⟨reason, rfl⟩, rfl⟩
  | ok b =>
      rw [hvalid] at h
      cases h

/-- A packet that is valid is counted as received only. -/
theorem receivePacket_ok {metrics : Metrics} {packet : Packet}
    (h : (receivePacket metrics packet).2 = .ok ()) :
    (∃ b, isValid packet = .ok b) ∧
      (receivePacket metrics packet).1 = metrics.incrementTotalNumberOfPacketsReceived := by
  unfold receivePacket at h ⊢
  cases hvalid : isValid packet with
  | error reason =>
      rw [hvalid] at h
      cases h
  | ok b => exact ⟨⟨b, rfl⟩, rfl⟩

/-- The counters a finished call updates. -/
theorem updateMetrics_eq (metrics : Metrics) (nPopped : ℕ) :
    updateMetrics metrics nPopped =
      (metrics.incrementNumberOfPacketsPoppedFromImportQueue
        nPopped).incrementNumberOfInvalidPacketsReceived := by
  unfold updateMetrics
  dsimp only
  split_ifs with h
  · rfl
  · obtain rfl : nPopped = 0 := by omega
    rw [Metrics.incrementNumberOfPacketsPoppedFromImportQueue_natCast]
    exact congrArg Metrics.incrementNumberOfInvalidPacketsReceived
      (by rw [show Int64.ofNat 0 = 0 from rfl, Int64.add_zero])

/-- **Every step keeps the counters accounted for.** -/
theorem Accounted.step {n : Tally} {e : Event ι} {s t : State ι} (h : Accounted n s)
    (hstep : Step s e t) : Accounted (n.count e) t := by
  obtain ⟨total, invalid, added, ⟨popped, hpopped, queue⟩, accepted, entered⟩ := h
  cases hstep with
  | publish => exact ⟨total, invalid, added, ⟨popped, hpopped, queue⟩, accepted, entered⟩
  | store => exact ⟨total, invalid, added, ⟨popped, hpopped, queue⟩, accepted, entered⟩
  | popPublish => exact ⟨total, invalid, added, ⟨popped, hpopped, queue⟩, accepted, entered⟩
  | popDataStore => exact ⟨total, invalid, added, ⟨popped, hpopped, queue⟩, accepted, entered⟩
  | reject idle hinvalid =>
      rw [(receivePacket_error hinvalid).2]
      refine ⟨?_, ?_, added, ⟨popped, hpopped, queue⟩, accepted, entered⟩
      · exact (congrArg (· + 1) total).trans (ofNat_succ_counter _)
      · refine (congrArg (· + 1) invalid).trans ((ofNat_succ_counter _).trans ?_)
        exact congrArg Int64.ofNat (Nat.add_right_comm _ _ _)
  | accept idle hvalid =>
      rw [(receivePacket_ok hvalid).2]
      refine ⟨?_, invalid, added, ⟨popped, hpopped, ?_⟩, ?_, ?_⟩
      · refine (congrArg (· + 1) total).trans ((ofNat_succ_counter _).trans ?_)
        exact congrArg Int64.ofNat (Nat.add_right_comm _ _ _)
      · rw [sumCalls_append]
        exact queue
      · rw [sumCalls_append]
        exact congrArg (· + 1) accepted
      · rw [sumCalls_append]
        exact entered
  | @enqueue publisher packet before after running =>
      obtain ⟨remaining, -, hqueue, hlength⟩ := enqueueImport_eq s.importQueue packet
      simp only [running, sumCalls_append, sumCalls_cons, CallPhase.popped, CallPhase.entering,
        CallPhase.counting] at queue accepted entered
      refine ⟨total, invalid, added, ⟨popped, hpopped, ?_⟩, ?_, ?_⟩ <;>
        simp only [hqueue, Tally.count, sumCalls_append, sumCalls_cons, CallPhase.popped,
          CallPhase.entering, CallPhase.counting, List.length_append, List.length_singleton] <;>
        omega
  | @complete publisher nPopped before after running =>
      rw [updateMetrics_eq, Metrics.incrementNumberOfPacketsPoppedFromImportQueue_natCast]
      simp only [running, sumCalls_append, sumCalls_cons, CallPhase.popped, CallPhase.entering,
        CallPhase.counting] at queue accepted entered
      refine ⟨total, ?_, added, ⟨popped + nPopped, ?_, ?_⟩, ?_, ?_⟩
      · exact (congrArg (· + 1) invalid).trans (ofNat_succ_counter _)
      · rw [Int64.ofNat_add, ← hpopped]
        rfl
      all_goals
        simp only [Tally.count, sumCalls_append]
        omega
  | take now polling front =>
      rw [front, List.length_cons] at queue
      refine ⟨total, invalid, added, ⟨popped, hpopped, ?_⟩, accepted, entered⟩
      simp only [Tally.count]
      omega

/-- So the counters are accounted for on every run. -/
theorem accounted_run {g : UInt64} {trace : List (Event ι)} {s : State ι}
    (hrun : Run (State.initial g) trace s) : Accounted (tally trace) s := by
  induction hrun with
  | nil => exact accounted_initial g
  | concat _ hstep ih => exact tally_concat _ _ ▸ ih.step hstep

/-! ### The law -/

/-- **The accounting law** an operator reads the counters by. -/
def Conserved (trace : List (Event ι)) (s : State ι) : Prop :=
  s.metrics.numberOfInvalidPacketsReceived.toInt = (tally trace).rejected ∧
  s.metrics.totalNumberOfPacketsReceived.toInt = s.metrics.numberOfInvalidPacketsReceived.toInt
    + s.metrics.numberOfPacketsWrittenToImportQueue.toInt ∧
  s.metrics.numberOfPacketsWrittenToImportQueue.toInt = s.importQueue.length
    + s.metrics.numberOfPacketsPoppedFromImportQueue.toInt + (tally trace).taken

/-- A run that accepted no packet is one whose submissions are all invalid. -/
theorem accepted_eq_zero_iff [DecidableEq ι] {g : UInt64} {trace : List (Event ι)} {s : State ι}
    (hrun : Run (State.initial g) trace s) :
    (tally trace).accepted = 0 ↔ ∀ (publisher : ι), ∀ packet ∈ submissions publisher trace,
      ∃ reason, isValid packet = .error reason := by
  induction hrun with
  | nil => exact iff_of_true rfl fun _ _ h => absurd h List.not_mem_nil
  | @concat trace e t u _ hstep ih =>
      have hold {e : Event ι} (hcount : ((tally trace).count e).accepted = (tally trace).accepted)
          (hnone : ∀ i, submissions i [e] = []) :
          (tally (trace ++ [e])).accepted = 0 ↔ ∀ (publisher : ι),
            ∀ packet ∈ submissions publisher (trace ++ [e]),
              ∃ reason, isValid packet = .error reason := by
        simp only [tally_concat, hcount, submissions_concat, hnone, List.append_nil]
        exact ih
      cases hstep with
      | enqueue => exact hold rfl fun _ => rfl
      | complete => exact hold rfl fun _ => rfl
      | take => exact hold rfl fun _ => rfl
      | publish => exact hold rfl fun _ => rfl
      | store => exact hold rfl fun _ => rfl
      | popPublish => exact hold rfl fun _ => rfl
      | popDataStore => exact hold rfl fun _ => rfl
      | @reject publisher packet what idle hinvalid =>
          rw [tally_concat]
          refine ih.trans ⟨fun h i p hp => ?_, fun h i p hp => ?_⟩
          · rw [submissions_concat, List.mem_append] at hp
            rcases hp with hp | hp
            · exact h i p hp
            · obtain ⟨-, rfl⟩ : publisher = i ∧ packet = p := by simpa [submissions] using hp
              exact (receivePacket_error hinvalid).1
          · exact h i p (by rw [submissions_concat]; exact List.mem_append_left _ hp)
      | @accept publisher packet idle hvalid =>
          rw [tally_concat]
          refine iff_of_false (Nat.succ_ne_zero _) fun h => ?_
          obtain ⟨b, hb⟩ := (receivePacket_ok hvalid).1
          obtain ⟨reason, hreason⟩ := h publisher packet (by simp [submissions])
          rw [hb] at hreason
          cases hreason

/-- **When the counters conserve packets.**  With no call running, and fewer than 2^64 packets
accepted so far, the law holds exactly when all that were submitted were invalid, and
fewer than 2^63. -/
theorem conserved_iff [DecidableEq ι] {g : UInt64} {trace : List (Event ι)} {s : State ι}
    (hrun : Run (State.initial g) trace s) (hcalls : s.calls = [])
    (hbound : (tally trace).accepted < 2 ^ 64) :
    Conserved trace s ↔ (tally trace).rejected < 2 ^ 63 ∧
      ∀ (publisher : ι), ∀ packet ∈ submissions publisher trace,
        ∃ reason, isValid packet = .error reason := by
  obtain ⟨total, invalid, added, ⟨popped, hpopped, queue⟩, accepted, entered⟩ := accounted_run hrun
  rw [← accepted_eq_zero_iff hrun]
  rw [hcalls, sumCalls_nil] at queue accepted entered
  rw [Conserved, Metrics.numberOfPacketsWrittenToImportQueue, total, invalid, added, hpopped]
  constructor
  · rintro ⟨hinvalid, -, -⟩
    have hrejected : (tally trace).rejected < 2 ^ 63 := by
      have hlt := (Int64.ofNat ((tally trace).rejected + (tally trace).completed)).toInt_lt
      omega
    -- the accepted packets are counted as invalid, too
    rw [Int64.toInt_ofNat'] at hinvalid
    refine ⟨hrejected, ?_⟩
    rw [Int.bmod_def, Int64.size] at hinvalid
    omega
  · rintro ⟨hrejected, hnone⟩
    rw [hnone] at accepted ⊢
    obtain ⟨hlength, hzero⟩ : s.importQueue.length = 0 ∧ popped = 0 := by omega
    have hcompleted : (tally trace).completed = 0 := by omega
    have htaken : (tally trace).taken = 0 := by omega
    rw [hcompleted, hlength, hzero, htaken, Nat.zero_add, Nat.add_zero,
      Int64.toInt_ofNat_of_lt hrejected]
    exact ⟨rfl, (add_zero _).symm, rfl⟩

/-- Two publishers send packets without an identifier, a sampling rate or anything at all.
All are rejected, and the counters conserve them. -/
theorem conserved_iff_rejected :
    ∃ (trace : List (Event ℕ)) (s : State ℕ), Run (State.initial 0) trace s ∧
      submissions 0 trace = [{ samplePacket 1 with streamIdentifier? := none }, {}] ∧
      submissions 1 trace = [{ samplePacket 2 with samplingRate? := none }] ∧
      Conserved trace s := by
  have hstart : Run (State.initial 0 : State ℕ) [] _ := Run.nil
  have hrun := ((hstart.concat (@Step.reject ℕ _ 0
    { samplePacket 1 with streamIdentifier? := none } _ (by decide) rfl)).concat
    (@Step.reject ℕ _ 1 { samplePacket 2 with samplingRate? := none } _ (by decide) rfl)).concat
    (@Step.reject ℕ _ 0 {} _ (by decide) rfl)
  refine ⟨_, _, hrun, rfl, rfl,
    (conserved_iff hrun rfl (by decide)).2 ⟨by decide, fun publisher packet h => ?_⟩⟩
  -- who sent it does not matter
  obtain ⟨-, rfl⟩ | ⟨-, rfl⟩ | ⟨-, rfl⟩ : (0 = publisher ∧
      { samplePacket 1 with streamIdentifier? := none } = packet) ∨ (1 = publisher ∧
      { samplePacket 2 with samplingRate? := none } = packet) ∨
      (0 = publisher ∧ ({} : Packet) = packet) := by
    simpa [submissions, List.mem_filterMap] using h
  all_goals exact ⟨_, rfl⟩

/-- **One valid packet breaks the law:** it is counted as invalid. -/
theorem not_conserved_samplePacket :
    ¬ ∀ (g : UInt64) (trace : List (Event ℕ)) (s : State ℕ),
      Run (State.initial g) trace s → s.calls = [] → Conserved trace s := by
  intro h
  have hstart : Run (State.initial 0 : State ℕ) [] _ := Run.nil
  have hrun := ((hstart.concat (@Step.accept ℕ _ 0 (samplePacket 0) (by decide) (by decide))).concat
    (@Step.enqueue ℕ _ 0 (samplePacket 0) [] [] rfl)).concat (@Step.complete ℕ _ 0 0 [] [] rfl)
  exact absurd (h 0 _ _ hrun rfl).1 (by decide)

end Broker
end UDataPacketBroker
