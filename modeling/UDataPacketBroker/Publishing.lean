/-
# Publishing

The publish service and the broker together.  The callback that the broker gives to the
service is `addPacketCallback`, so gRPC's thread of a session runs the broker's steps for
it inside `OnReadDone`: it reads a packet, is rejected or gets its packet into the import
queue, returns, loads `mKeepRunning` and starts the next read or finishes.  Sessions, the
propagator, the consumers and the shutdown of the service interleave in any way.

A publisher is told what became of its packets by the response of its session, which was
only ever counted from how the callback ended.  If it is sent, it says what the broker did
(`response_of_finish`): the packets counted are those that were submitted, those counted
as invalid were rejected, and all others entered the import queue in the order they were
sent, up to the one that is named last.  gRPC sends it only with an OK status, so a
publisher whose session ends because the server shuts down is told nothing.
-/

import UDataPacketBroker.Broker.Accounting
import UDataPacketBroker.PublishService.Protocol

namespace UDataPacketBroker
namespace Publishing

open Library Utilities Broker PublishService

variable {ι : Type} [DecidableEq ι]

/-! ### Sessions and the broker -/

/-- Where gRPC's thread of a session is. -/
inductive Serving where
  /-- Outside: gRPC may owe an `OnReadDone`. -/
  | waiting
  /-- In the callback, which did not throw. -/
  | calling (packet : Packet)
  /-- The callback ended, and `mKeepRunning` is still to be loaded. -/
  | called (packet : Packet) (outcome : CallbackOutcome)

/-- A session, with the calls of `OnReadDone` that returned. -/
structure Connection where
  reader : AsynchronousReader
  history : List SessionEvent := []
  serving : Serving := .waiting

/-- gRPC owes the session an `OnReadDone`. -/
def Connection.Outstanding (c : Connection) : Prop :=
  c.serving = .waiting ∧ c.history.length < c.reader.operations.count .startRead

/-- `OnReadDone` returns. -/
def Connection.onReadDone (c : Connection) (e : SessionEvent) : Connection where
  reader := c.reader.onReadDone e
  history := c.history ++ [e]

/-- The service and the broker, between two steps. -/
structure System (ι : Type) where
  broker : Broker.State ι
  keepRunning : Bool := true
  connections : ι → Option Connection := fun _ => none

def System.initial (g : UInt64) : System ι := { broker := Broker.State.initial g }

def System.serve (s : System ι) (i : ι) (c : Connection) : System ι :=
  { s with connections := Function.update s.connections i (some c) }

/-- The session that is served changes. -/
theorem connections_serve_self (s : System ι) (i : ι) (c : Connection) :
    (s.serve i c).connections i = some c := by simp [System.serve]

/-- The others do not. -/
theorem connections_serve_of_ne (s : System ι) {i j : ι} (h : j ≠ i) (c : Connection) :
    (s.serve i c).connections j = s.connections j := by simp [System.serve, h]

inductive Action (ι : Type) where
  | connected (i : ι)
  /-- A step of the broker, in a session or in one of its own threads. -/
  | broker (e : Broker.Event ι)
  | returned (i : ι)
  | streamEnded (i : ι)
  /-- `PublishServiceImpl::stop` stores false to `mKeepRunning`. -/
  | stopped

/-- The steps of the broker that a session takes from outside its callback, or on leaving
it. -/
def IsCall : Broker.Event ι → Prop
  | .rejected _ _ => True
  | .accepted _ _ => True
  | .completed _ => True
  | _ => False

/-- **One step.**  What a session meets in gRPC and in other sessions is any: the
metadata, the number of publishers, the packet, and what the callback leaves of it. -/
inductive Step (options : PublishServiceOptions) (isSecured : Bool) :
    System ι → Action ι → System ι → Prop
  | connect {s : System ι} {i : ι} (clientMetadata : List (Bytes × Bytes)) (publisherCount : ℤ)
      (new : s.connections i = none) :
      Step options isSecured s (.connected i) (s.serve i
        { reader := (AsynchronousReader.construct options isSecured clientMetadata publisherCount
            s.keepRunning).2 })
  | reject {s : System ι} {i : ι} {c : Connection} {packet : Packet} {broker : Broker.State ι}
      (connection : s.connections i = some c) (outstanding : c.Outstanding)
      (step : Broker.Step s.broker (.rejected i packet) broker) :
      Step options isSecured s (.broker (.rejected i packet)) (System.serve
        { s with broker := broker } i { c with serving := .called packet .invalidArgument })
  | accept {s : System ι} {i : ι} {c : Connection} {packet : Packet} {broker : Broker.State ι}
      (connection : s.connections i = some c) (outstanding : c.Outstanding)
      (step : Broker.Step s.broker (.accepted i packet) broker) :
      Step options isSecured s (.broker (.accepted i packet)) (System.serve
        { s with broker := broker } i { c with serving := .calling packet })
  | complete {s : System ι} {i : ι} {c : Connection} {packet : Packet} {broker : Broker.State ι}
      (connection : s.connections i = some c) (calls : c.serving = .calling packet)
      (step : Broker.Step s.broker (.completed i) broker) :
      Step options isSecured s (.broker (.completed i)) (System.serve
        { s with broker := broker } i { c with serving := .called packet .returned })
  | inside {s : System ι} {e : Broker.Event ι} {broker : Broker.State ι} (isInside : ¬IsCall e)
      (step : Broker.Step s.broker e broker) :
      Step options isSecured s (.broker e) { s with broker := broker }
  | resume {s : System ι} {i : ι} {c : Connection} {packet : Packet} {outcome : CallbackOutcome}
      (connection : s.connections i = some c) (called : c.serving = .called packet outcome)
      (movedFrom : Packet) :
      Step options isSecured s (.returned i)
        (s.serve i (c.onReadDone (.read packet outcome movedFrom s.keepRunning)))
  | endStream {s : System ι} {i : ι} {c : Connection} (connection : s.connections i = some c)
      (outstanding : c.Outstanding) :
      Step options isSecured s (.streamEnded i)
        (s.serve i (c.onReadDone (.endOfStream s.keepRunning)))
  | stop {s : System ι} : Step options isSecured s .stopped { s with keepRunning := false }

inductive Run (options : PublishServiceOptions) (isSecured : Bool) (s : System ι) :
    List (Action ι) → System ι → Prop
  | nil : Run options isSecured s [] s
  | concat {trace : List (Action ι)} {a : Action ι} {t u : System ι}
      (run : Run options isSecured s trace t) (step : Step options isSecured t a u) :
      Run options isSecured s (trace ++ [a]) u

/-- The steps of the broker in a run. -/
def brokerEvents (trace : List (Action ι)) : List (Broker.Event ι) :=
  trace.filterMap fun
    | .broker e => some e
    | _ => none

omit [DecidableEq ι] in
/-- One more action, and the step of the broker in it. -/
theorem brokerEvents_concat (trace : List (Action ι)) (a : Action ι) :
    brokerEvents (trace ++ [a]) = brokerEvents trace ++ brokerEvents [a] := List.filterMap_append

section
variable {options : PublishServiceOptions} {isSecured : Bool} {s t : System ι} {a : Action ι}
  {trace : List (Action ι)} {g : UInt64}

/-- A step of the system is a step of the broker, or leaves the broker as it is. -/
theorem Step.broker (hstep : Step options isSecured s a t) :
    (∃ e, brokerEvents [a] = [e] ∧ Broker.Step s.broker e t.broker) ∨
      brokerEvents [a] = [] ∧ t.broker = s.broker := by
  cases hstep with
  | connect _ _ new => exact Or.inr ⟨rfl, rfl⟩
  | reject connection outstanding step => exact Or.inl ⟨_, rfl, step⟩
  | accept connection outstanding step => exact Or.inl ⟨_, rfl, step⟩
  | complete connection calls step => exact Or.inl ⟨_, rfl, step⟩
  | inside isInside step => exact Or.inl ⟨_, rfl, step⟩
  | resume connection called movedFrom => exact Or.inr ⟨rfl, rfl⟩
  | endStream connection outstanding => exact Or.inr ⟨rfl, rfl⟩
  | stop => exact Or.inr ⟨rfl, rfl⟩

/-- **The broker of a system runs as a broker.** -/
theorem broker_run (hrun : Run options isSecured (System.initial g : System ι) trace s) :
    Broker.Run (Broker.State.initial g) (brokerEvents trace) s.broker := by
  induction hrun with
  | nil => exact .nil
  | concat _ hstep ih =>
      rw [brokerEvents_concat]
      rcases hstep.broker with ⟨e, he, hbroker⟩ | ⟨he, hbroker⟩
      · rw [he]
        exact ih.concat hbroker
      · rw [he, hbroker, List.append_nil]
        exact ih

end

/-! ### What a step of the broker does for a publisher -/

section
variable {b b' : Broker.State ι} {e : Broker.Event ι}

/-- The packet that the step accepts of a publisher. -/
def acceptedOf (i : ι) : Broker.Event ι → List Packet
  | .accepted j packet => if j = i then [packet] else []
  | _ => []

/-- **The packets of a publisher that are in,** or in a call on their way in, change with the
call that accepts one. -/
theorem entriesOf_step (hnodup : (b.calls.map Prod.fst).Nodup) (hstep : Broker.Step b e b')
    (i : ι) (trace : List (Broker.Event ι)) :
    entriesOf i (trace ++ [e]) ++ pending i b'.calls =
      entriesOf i trace ++ pending i b.calls ++ acceptedOf i e := by
  rw [entriesOf_concat]
  cases hstep with
  | @accept publisher packet idle valid =>
      have hnone : entriesOf i [Event.accepted publisher packet] = [] := rfl
      rw [hnone, List.append_nil, pending_append, pending_validated, acceptedOf, ← List.append_assoc]
      rfl
  | @enqueue publisher packet before after running =>
      rw [running, List.map_append, List.map_cons] at hnodup
      have hsome : entriesOf i [Event.entered publisher packet] =
          if publisher = i then [packet] else [] := by
        by_cases hi : publisher = i <;> simp [entriesOf, entries, hi]
      rw [running, pending_append, pending_append, pending_validated, pending_enqueued, hsome]
      by_cases hi : publisher = i
      · -- this call is the publisher's only one
        subst hi
        obtain ⟨hnot, -⟩ := List.nodup_cons.1 (List.nodup_middle.1 hnodup)
        rw [List.mem_append, not_or] at hnot
        rw [if_pos rfl, if_pos rfl, pending_eq_nil hnot.1, pending_eq_nil hnot.2]
        simp [acceptedOf]
      · rw [if_neg hi, if_neg hi]
        simp [acceptedOf]
  | @complete publisher nPopped before after running =>
      have hnone : entriesOf i [Event.completed publisher] = [] := rfl
      rw [hnone, running, pending_append, pending_append, pending_enqueued]
      simp [acceptedOf]
  | _ => simp [entriesOf, entries, acceptedOf]

/-- A publisher is in a call from the step that accepts its packet to the one that completes
the call. -/
theorem mem_calls_step (hnodup : (b.calls.map Prod.fst).Nodup) (hstep : Broker.Step b e b')
    (i : ι) : i ∈ b'.calls.map Prod.fst ↔
      i ∈ b.calls.map Prod.fst ∧ e ≠ .completed i ∨ acceptedOf i e ≠ [] := by
  cases hstep with
  | @accept publisher packet idle valid =>
      rw [List.map_append, List.mem_append, acceptedOf]
      by_cases hi : publisher = i
      · simp [hi]
      · simp [hi, Ne.symm hi]
  | @enqueue publisher packet before after running =>
      rw [running]
      simp [acceptedOf]
  | @complete publisher nPopped before after running =>
      rw [running, List.map_append, List.map_cons] at hnodup
      obtain ⟨hnot, -⟩ := List.nodup_cons.1 (List.nodup_middle.1 hnodup)
      rw [List.mem_append, not_or] at hnot
      rw [running]
      by_cases hi : publisher = i
      · subst hi
        simpa [acceptedOf] using hnot
      · simp [acceptedOf, hi, Ne.symm hi]
  | _ => simp [acceptedOf]

end

/-! ### What a session knows of the broker -/

/-- The packet of a call of `OnReadDone` that has not returned. -/
def Serving.submitted : Serving → List Packet
  | .waiting => []
  | .calling packet => [packet]
  | .called packet _ => [packet]

/-- The same, if the broker accepted it. -/
def Serving.accepted : Serving → List Packet
  | .calling packet => [packet]
  | .called packet .returned => [packet]
  | _ => []

/-- The same, if the broker rejected it. -/
def Serving.rejected : Serving → List Packet
  | .called packet .invalidArgument => [packet]
  | _ => []

/-- The packets that `addPacketCallback` throws at. -/
def invalid (packets : List Packet) : List Packet :=
  packets.filter fun packet => !(isValid packet).toBool

/-- The invalid packets of two parts. -/
theorem invalid_append (packets packets' : List Packet) :
    invalid (packets ++ packets') = invalid packets ++ invalid packets' := List.filter_append _ _

/-- **A session and the broker agree** on what the publisher submitted, on what was accepted
and what was rejected of it, and on whether it is in a call. -/
structure Agrees (trace : List (Broker.Event ι)) (b : Broker.State ι) (i : ι)
    (history : List SessionEvent) (serving : Serving) : Prop where
  submitted : submissions i trace = (reads history).map Prod.fst ++ serving.submitted
  accepted : entriesOf i trace ++ pending i b.calls =
    packetsThat .returned history ++ serving.accepted
  rejected : invalid (submissions i trace) =
    packetsThat .invalidArgument history ++ serving.rejected
  outcomes : ∀ read ∈ reads history, read.2 ≠ .otherException
  calls : i ∈ b.calls.map Prod.fst ↔ ∃ packet, serving = .calling packet

/-- A publisher of a new broker has submitted nothing. -/
theorem agrees_initial (g : UInt64) (i : ι) :
    Agrees [] (Broker.State.initial g) i [] .waiting :=
  ⟨rfl, rfl, rfl, fun _ h => absurd h List.not_mem_nil, iff_of_false List.not_mem_nil (by rintro ⟨_, ⟨⟩⟩)⟩

section
variable {b b' : Broker.State ι} {e : Broker.Event ι} {events : List (Broker.Event ι)} {i : ι}
  {history : List SessionEvent} {serving : Serving}

/-- A step of the broker that is not a call of this session. -/
theorem Agrees.other (h : Agrees events b i history serving)
    (hnodup : (b.calls.map Prod.fst).Nodup) (hstep : Broker.Step b e b')
    (hsubmissions : submissions i [e] = []) (hcompleted : e ≠ .completed i) :
    Agrees (events ++ [e]) b' i history serving := by
  have hnone : acceptedOf i e = [] := by
    cases e with
    | accepted j packet =>
        by_contra hi
        have hj : j = i := by
          by_contra hne
          exact hi (if_neg hne)
        subst hj
        simp [submissions] at hsubmissions
    | _ => rfl
  obtain ⟨submitted, accepted, rejected, outcomes, calls⟩ := h
  refine ⟨?_, ?_, ?_, outcomes, ?_⟩
  · rw [submissions_concat, hsubmissions, List.append_nil, submitted]
  · rw [entriesOf_step hnodup hstep, hnone, List.append_nil, accepted]
  · rw [submissions_concat, hsubmissions, List.append_nil, rejected]
  · rw [mem_calls_step hnodup hstep, hnone, calls]
    simp [hcompleted]

/-- The broker rejects a packet of the session. -/
theorem Agrees.reject {packet : Packet} (h : Agrees events b i history .waiting)
    (hnodup : (b.calls.map Prod.fst).Nodup) (hstep : Broker.Step b (.rejected i packet) b') :
    Agrees (events ++ [.rejected i packet]) b' i history (.called packet .invalidArgument) := by
  have hsubmissions : submissions i [Event.rejected i packet] = [packet] := by simp [submissions]
  obtain ⟨submitted, accepted, rejected, outcomes, calls⟩ := h
  refine ⟨?_, ?_, ?_, outcomes, ?_⟩
  · rw [submissions_concat, hsubmissions, submitted]
    simp [Serving.submitted]
  · rw [entriesOf_step hnodup hstep, accepted]
    simp [Serving.accepted, acceptedOf]
  · rw [submissions_concat, hsubmissions, invalid_append, rejected]
    cases hstep with
    | reject idle hinvalid =>
        obtain ⟨reason, hreason⟩ := (receivePacket_error hinvalid).1
        simp [invalid, hreason, Except.toBool, Serving.rejected]
  · rw [mem_calls_step hnodup hstep, calls]
    simp [acceptedOf]

/-- The broker accepts a packet of the session. -/
theorem Agrees.accept {packet : Packet} (h : Agrees events b i history .waiting)
    (hnodup : (b.calls.map Prod.fst).Nodup) (hstep : Broker.Step b (.accepted i packet) b') :
    Agrees (events ++ [.accepted i packet]) b' i history (.calling packet) := by
  have hsubmissions : submissions i [Event.accepted i packet] = [packet] := by simp [submissions]
  obtain ⟨submitted, accepted, rejected, outcomes, calls⟩ := h
  refine ⟨?_, ?_, ?_, outcomes, ?_⟩
  · rw [submissions_concat, hsubmissions, submitted]
    simp [Serving.submitted]
  · rw [entriesOf_step hnodup hstep, accepted]
    simp [Serving.accepted, acceptedOf]
  · rw [submissions_concat, hsubmissions, invalid_append, rejected]
    cases hstep with
    | accept idle hvalid =>
        obtain ⟨valid, hok⟩ := (receivePacket_ok hvalid).1
        simp [invalid, hok, Except.toBool, Serving.rejected]
  · rw [mem_calls_step hnodup hstep]
    simp [acceptedOf]

/-- The callback of the session returns. -/
theorem Agrees.complete {packet : Packet} (h : Agrees events b i history (.calling packet))
    (hnodup : (b.calls.map Prod.fst).Nodup) (hstep : Broker.Step b (.completed i) b') :
    Agrees (events ++ [.completed i]) b' i history (.called packet .returned) := by
  have hsubmissions : submissions i [Event.completed i] = [] := rfl
  obtain ⟨submitted, accepted, rejected, outcomes, calls⟩ := h
  refine ⟨?_, ?_, ?_, outcomes, ?_⟩
  · rw [submissions_concat, hsubmissions, List.append_nil, submitted]
    rfl
  · rw [entriesOf_step hnodup hstep, accepted]
    simp [Serving.accepted, acceptedOf]
  · rw [submissions_concat, hsubmissions, List.append_nil, rejected]
    rfl
  · rw [mem_calls_step hnodup hstep]
    simp [acceptedOf]

/-- `OnReadDone` of the session returns. -/
theorem Agrees.resume {packet : Packet} {outcome : CallbackOutcome}
    (h : Agrees events b i history (.called packet outcome)) (houtcome : outcome ≠ .otherException)
    (movedFrom : Packet) (keepRunning : Bool) :
    Agrees events b i (history ++ [.read packet outcome movedFrom keepRunning]) .waiting := by
  obtain ⟨submitted, accepted, rejected, outcomes, calls⟩ := h
  have hreads : reads [.read packet outcome movedFrom keepRunning] = [(packet, outcome)] := rfl
  refine ⟨?_, ?_, ?_, fun read hread => ?_, ?_⟩
  · rw [submitted, reads_append, hreads]
    simp [Serving.submitted]
  · rw [accepted, packetsThat_append]
    cases outcome <;> simp [packetsThat, hreads, Serving.accepted]
  · rw [rejected, packetsThat_append]
    cases outcome <;> simp [packetsThat, hreads, Serving.rejected]
  · rw [reads_append, hreads] at hread
    rcases List.mem_append.1 hread with hread | hread
    · exact outcomes read hread
    · rwa [List.mem_singleton.1 hread]
  · simpa using calls

/-- The stream of the session ends. -/
theorem Agrees.endStream (h : Agrees events b i history .waiting) (keepRunning : Bool) :
    Agrees events b i (history ++ [.endOfStream keepRunning]) .waiting := by
  obtain ⟨submitted, accepted, rejected, outcomes, calls⟩ := h
  have hreads : reads [.endOfStream keepRunning] = [] := rfl
  have hpackets (outcome : CallbackOutcome) :
      packetsThat outcome (history ++ [.endOfStream keepRunning]) = packetsThat outcome history := by
    rw [packetsThat_append]
    exact List.append_nil _
  refine ⟨?_, ?_, ?_, ?_, calls⟩
  · rw [submitted, reads_append, hreads, List.append_nil]
  · rw [accepted, hpackets]
  · rw [rejected, hpackets]
  · rw [reads_append, hreads, List.append_nil]
    exact outcomes

end

/-! ### The invariant -/

/-- The session of a connection. -/
structure Live (c : Connection) : Prop where
  session : ∃ start, (Tracked [] start ∧ Progress [] start) ∧ Session start c.history c.reader
  outstanding : c.serving ≠ .waiting → c.history.length < c.reader.operations.count .startRead
  outcome : ∀ packet, c.serving ≠ .called packet .otherException

/-- The reader of a live connection has its counters right. -/
theorem Live.progress {c : Connection} (h : Live c) :
    Tracked c.history c.reader ∧ Progress c.history c.reader := by
  obtain ⟨start, hstart, hsession⟩ := h.session
  exact progress_session hstart hsession

/-- The session goes on with an `OnReadDone` that was outstanding. -/
theorem Live.onReadDone {c : Connection} (h : Live c)
    (outstanding : c.history.length < c.reader.operations.count .startRead) (e : SessionEvent) :
    Live (c.onReadDone e) := by
  obtain ⟨start, hstart, hsession⟩ := h.session
  exact ⟨⟨start, hstart, hsession.concat e outstanding⟩, fun h => absurd rfl h, by rintro _ ⟨⟩⟩

/-- **What is known of a publisher** at every moment. -/
def Linked (events : List (Broker.Event ι)) (s : System ι) (i : ι) : Prop :=
  match s.connections i with
  | none => Agrees events s.broker i [] .waiting
  | some c => Agrees events s.broker i c.history c.serving ∧ Live c

section
variable {options : PublishServiceOptions} {isSecured : Bool} {s t : System ι} {a : Action ι}
  {events : List (Broker.Event ι)} {trace : List (Action ι)} {g : UInt64} {i : ι} {c : Connection}

/-- What is known of a publisher that is connected. -/
theorem Linked.agrees (h : Linked events s i) (hc : s.connections i = some c) :
    Agrees events s.broker i c.history c.serving ∧ Live c := by
  rwa [Linked, hc] at h

/-- The connection of one session changes. -/
theorem linked_serve (h : Agrees events s.broker i c.history c.serving ∧ Live c)
    (hothers : ∀ j ≠ i, Linked events s j) (j : ι) : Linked events (s.serve i c) j := by
  by_cases hj : j = i
  · subst hj
    rw [Linked, connections_serve_self]
    exact h
  · rw [Linked, connections_serve_of_ne s hj]
    exact hothers j hj

/-- A step of the broker that is not a call of the session. -/
theorem Linked.other (h : Linked events s i) {e : Broker.Event ι} {broker : Broker.State ι}
    (hnodup : (s.broker.calls.map Prod.fst).Nodup) (hstep : Broker.Step s.broker e broker)
    (hsubmissions : submissions i [e] = []) (hcompleted : e ≠ .completed i) :
    Linked (events ++ [e]) { s with broker := broker } i := by
  rw [Linked] at h ⊢
  dsimp only
  cases hc : s.connections i with
  | none =>
      rw [hc] at h
      exact h.other hnodup hstep hsubmissions hcompleted
  | some c =>
      rw [hc] at h
      exact ⟨h.1.other hnodup hstep hsubmissions hcompleted, h.2⟩

/-- **Every step keeps what is known of every publisher.** -/
theorem linked_step (h : ∀ i, Linked events s i) (hnodup : (s.broker.calls.map Prod.fst).Nodup)
    (hstep : Step options isSecured s a t) (i : ι) : Linked (events ++ brokerEvents [a]) t i := by
  cases hstep with
  | @connect j clientMetadata publisherCount new =>
      have hnone := h j
      rw [Linked, new] at hnone
      rw [show brokerEvents [Action.connected j] = [] from rfl, List.append_nil]
      refine linked_serve ⟨hnone, ⟨_, (started_construct s.keepRunning).progress, .nil⟩,
        fun h => absurd rfl h, by rintro _ ⟨⟩⟩ (fun k _ => h k) i
  | @reject j c packet broker connection outstanding step =>
      obtain ⟨hagrees, hlive⟩ := (h j).agrees connection
      rw [outstanding.1] at hagrees
      refine linked_serve (c := { c with serving := .called packet .invalidArgument })
        ⟨hagrees.reject hnodup step, hlive.session, fun _ => outstanding.2,
        by rintro _ ⟨⟩⟩ (fun k hk => (h k).other hnodup step ?_ (by rintro ⟨⟩)) i
      simp [submissions, Ne.symm hk]
  | @accept j c packet broker connection outstanding step =>
      obtain ⟨hagrees, hlive⟩ := (h j).agrees connection
      rw [outstanding.1] at hagrees
      refine linked_serve (c := { c with serving := .calling packet })
        ⟨hagrees.accept hnodup step, hlive.session, fun _ => outstanding.2,
        by rintro _ ⟨⟩⟩ (fun k hk => (h k).other hnodup step ?_ (by rintro ⟨⟩)) i
      simp [submissions, Ne.symm hk]
  | @complete j c packet broker connection calls step =>
      obtain ⟨hagrees, hlive⟩ := (h j).agrees connection
      rw [calls] at hagrees
      refine linked_serve (c := { c with serving := .called packet .returned })
        ⟨hagrees.complete hnodup step, hlive.session,
        fun _ => hlive.outstanding (by rw [calls]; rintro ⟨⟩), by rintro _ ⟨⟩⟩
        (fun k hk => (h k).other hnodup step rfl ?_) i
      rintro ⟨⟩
      exact hk rfl
  | @inside e broker isInside step =>
      refine (h i).other hnodup step ?_ ?_
      · cases e with
        | rejected j packet => exact absurd trivial isInside
        | accepted j packet => exact absurd trivial isInside
        | _ => rfl
      · rintro rfl
        exact isInside trivial
  | @resume j c packet outcome connection called movedFrom =>
      obtain ⟨hagrees, hlive⟩ := (h j).agrees connection
      rw [called] at hagrees
      rw [show brokerEvents [Action.returned j] = [] from rfl, List.append_nil]
      have houtcome : outcome ≠ .otherException := by
        rintro rfl
        exact hlive.outcome packet called
      refine linked_serve ⟨hagrees.resume houtcome movedFrom s.keepRunning, hlive.onReadDone
        (hlive.outstanding (by rw [called]; rintro ⟨⟩)) _⟩ (fun k _ => h k) i
  | @endStream j c connection outstanding =>
      obtain ⟨hagrees, hlive⟩ := (h j).agrees connection
      rw [outstanding.1] at hagrees
      rw [show brokerEvents [Action.streamEnded j] = [] from rfl, List.append_nil]
      exact linked_serve ⟨hagrees.endStream s.keepRunning, hlive.onReadDone outstanding.2 _⟩
        (fun k _ => h k) i
  | stop =>
      rw [show brokerEvents [(Action.stopped : Action ι)] = [] from rfl, List.append_nil]
      exact h i

/-- So all of it is known in every state of a run. -/
theorem linked_run (hrun : Run options isSecured (System.initial g : System ι) trace s) (i : ι) :
    Linked (brokerEvents trace) s i := by
  induction hrun generalizing i with
  | nil => exact agrees_initial g i
  | concat hbefore hstep ih =>
      rw [brokerEvents_concat]
      exact linked_step ih (submitted_run (broker_run hbefore)).nodup hstep i

end

/-! ### What a publisher is told -/

/-- **The response sums up what the broker did** with the packets of a publisher. -/
structure Tells (events : List (Broker.Event ι)) (i : ι) (response : PublishResponse) : Prop where
  submitted : response.totalPackets.toNat = (submissions i events).length
  rejected : response.invalidPackets.toNat = (invalid (submissions i events)).length
  entered : response.totalPackets.toNat = response.invalidPackets.toNat + (entriesOf i events).length
  last : response.lastPacketIdentifier = identify (entriesOf i events).getLast?

/-- Where the callback throws nothing but `std::invalid_argument`. -/
theorem length_reads {history : List SessionEvent}
    (h : ∀ read ∈ reads history, read.2 ≠ .otherException) :
    (reads history).length =
      (packetsThat .invalidArgument history).length + (packetsThat .returned history).length := by
  rw [packetsThat, packetsThat, List.length_map, List.length_map]
  generalize reads history = l at h ⊢
  induction l with
  | nil => rfl
  | cons read rest ih =>
      have hrest := ih fun read' hread' => h read' (List.mem_cons_of_mem _ hread')
      obtain ⟨packet, outcome⟩ := read
      cases outcome with
      | returned => simp [hrest]; omega
      | invalidArgument => simp [hrest]; omega
      | otherException => exact absurd rfl (h _ List.mem_cons_self)

/-- A session that is outside its callback. -/
theorem Agrees.waiting {b : Broker.State ι} {events : List (Broker.Event ι)} {i : ι}
    {history : List SessionEvent} (h : Agrees events b i history .waiting) :
    submissions i events = (reads history).map Prod.fst ∧
    entriesOf i events = packetsThat .returned history ∧
    invalid (submissions i events) = packetsThat .invalidArgument history := by
  obtain ⟨submitted, accepted, rejected, -, calls⟩ := h
  have hidle : i ∉ b.calls.map Prod.fst := fun hi => by
    obtain ⟨_, ⟨⟩⟩ := calls.1 hi
  rw [pending_eq_nil hidle, List.append_nil] at accepted
  exact ⟨submitted.trans (List.append_nil _), accepted.trans (List.append_nil _),
    rejected.trans (List.append_nil _)⟩

section
variable {options : PublishServiceOptions} {isSecured : Bool} {s t : System ι}
  {trace : List (Action ι)} {g : UInt64} {i : ι} {c : Connection}

/-- A session that finished is outside its callback. -/
theorem Live.waiting_of_finish (h : Live c) {status : Status} {response : PublishResponse}
    (hfinish : .finish status response ∈ c.reader.operations) : c.serving = .waiting := by
  by_contra hserving
  have hoperations := (h.progress.2.reading_of_outstanding (h.outstanding hserving)).1
  rw [hoperations] at hfinish
  cases List.eq_of_mem_replicate hfinish

/-- **What a publisher is told is what the broker did.**  Whatever sessions, propagator,
consumers and shutdown do in between, and as long as the publisher submitted fewer than 2^64
packets.  A response is sent only if the session ended with the end of its stream before the
shutdown, or was finished by its constructor, with the status OK, after it.  It tells how many
packets the publisher submitted, how many of them the broker rejected, that all others entered
the import queue, and which one entered last.  Any other session sends none, though at the end
of its stream it filled the response. -/
theorem response_of_finish (hrun : Run options isSecured (System.initial g : System ι) trace s)
    (hc : s.connections i = some c) {status : Status} {response : PublishResponse}
    (hfinish : .finish status response ∈ c.reader.operations)
    (hbound : (submissions i (brokerEvents trace)).length < 2 ^ 64) :
    ((Operation.finish status response).sent = some response ∧
        (c.history = [] ∨ ∃ before, c.history = before ++ [.endOfStream true]) ∧
        Tells (brokerEvents trace) i response) ∨
      (Operation.finish status response).sent = none ∧
        ((∃ before, c.history = before ++ [.endOfStream false] ∧
            Tells (brokerEvents trace) i response) ∨
          (∀ before keepRunning, c.history ≠ before ++ [.endOfStream keepRunning]) ∧
            response = {}) := by
  obtain ⟨hagrees, hlive⟩ := (linked_run hrun i).agrees hc
  rw [hlive.waiting_of_finish hfinish] at hagrees
  obtain ⟨hsubmitted, hentered, hrejected⟩ := hagrees.waiting
  have hreads : (reads c.history).length < 2 ^ 64 := by
    rwa [hsubmitted, List.length_map] at hbound
  obtain ⟨⟨htotal, hinvalid, hlast⟩, hprogress⟩ := hlive.progress
  cases hprogress with
  | reading operations _ =>
      rw [operations] at hfinish
      cases List.eq_of_mem_replicate hfinish
  | unfilled status' operations fails last =>
      rw [operations] at hfinish
      obtain ⟨rfl, rfl⟩ := eq_of_finish_mem hfinish
      by_cases hok : status.code = .ok
      · rw [fails hok] at hsubmitted hentered hrejected
        refine Or.inl ⟨if_pos hok, Or.inl (fails hok), ?_, ?_, ?_, ?_⟩
        · rw [hsubmitted]
          rfl
        · rw [hrejected]
          rfl
        · rw [hentered]
          rfl
        · rw [hentered]
          rfl
      · exact Or.inr ⟨if_neg hok, Or.inr ⟨last, rfl⟩⟩
  | filled status' before keepRunning operations isOk last hresponse =>
      rw [operations] at hfinish
      obtain ⟨rfl, rfl⟩ := eq_of_finish_mem hfinish
      have hlength := length_reads hagrees.outcomes
      have htotal' : c.reader.response.totalPackets.toNat = (reads c.history).length := by
        rw [hresponse]
        exact (congrArg UInt64.toNat htotal).trans (UInt64.toNat_ofNat_of_lt' hreads)
      have hinvalid' : c.reader.response.invalidPackets.toNat =
          (packetsThat .invalidArgument c.history).length := by
        rw [hresponse]
        exact (congrArg UInt64.toNat hinvalid).trans (UInt64.toNat_ofNat_of_lt' (by rw [UInt64.size]; omega))
      have htells : Tells (brokerEvents trace) i c.reader.response := by
        refine ⟨?_, ?_, ?_, ?_⟩
        · rw [htotal', hsubmitted, List.length_map]
        · rw [hinvalid', hrejected]
        · rw [htotal', hinvalid', hentered, hlength]
        · rw [hresponse, hentered]
          exact hlast
      cases keepRunning with
      | true => exact Or.inl ⟨if_pos (isOk.2 rfl), Or.inr ⟨before, last⟩, htells⟩
      | false =>
          refine Or.inr ⟨if_neg fun hok => ?_, Or.inl ⟨before, last, htells⟩⟩
          cases isOk.1 hok

/-- Two publishers send a packet each, the second one after another without an identifier,
and their streams end.  The first is told; before the second is, the service stops. -/
theorem response_of_finish_samplePacket :
    ∃ (trace : List (Action ℕ)) (s : System ℕ) (response : PublishResponse),
      Run {} false (System.initial 0) trace s ∧
      (s.connections 0).map (·.reader.operations) =
        some [.startRead, .startRead, .finish {} response] ∧
      response.totalPackets = 1 ∧ Tells (brokerEvents trace) 0 response ∧
      submissions 1 (brokerEvents trace) = [{}, samplePacket 3] ∧
      (s.connections 1).map (·.reader.operations.filterMap Operation.sent) = some [] := by
  have htold (s : System ℕ) (trace : List (Action ℕ))
      (hrun : Run {} false (System.initial 0) trace s) (response : PublishResponse)
      (hoperations : (s.connections 0).map (·.reader.operations) =
        some [.startRead, .startRead, .finish {} response])
      (hbound : (submissions 0 (brokerEvents trace)).length < 2 ^ 64) :
      Tells (brokerEvents trace) 0 response := by
    obtain ⟨c, hc, hoperations⟩ := Option.map_eq_some_iff.1 hoperations
    have hfinish : Operation.finish {} response ∈ c.reader.operations := by
      rw [hoperations]
      exact List.mem_cons_of_mem _ (List.mem_cons_of_mem _ List.mem_cons_self)
    rcases response_of_finish hrun hc hfinish hbound with ⟨-, -, htells⟩ | ⟨hnone, -⟩
    · exact htells
    · cases hnone
  have hstart : Run {} false (System.initial 0 : System ℕ) [] _ := .nil
  have hconnected := (hstart.concat (.connect (i := 0) [] 0 rfl)).concat
    (.connect (i := 1) [] 1 rfl)
  have hcalled := (hconnected.concat (.accept rfl ⟨rfl, by decide⟩
    (@Broker.Step.accept ℕ _ 0 (samplePacket 7) (by decide) (by decide)))).concat
    (.reject rfl ⟨rfl, by decide⟩ (@Broker.Step.reject ℕ _ 1 {} _ (by decide) rfl))
  have hfirst := ((hcalled.concat
    (.inside id (@Broker.Step.enqueue ℕ _ 0 (samplePacket 7) [] [] rfl))).concat
    (.complete rfl rfl (@Broker.Step.complete ℕ _ 0 0 [] [] rfl))).concat
    (@Step.resume ℕ _ {} false _ 0 _ (samplePacket 7) .returned rfl rfl {})
  have hrejected := hfirst.concat
    (@Step.resume ℕ _ {} false _ 1 _ {} .invalidArgument rfl rfl {})
  have hsecond := (((hrejected.concat (.accept rfl ⟨rfl, by decide⟩
    (@Broker.Step.accept ℕ _ 1 (samplePacket 3) (by decide) (by decide)))).concat
    (.inside id (@Broker.Step.enqueue ℕ _ 1 (samplePacket 3) [] [] rfl))).concat
    (.complete rfl rfl (@Broker.Step.complete ℕ _ 1 0 [] [] rfl))).concat
    (@Step.resume ℕ _ {} false _ 1 _ (samplePacket 3) .returned rfl rfl {})
  have hrun := ((hsecond.concat (.endStream (i := 0) rfl ⟨rfl, by decide⟩)).concat .stop).concat
    (.endStream (i := 1) rfl ⟨rfl, by decide⟩)
  exact ⟨_, _, _, hrun, rfl, rfl, htold _ _ hrun _ rfl (by decide), rfl, rfl⟩

end

end Publishing
end UDataPacketBroker
