/-
# The publisher limit

A reader compares the number of publishers with the maximum when it is built, and
adds itself to that number some steps later, after the access token was checked.
gRPC builds readers on several threads, so others may pass the comparison in
between.  `ServerRun` interleaves any number of sessions at these steps.

A session that passed will register, so what has to stay below the maximum is the
number of sessions that passed and are not done, `occupied`.  The code compares
the number of those that have registered (`withinLimit_iff`).
-/

import Mathlib.Algebra.Order.Ring.Int
import Mathlib.Data.List.Induction
import UDataPacketBroker.PublishService

namespace UDataPacketBroker
namespace PublishService

/-! ### The sessions of a server -/

variable {ι : Type}

/-- The readers of a server between two atomic steps.  Sessions are named by `ι`. -/
structure Server (ι : Type) where
  publisherCount : ℤ := 0
  /-- Readers that passed the checks and did not reach `fetch_add` yet. -/
  admitted : List (ι × AsynchronousReader) := []
  /-- Readers whose constructor returned, up to their `OnDone`. -/
  sessions : List (ι × AsynchronousReader) := []

/-- What happens to a session. -/
inductive ServerEvent (ι : Type) where
  | admitted (session : ι)
  | turnedAway (session : ι) (status : Status)
  | registered (session : ι)
  | readDone (session : ι) (e : SessionEvent)
  /-- `OnDone`, of a session that had registered or of one that had not. -/
  | done (session : ι) (registered : Bool)

/-- One atomic step.  The access token is no shared state, so it is checked together
with the load that precedes it. -/
inductive ServerStep (options : PublishServiceOptions) (isSecured : Bool) :
    Server ι → ServerEvent ι → Server ι → Prop
  | pass {s : Server ι} (session : ι) (clientMetadata : List (Bytes × Bytes))
      (passes : AsynchronousReader.admission options isSecured clientMetadata s.publisherCount
        = .ok ()) :
      ServerStep options isSecured s (.admitted session) { s with
        admitted := s.admitted ++ [(session,
          { maximumConsecutiveInvalidMessages := options.maximumConsecutiveInvalidMessages })] }
  | turnAway {s : Server ι} (session : ι) (clientMetadata : List (Bytes × Bytes)) {status : Status}
      (fails : AsynchronousReader.admission options isSecured clientMetadata s.publisherCount
        = .error status) :
      ServerStep options isSecured s (.turnedAway session status) { s with
        sessions := s.sessions ++ [(session, AsynchronousReader.finish
          { maximumConsecutiveInvalidMessages := options.maximumConsecutiveInvalidMessages }
            status)] }
  | register {s : Server ι} {session : ι} {reader : AsynchronousReader}
      {before after : List (ι × AsynchronousReader)} (keepRunning : Bool)
      (waits : s.admitted = before ++ (session, reader) :: after) :
      ServerStep options isSecured s (.registered session) { s with
        publisherCount := (reader.register s.publisherCount keepRunning).1
        admitted := before ++ after
        sessions := s.sessions ++ [(session, (reader.register s.publisherCount keepRunning).2)] }
  | readDone {s : Server ι} {session : ι} {reader : AsynchronousReader}
      {before after : List (ι × AsynchronousReader)} (e : SessionEvent)
      (lives : s.sessions = before ++ (session, reader) :: after)
      (outstanding : reader.operations.getLast? = some .startRead) :
      ServerStep options isSecured s (.readDone session e) { s with
        sessions := before ++ (session, reader.onReadDone e) :: after }
  | done {s : Server ι} {session : ι} {reader : AsynchronousReader}
      {before after : List (ι × AsynchronousReader)}
      (lives : s.sessions = before ++ (session, reader) :: after)
      (finished : ∃ status response, .finish status response ∈ reader.operations) :
      ServerStep options isSecured s (.done session reader.registered) { s with
        publisherCount := reader.onDone s.publisherCount
        sessions := before ++ after }

/-- A run of a server that starts without sessions. -/
inductive ServerRun (options : PublishServiceOptions) (isSecured : Bool) :
    List (ServerEvent ι) → Server ι → Prop
  | nil : ServerRun options isSecured [] {}
  | concat {trace : List (ServerEvent ι)} {e : ServerEvent ι} {s t : Server ι}
      (run : ServerRun options isSecured trace s) (step : ServerStep options isSecured s e t) :
      ServerRun options isSecured (trace ++ [e]) t

/-- The sessions that are registered at the same time. -/
def Server.registered (s : Server ι) : ℕ := s.sessions.countP (·.2.registered)

/-- How many sessions passed the checks. -/
def passed (trace : List (ServerEvent ι)) : ℕ :=
  trace.countP fun e => match e with
    | .admitted _ => true
    | _ => false

/-- How many registered sessions are done. -/
def departed (trace : List (ServerEvent ι)) : ℕ :=
  trace.countP fun e => match e with
    | .done _ registered => registered
    | _ => false

/-- **The sessions that passed the checks and are not done,** registered or not. -/
def occupied (trace : List (ServerEvent ι)) : ℕ := passed trace - departed trace

/-! ### The count -/

/-- `OnReadDone` does not register or unregister. -/
theorem registered_onReadDone (reader : AsynchronousReader) (e : SessionEvent) :
    (reader.onReadDone e).registered = reader.registered := by
  cases e with
  | endOfStream keepRunning => cases keepRunning <;> rfl
  | read packet outcome movedFrom keepRunning =>
      unfold AsynchronousReader.onReadDone AsynchronousReader.onReadOk
      dsimp only
      split_ifs <;> cases outcome <;> rfl

/-- A reader that reaches `fetch_add` is registered. -/
theorem registered_register (reader : AsynchronousReader) (publisherCount : ℤ)
    (keepRunning : Bool) : (reader.register publisherCount keepRunning).2.registered = true := by
  cases keepRunning <;> rfl

/-- `mPublisherCount` is the number of registered sessions, and who passed is waiting,
registered or gone. -/
structure Counted (trace : List (ServerEvent ι)) (s : Server ι) : Prop where
  publisherCount : s.publisherCount = s.registered
  balance : s.admitted.length + s.registered + departed trace = passed trace

/-- One more event, and whether a session passed with it. -/
theorem passed_concat (trace : List (ServerEvent ι)) (e : ServerEvent ι) :
    passed (trace ++ [e]) = passed trace + passed [e] := List.countP_append

/-- One more event, and whether a session was done with it. -/
theorem departed_concat (trace : List (ServerEvent ι)) (e : ServerEvent ι) :
    departed (trace ++ [e]) = departed trace + departed [e] := List.countP_append

/-- An event that neither lets a session pass nor changes who is registered. -/
theorem Counted.of_eq {trace : List (ServerEvent ι)} {e : ServerEvent ι} {s t : Server ι}
    (h : Counted trace s) (hpassed : passed [e] = 0) (hdeparted : departed [e] = 0)
    (hcount : t.publisherCount = s.publisherCount) (hadmitted : t.admitted = s.admitted)
    (hregistered : t.registered = s.registered) : Counted (trace ++ [e]) t := by
  obtain ⟨hpublishers, hbalance⟩ := h
  constructor
  · rw [hcount, hregistered, hpublishers]
  · rw [passed_concat, departed_concat, hpassed, hdeparted, hadmitted, hregistered]
    exact hbalance

/-- **A step keeps the count.** -/
theorem Counted.step {options : PublishServiceOptions} {isSecured : Bool}
    {trace : List (ServerEvent ι)} {e : ServerEvent ι} {s t : Server ι} (h : Counted trace s)
    (hstep : ServerStep options isSecured s e t) : Counted (trace ++ [e]) t := by
  have hcounted := h
  obtain ⟨hcount, hbalance⟩ := h
  cases hstep with
  | pass session clientMetadata passes =>
      refine ⟨hcount, ?_⟩
      have hpassed : passed [ServerEvent.admitted session] = 1 := rfl
      have hdeparted : departed [ServerEvent.admitted session] = 0 := rfl
      rw [passed_concat, departed_concat, hpassed, hdeparted, List.length_append,
        List.length_singleton]
      simp only [Server.registered] at hbalance ⊢
      omega
  | turnAway session clientMetadata fails =>
      refine hcounted.of_eq rfl rfl rfl rfl ?_
      rw [Server.registered, List.countP_append]
      rfl
  | @register session reader before after keepRunning waits =>
      have hlength : s.admitted.length = (before ++ after).length + 1 := by
        rw [waits, List.length_append, List.length_cons, List.length_append]
        omega
      have hpassed : passed [ServerEvent.registered session] = 0 := rfl
      have hdeparted : departed [ServerEvent.registered session] = 0 := rfl
      simp only [Server.registered] at hcount hbalance
      constructor
      · rw [Server.registered, List.countP_append, List.countP_singleton, registered_register,
          AsynchronousReader.register, hcount]
        rfl
      · rw [Server.registered, List.countP_append, List.countP_singleton, registered_register,
          if_pos rfl, passed_concat, departed_concat, hpassed, hdeparted]
        dsimp only
        omega
  | @readDone session reader before after e lives outstanding =>
      refine hcounted.of_eq rfl rfl rfl rfl ?_
      rw [Server.registered, Server.registered, lives, List.countP_append, List.countP_append,
        List.countP_cons, List.countP_cons, registered_onReadDone]
  | @done session reader before after lives finished =>
      have hdeparted : departed [ServerEvent.done session reader.registered]
          = if reader.registered then 1 else 0 := List.countP_singleton
      have hpassed : passed [ServerEvent.done session reader.registered] = 0 := rfl
      have hregistered : s.registered = ((before ++ after).countP fun x => x.2.registered)
          + if reader.registered then 1 else 0 := by
        rw [Server.registered, lives, List.countP_append, List.countP_append, List.countP_cons,
          Nat.add_assoc]
      rw [hregistered] at hcount hbalance
      constructor
      · rw [Server.registered, AsynchronousReader.onDone, hcount]
        cases reader.registered <;> simp
      · rw [Server.registered, passed_concat, departed_concat, hpassed, hdeparted]
        dsimp only
        omega

/-- So the count is right in every run. -/
theorem counted_run {options : PublishServiceOptions} {isSecured : Bool}
    {trace : List (ServerEvent ι)} {s : Server ι} (hrun : ServerRun options isSecured trace s) :
    Counted trace s := by
  induction hrun with
  | nil => exact ⟨rfl, rfl⟩
  | concat _ hstep ih => exact ih.step hstep

/-! ### The limit -/

section
variable {options : PublishServiceOptions} {isSecured : Bool}

/-- A front of a run is a run. -/
theorem exists_run_of_append {before after : List (ServerEvent ι)} {s : Server ι}
    (hrun : ServerRun options isSecured (before ++ after) s) :
    ∃ t, ServerRun options isSecured before t := by
  induction after using List.reverseRecOn generalizing s with
  | nil => exact ⟨s, List.append_nil before ▸ hrun⟩
  | append_singleton after e ih =>
      rw [← List.append_assoc] at hrun
      generalize htrace : before ++ after ++ [e] = trace at hrun
      cases hrun with
      | nil => simp at htrace
      | concat hfront _ =>
          rw [← (List.append_inj' htrace rfl).1] at hfront
          exact ih hfront

/-- All sessions that passed can register. -/
theorem exists_registrations {trace : List (ServerEvent ι)} {s : Server ι}
    (hrun : ServerRun options isSecured trace s) :
    ∃ (rest : List (ServerEvent ι)) (t : Server ι), (∀ e ∈ rest, ∃ i, e = .registered i) ∧
      ServerRun options isSecured (trace ++ rest) t ∧
      t.registered = s.registered + s.admitted.length := by
  generalize hn : s.admitted.length = n
  induction n generalizing trace s with
  | zero => exact ⟨[], s, fun _ h => absurd h List.not_mem_nil, by rwa [List.append_nil], rfl⟩
  | succ n ih =>
      obtain ⟨⟨session, reader⟩, admitted, hadmitted⟩ := List.exists_cons_of_length_eq_add_one hn
      have hnext := hrun.concat (@ServerStep.register ι options isSecured s session reader []
        admitted true hadmitted)
      have hlength : admitted.length = n := by
        rw [hadmitted, List.length_cons] at hn
        exact Nat.succ.inj hn
      obtain ⟨rest, t, hrest, hrun', hregistered⟩ := ih hnext hlength
      refine ⟨.registered session :: rest, t, ?_, by simpa using hrun', ?_⟩
      · rintro e he
        rcases List.mem_cons.1 he with rfl | he
        · exact ⟨session, rfl⟩
        · exact hrest e he
      · rw [hregistered, Server.registered, List.countP_append, List.countP_singleton,
          registered_register, if_pos rfl, Server.registered]
        omega

/-- Only an event that lets a session pass occupies another place. -/
theorem occupied_concat_le (trace : List (ServerEvent ι)) {e : ServerEvent ι}
    (h : ∀ session, e ≠ .admitted session) : occupied (trace ++ [e]) ≤ occupied trace := by
  have hnone : passed [e] = 0 := by
    cases e with
    | admitted session => exact absurd rfl (h session)
    | turnedAway session status => rfl
    | registered session => rfl
    | readDone session e => rfl
    | done session registered => rfl
  unfold occupied
  rw [passed_concat, departed_concat, hnone]
  omega

/-- A session that passes occupies one place more at most. -/
theorem occupied_concat_admitted (trace : List (ServerEvent ι)) (session : ι) :
    occupied (trace ++ [.admitted session]) ≤ occupied trace + 1 := by
  have hone : passed [ServerEvent.admitted session] = 1 := rfl
  unfold occupied
  rw [passed_concat, departed_concat, hone]
  omega

/-- A trace in which each session passed with a place free occupies no more places
than there are. -/
theorem occupied_le {maximum : ℤ} (hpos : 0 ≤ maximum) {trace : List (ServerEvent ι)}
    (h : ∀ before session after, trace = before ++ .admitted session :: after →
      (occupied before : ℤ) < maximum) : (occupied trace : ℤ) ≤ maximum := by
  induction trace using List.reverseRecOn with
  | nil => exact hpos
  | append_singleton trace e ih =>
      have htrace := ih fun before session after heq =>
        h before session (after ++ [e]) (by rw [heq, List.append_assoc]; rfl)
      by_cases hadmitted : ∃ session, e = .admitted session
      · obtain ⟨session, rfl⟩ := hadmitted
        have hfree := h trace session [] rfl
        have hone := occupied_concat_admitted trace session
        omega
      · have hless := occupied_concat_le trace fun session he => hadmitted ⟨session, he⟩
        omega

/-- **When the number of publishers stays within the limit.**  In every state of a
run, also after any of the sessions that have passed register, at most the maximum
are registered, exactly when each session passed while fewer than the maximum
were occupied. -/
theorem withinLimit_iff {trace : List (ServerEvent ι)} {s : Server ι}
    (hrun : ServerRun options isSecured trace s) :
    (∀ before after rest t, trace = before ++ after → (∀ e ∈ rest, ∃ i, e = .registered i) →
      ServerRun options isSecured (before ++ rest) t →
      (t.registered : ℤ) ≤ options.maximumNumberOfPublishers) ↔
    ∀ before session after, trace = before ++ .admitted session :: after →
      (occupied before : ℤ) < options.maximumNumberOfPublishers := by
  constructor
  · rintro h before session after rfl
    rw [← List.singleton_append, ← List.append_assoc] at hrun h
    obtain ⟨t, hpassed⟩ := exists_run_of_append hrun
    obtain ⟨rest, u, hrest, hrun', hregistered⟩ := exists_registrations hpassed
    have hwithin := h _ after rest u rfl hrest hrun'
    have hbalance := (counted_run hpassed).balance
    rw [passed_concat, departed_concat] at hbalance
    have hone : passed [ServerEvent.admitted session] = 1 := rfl
    have hnone : departed [ServerEvent.admitted session] = 0 := rfl
    have hpos := options.maximumNumberOfPublishers_pos
    unfold occupied
    omega
  · rintro h before after rest t rfl hrest hrun'
    have hle : (occupied before : ℤ) ≤ options.maximumNumberOfPublishers :=
      occupied_le (by have := options.maximumNumberOfPublishers_pos; omega)
        fun before' session after' heq => h before' session (after' ++ after)
          (by rw [heq, List.append_assoc]; rfl)
    -- registrations neither pass the checks nor leave
    have hquiet : passed rest = 0 ∧ departed rest = 0 := by
      constructor <;>
      · refine List.countP_eq_zero.2 fun e he => ?_
        obtain ⟨i, rfl⟩ := hrest e he
        exact Bool.false_ne_true
    have hbalance := (counted_run hrun').balance
    have hpassed : passed (before ++ rest) = passed before + passed rest := List.countP_append
    have hdeparted : departed (before ++ rest) = departed before + departed rest :=
      List.countP_append
    unfold occupied at hle
    omega

end

/-- Two publishers on a server for two. -/
theorem withinLimit_iff_two :
    ∃ s : Server ℕ, ServerRun { maximumNumberOfPublishers := 2 } false
        [.admitted 0, .admitted 1, .registered 1, .registered 0] s ∧ (s.registered : ℤ) ≤ 2 := by
  have hstart : ServerRun { maximumNumberOfPublishers := 2 } false [] ({} : Server ℕ) := .nil
  have hboth := (hstart.concat (.pass 0 [] (by decide))).concat (.pass 1 [] (by decide))
  have hrun := (hboth.concat (@ServerStep.register ℕ { maximumNumberOfPublishers := 2 } false _ 1 _
    [_] [] true rfl)).concat (@ServerStep.register ℕ { maximumNumberOfPublishers := 2 } false _ 0 _
    [] [] true rfl)
  refine ⟨_, hrun, (withinLimit_iff hrun).2 (fun before session after h => ?_)
    [.admitted 0, .admitted 1, .registered 1, .registered 0] [] [] _ rfl
    (fun _ h => absurd h List.not_mem_nil) hrun⟩
  -- each finds the other's place taken at most
  rcases before with _ | ⟨e, _ | ⟨e', before⟩⟩
  · decide
  · cases (List.cons.inj h).1
    decide
  · have hlast : [ServerEvent.registered 1, .registered 0] = before ++ .admitted session :: after :=
      (List.cons.inj (List.cons.inj h).2).2
    have hmem : ServerEvent.admitted session ∈ before ++ .admitted session :: after :=
      List.mem_append_right _ List.mem_cons_self
    rw [← hlast] at hmem
    rcases List.mem_cons.1 hmem with h | h
    · cases h
    · cases List.mem_singleton.1 h

/-- **Two publishers on a server for one:** both compare before either registers. -/
theorem not_withinLimit_two :
    ¬ ∀ (options : PublishServiceOptions) (isSecured : Bool) (trace : List (ServerEvent ℕ))
      (s : Server ℕ), ServerRun options isSecured trace s →
      (s.registered : ℤ) ≤ options.maximumNumberOfPublishers := by
  intro h
  have hstart : ServerRun { maximumNumberOfPublishers := 1 } false [] ({} : Server ℕ) := .nil
  have hboth := (hstart.concat (.pass 0 [] (by decide))).concat (.pass 1 [] (by decide))
  have hrun := (hboth.concat (@ServerStep.register ℕ { maximumNumberOfPublishers := 1 } false _ 0 _
    [] _ true rfl)).concat (@ServerStep.register ℕ { maximumNumberOfPublishers := 1 } false _ 1 _
    [] [] true rfl)
  exact absurd (h _ _ _ _ hrun) (by decide)

end PublishService
end UDataPacketBroker
