/-
# The protocol of a reader

gRPC answers each `StartRead` with one `OnReadDone` and a `Finish` with one
`OnDone`, after which the reader deletes itself.  A reader therefore has to ask for
exactly one of the two whenever gRPC returns from it: with neither the call hangs, and
after a `Finish` nothing may follow.  `OnDone` gives back the place that the
constructor took, and only then.

`admission` decides who may publish, and it compares with the number of publishers
some steps before the session adds itself to it, so `Started` reads the number twice.
-/

import Mathlib.Data.List.Infix
import UDataPacketBroker.PublishService.Limit
import UDataPacketBroker.PublishService.Response

namespace UDataPacketBroker
namespace PublishService

/-! ### The access token -/

/-- `GRPCServerOptions::setAccessToken`. -/
def PublishServiceOptions.setAccessToken (options : PublishServiceOptions) (accessToken : Bytes) :
    Except Bytes PublishServiceOptions :=
  if accessToken.isEmpty then .error (ascii "Access token cannot be empty.")
  else .ok { options with accessToken := some accessToken }

/-- Options whose access token was never set, or set with `setAccessToken`. -/
inductive PublishServiceOptions.Configured : PublishServiceOptions → Prop
  | unset {options : PublishServiceOptions} (h : options.accessToken = none) : Configured options
  | set {options options' : PublishServiceOptions} {accessToken : Bytes}
      (h : options.setAccessToken accessToken = .ok options') : Configured options'

/-- A token that was set with the setter is not empty. -/
theorem PublishServiceOptions.Configured.accessToken_ne_nil {options : PublishServiceOptions}
    (h : options.Configured) {accessToken : Bytes}
    (htoken : options.accessToken = some accessToken) :
    accessToken ≠ [] := by
  cases h with
  | unset h =>
      rw [h] at htoken
      cases htoken
  | @set before _ token h =>
      unfold setAccessToken at h
      split_ifs at h with hempty
      cases h
      cases htoken
      rwa [List.isEmpty_iff] at hempty

/-- A token that is not empty is compared with the header. -/
theorem validatePublisher_iff {accessToken : Bytes} (h : accessToken ≠ [])
    (clientMetadata : List (Bytes × Bytes)) :
    validatePublisher clientMetadata accessToken = true ↔
      (ascii "x-custom-auth-token", accessToken) ∈ clientMetadata := by
  have hempty : accessToken.isEmpty = false := List.isEmpty_eq_false_iff.2 h
  rw [validatePublisher, hempty, Bool.false_or, List.any_eq_true]
  constructor
  · rintro ⟨⟨key, value⟩, hmem, heq⟩
    rw [Bool.and_eq_true, beq_iff_eq, beq_iff_eq] at heq
    obtain ⟨rfl, rfl⟩ := heq
    exact hmem
  · exact fun hmem => ⟨_, hmem, by simp⟩

/-- **Who may publish.**  There is a place, and the client of a secured server carries
the access token if there is one. -/
structure Admitted (options : PublishServiceOptions) (isSecured : Bool)
    (clientMetadata : List (Bytes × Bytes)) (publisherCount : ℤ) : Prop where
  place : publisherCount < options.maximumNumberOfPublishers
  token : isSecured = true → ∀ accessToken, options.accessToken = some accessToken →
    (ascii "x-custom-auth-token", accessToken) ∈ clientMetadata

/-- **The checks of the constructor let exactly these pass.** -/
theorem admission_eq_ok_iff {options : PublishServiceOptions} (h : options.Configured)
    (isSecured : Bool) (clientMetadata : List (Bytes × Bytes)) (publisherCount : ℤ) :
    AsynchronousReader.admission options isSecured clientMetadata publisherCount = .ok () ↔
      Admitted options isSecured clientMetadata publisherCount := by
  unfold AsynchronousReader.admission
  by_cases hplace : publisherCount ≥ options.maximumNumberOfPublishers
  · rw [if_pos hplace]
    refine iff_of_false (fun h => by cases h) fun h => ?_
    have hfree := h.place
    omega
  · rw [if_neg hplace]
    rw [ge_iff_le, not_le] at hplace
    cases isSecured with
    | false =>
        rw [if_neg Bool.false_ne_true]
        exact iff_of_true rfl ⟨hplace, fun h => absurd h Bool.false_ne_true⟩
    | true =>
        rw [if_pos rfl]
        cases htoken : options.accessToken with
        | none =>
            refine iff_of_true rfl ⟨hplace, fun _ accessToken h => ?_⟩
            rw [htoken] at h
            cases h
        | some accessToken =>
            have hvalid := validatePublisher_iff (h.accessToken_ne_nil htoken) clientMetadata
            dsimp only
            split_ifs with hcarried
            · refine iff_of_true rfl ⟨hplace, fun _ accessToken' h => ?_⟩
              rw [htoken] at h
              cases h
              exact hvalid.1 hcarried
            · refine iff_of_false (fun h => by cases h) fun h => hcarried ?_
              exact hvalid.2 (h.token rfl accessToken htoken)

/-! ### The constructor -/

/-- **A reader whose constructor returned,** and what the constructor added to the
number of publishers.  That number was `publisherCount` when it was compared, and others
may have changed it before `fetch_add`. -/
inductive Started (options : PublishServiceOptions) (isSecured : Bool)
    (clientMetadata : List (Bytes × Bytes)) (publisherCount : ℤ) : AsynchronousReader → ℤ → Prop
  | turnedAway {status : Status}
      (fails : AsynchronousReader.admission options isSecured clientMetadata publisherCount
        = .error status) :
      Started options isSecured clientMetadata publisherCount (AsynchronousReader.finish
        { maximumConsecutiveInvalidMessages := options.maximumConsecutiveInvalidMessages } status) 0
  | registered {reader : AsynchronousReader} (count count' : ℤ) (keepRunning : Bool)
      (passes : AsynchronousReader.admission options isSecured clientMetadata publisherCount
        = .ok ())
      (adds : AsynchronousReader.register count keepRunning
        { maximumConsecutiveInvalidMessages := options.maximumConsecutiveInvalidMessages }
          = (count', reader)) :
      Started options isSecured clientMetadata publisherCount reader (count' - count)

section
variable {options : PublishServiceOptions} {isSecured : Bool}
  {clientMetadata : List (Bytes × Bytes)} {publisherCount effect : ℤ}
  {start reader : AsynchronousReader} {trace : List SessionEvent}

/-- `construct` is the case without other sessions in between. -/
theorem started_construct (keepRunning : Bool) :
    Started options isSecured clientMetadata publisherCount
      (AsynchronousReader.construct options isSecured clientMetadata publisherCount keepRunning).2
      ((AsynchronousReader.construct options isSecured clientMetadata publisherCount
        keepRunning).1 - publisherCount) := by
  unfold AsynchronousReader.construct
  dsimp only
  split
  · rename_i status hstatus
    rw [sub_self]
    exact .turnedAway hstatus
  · rename_i hok
    exact .registered publisherCount _ keepRunning hok rfl

/-- A new reader has its counters at zero, and asked for one operation. -/
theorem Started.progress
    (h : Started options isSecured clientMetadata publisherCount start effect) :
    Tracked [] start ∧ Progress [] start := by
  cases h with
  | @turnedAway status fails =>
      exact progress_finish options.maximumConsecutiveInvalidMessages false status
  | registered count count' keepRunning passes adds =>
      cases adds
      exact progress_register options.maximumConsecutiveInvalidMessages count keepRunning

/-- **`OnDone` undoes what the constructor did** to the number of publishers. -/
theorem Started.onDone (h : Started options isSecured clientMetadata publisherCount start effect)
    (count : ℤ) : effect + (start.onDone count - count) = 0 := by
  cases h with
  | turnedAway fails =>
      rw [AsynchronousReader.onDone, AsynchronousReader.finish, if_neg Bool.false_ne_true]
      omega
  | registered before after keepRunning passes adds =>
      have hregistered : start.registered = true := by
        rw [← registered_register _ before keepRunning, adds]
      have hafter : before + 1 = after := congrArg Prod.fst adds
      rw [AsynchronousReader.onDone, if_pos hregistered]
      omega

/-! ### Sessions -/

/-- The reads that gRPC did not answer yet. -/
def outstanding (trace : List SessionEvent) (reader : AsynchronousReader) : ℕ :=
  reader.operations.count .startRead - trace.length

/-- The reader called `Finish`. -/
def AsynchronousReader.Finished (reader : AsynchronousReader) : Prop :=
  ∃ status response, .finish status response ∈ reader.operations

/-- **What gRPC demands of a reader** whenever it returns. -/
structure Protocol (trace : List SessionEvent) (reader : AsynchronousReader) : Prop where
  answered : trace.length ≤ reader.operations.count .startRead
  outstanding_le : outstanding trace reader ≤ 1
  outstanding_iff : outstanding trace reader = 1 ↔ ¬reader.Finished
  /-- Neither a read nor another `Finish` follows. -/
  last : ∀ before status response after,
    reader.operations = before ++ .finish status response :: after → after = []

/-- Where the reads come first, a `Finish` is the last operation. -/
theorem eq_nil_of_replicate_append {n : ℕ} {status status' : Status}
    {response response' : PublishResponse} {before after : List Operation}
    (h : List.replicate n .startRead ++ [.finish status response]
      = before ++ .finish status' response' :: after) : after = [] := by
  rcases List.append_eq_append_iff.1 h with ⟨middle, hbefore, hlast⟩ | ⟨middle, hreads, hlast⟩
  · cases middle with
    | nil => exact (List.cons.inj hlast).2.symm
    | cons _ _ => simp at hlast
  · cases middle with
    | nil => exact (List.cons.inj hlast).2
    | cons operation middle =>
        obtain ⟨rfl, -⟩ := List.cons.inj hlast
        have hmem : Operation.finish status' response' ∈ List.replicate n Operation.startRead :=
          hreads ▸ List.mem_append_right _ List.mem_cons_self
        cases List.eq_of_mem_replicate hmem

/-- **How far a session is tells that it keeps the protocol.** -/
theorem Progress.protocol (h : Progress trace reader) : Protocol trace reader := by
  have hfinished : ∀ status response, reader.operations
      = List.replicate trace.length .startRead ++ [.finish status response] →
      Protocol trace reader := by
    intro status response hoperations
    have hcount : reader.operations.count .startRead = trace.length := by
      rw [hoperations]
      simp
    have hnone : outstanding trace reader = 0 := by rw [outstanding, hcount, Nat.sub_self]
    have hmem : reader.Finished := ⟨status, response, by simp [hoperations]⟩
    refine ⟨hcount.ge, by omega, iff_of_false (by omega) (not_not_intro hmem), ?_⟩
    intro before status' response' after heq
    exact eq_nil_of_replicate_append (hoperations.symm.trans heq)
  cases h with
  | unfilled status operations _ _ => exact hfinished _ _ operations
  | filled status before keepRunning operations _ _ _ => exact hfinished _ _ operations
  | reading operations response =>
      have hcount : reader.operations.count .startRead = trace.length + 1 := by
        rw [operations, List.count_replicate_self]
      have hone : outstanding trace reader = 1 := by rw [outstanding, hcount]; omega
      have hreads : ∀ status response, .finish status response ∉ reader.operations := by
        intro status response hmem
        rw [operations] at hmem
        cases List.eq_of_mem_replicate hmem
      refine ⟨by omega, hone.le, iff_of_true hone ?_, ?_⟩
      · rintro ⟨status, response, hmem⟩
        exact hreads status response hmem
      · intro before status response after heq
        exact absurd (heq ▸ List.mem_append_right _ List.mem_cons_self) (hreads status response)

/-- A session stays registered, or stays not. -/
theorem registered_session (hsession : Session start trace reader) :
    reader.registered = start.registered := by
  induction hsession with
  | nil => rfl
  | concat e _ _ ih => exact (registered_onReadDone _ e).trans ih

/-- A reader that started no read is called with none. -/
theorem Session.eq_nil (hstart : start.operations.count .startRead = 0)
    (hsession : Session start trace reader) : trace = [] := by
  suffices h : trace = [] ∧ reader = start from h.1
  induction hsession with
  | nil => exact ⟨rfl, rfl⟩
  | concat e _ outstanding ih =>
      obtain ⟨-, rfl⟩ := ih
      omega

/-- **A reader keeps the protocol.**  Whatever the client sends, however the callback
ends and whenever the service stops: exactly one of a read and `Finish` is what gRPC
has to answer, the callback is called in sessions that may publish only, and the
number of publishers is left as it was found. -/
theorem session_protocol (hoptions : options.Configured)
    (hstart : Started options isSecured clientMetadata publisherCount start effect)
    (hsession : Session start trace reader) :
    Protocol trace reader ∧
      (reads trace ≠ [] → Admitted options isSecured clientMetadata publisherCount) ∧
      ∀ count, effect + (reader.onDone count - count) = 0 := by
  refine ⟨(progress_session hstart.progress hsession).2.protocol, fun hreads => ?_, fun count => ?_⟩
  · cases hstart with
    | turnedAway fails =>
        rw [hsession.eq_nil rfl] at hreads
        exact absurd rfl hreads
    | registered count count' keepRunning passes adds =>
        exact (admission_eq_ok_iff hoptions ..).1 passes
  · have hdone := hstart.onDone count
    unfold AsynchronousReader.onDone at hdone ⊢
    rwa [registered_session hsession]

end

/-- A publisher with the access token of a secured server sends a packet, and the
server shuts down.  Two others registered after the publisher was admitted. -/
theorem session_protocol_samplePacket :
    ∃ options reader, PublishServiceOptions.setAccessToken {} (ascii "token") = .ok options ∧
      Session (AsynchronousReader.register 2 true { maximumConsecutiveInvalidMessages := 16 }).2
        [.read (samplePacket 7) .returned {} false] reader ∧
      Protocol [.read (samplePacket 7) .returned {} false] reader ∧
      Admitted options true [(ascii "x-custom-auth-token", ascii "token")] 0 ∧
      reader.onDone 3 = 2 := by
  have hstart : Started { accessToken := some (ascii "token") } true
      [(ascii "x-custom-auth-token", ascii "token")] 0 _ (3 - 2) :=
    .registered 2 3 true (by decide) rfl
  have hsession : Session (AsynchronousReader.register 2 true
      { maximumConsecutiveInvalidMessages := 16 }).2 [] _ := .nil
  have hread := hsession.concat (.read (samplePacket 7) .returned {} false) (by decide)
  have hset : PublishServiceOptions.setAccessToken {} (ascii "token")
      = .ok { accessToken := some (ascii "token") } := rfl
  obtain ⟨hprotocol, hadmitted, heffect⟩ := session_protocol (.set hset) hstart hread
  refine ⟨_, _, hset, hread, hprotocol, hadmitted (by decide), ?_⟩
  have hthree := heffect 3
  omega

end PublishService
end UDataPacketBroker
