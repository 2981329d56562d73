/-
# The options

`src/grpcServerOptions.cpp`, `publishServiceOptions.cpp`, `subscribeServiceOptions.cpp`,
`brokerOptions.cpp` and `rocksDatabaseOptions.cpp`.  A setter checks its argument and
throws `std::invalid_argument` before it changes anything, so a value that a check guards
is stored with the proof that it passes, and so is every default.

The calls that set up an object of a class are its `Call`.  What an object reads as after
any calls, rejected ones included, is the argument of the last accepted one
(`Setters.read_after`).
-/

import UDataPacketBroker.Library.Settings
import UDataPacketBroker.Proto

namespace UDataPacketBroker
namespace Options

open Library

/-- The exceptions of the standard library that are thrown, and their `what()`. -/
inductive Exception where
  | invalidArgument (what : Bytes)
  | runtimeError (what : Bytes)
deriving DecidableEq, Repr

/-- The check of a setter, and what it throws when its argument fails. -/
def check {α : Type} (P : α → Prop) [DecidablePred P] (what : String) (value : α) :
    Except Exception (Subtype P) :=
  if h : P value then .ok ⟨value, h⟩ else .error (.invalidArgument (ascii what))

section

variable {α σ : Type} {P : α → Prop} [DecidablePred P] {what : String} {value : α}

/-- What a setter that checks its argument makes of an object. -/
theorem map_check_eq_ok_iff {set : Subtype P → σ} {s : σ} :
    (check P what value).map set = .ok s ↔ ∃ h : P value, set ⟨value, h⟩ = s := by
  unfold check
  split_ifs with h
  · exact ⟨fun heq => ⟨h, Except.ok.inj heq⟩, fun ⟨_, heq⟩ => congrArg _ heq⟩
  · exact iff_of_false (by rintro ⟨⟩) fun ⟨hvalue, _⟩ => h hvalue

/-- A setter with a check succeeds exactly if its argument passes. -/
theorem isOk_map_check {set : Subtype P → σ} :
    ((check P what value).map set).isOk = decide (P value) := by
  unfold check
  split_ifs with h
  · exact (decide_eq_true h).symm
  · exact (decide_eq_false h).symm

end

/-- What throws when a condition holds. -/
def throwIf (P : Prop) [Decidable P] (e : Exception) : Except Exception Unit :=
  if P then .error e else .ok ()

/-- Nothing is thrown exactly if the condition fails. -/
theorem throwIf_eq_ok_iff {P : Prop} [Decidable P] {e : Exception} : throwIf P e = .ok () ↔ ¬P := by
  unfold throwIf
  split_ifs with h
  · exact iff_of_false (by rintro ⟨⟩) fun hn => hn h
  · exact iff_of_true rfl h

/-- What went before has to return for what comes after it. -/
theorem bind_eq_ok_iff {α β : Type} {x : Except Exception α} {f : α → Except Exception β} {b : β} :
    (x >>= f) = .ok b ↔ ∃ a, x = .ok a ∧ f a = .ok b := by
  cases x with
  | error e => exact iff_of_false (by rintro ⟨⟩) (by rintro ⟨_, ⟨⟩, -⟩)
  | ok a => exact ⟨fun h => ⟨a, rfl, h⟩, by rintro ⟨_, ⟨⟩, h⟩; exact h⟩

/-- A text that a setter takes only when it is not empty. -/
abbrev Text := { value : Bytes // value ≠ [] }

/-! ### `GRPCServerOptions` -/

structure GRPCServerOptions where
  host : Text := ⟨ascii "localhost", by decide⟩
  port : { port : UInt16 // port ≠ 0 } := ⟨50000, by decide⟩
  accessToken : Option Text := none
  serverCertificate : Option Text := none
  serverKey : Option Text := none
  clientCertificate : Option Text := none
  reflectionEnabled : Bool := false

namespace GRPCServerOptions

variable (options : GRPCServerOptions)

def setHost (host : Bytes) : Except Exception GRPCServerOptions :=
  (check (· ≠ []) "Host cannot be empty." host).map fun host => { options with host := host }

def setPort (port : UInt16) : Except Exception GRPCServerOptions :=
  (check (· ≠ 0) "Port cannot be 0." port).map fun port => { options with port := port }

def setAccessToken (accessToken : Bytes) : Except Exception GRPCServerOptions :=
  (check (· ≠ []) "Access token cannot be empty." accessToken).map fun accessToken =>
    { options with accessToken := some accessToken }

def setServerCertificate (serverCertificate : Bytes) : Except Exception GRPCServerOptions :=
  (check (· ≠ []) "Server certificate cannot be empty." serverCertificate).map
    fun serverCertificate => { options with serverCertificate := some serverCertificate }

def setServerKey (serverKey : Bytes) : Except Exception GRPCServerOptions :=
  (check (· ≠ []) "Server key cannot be empty." serverKey).map fun serverKey =>
    { options with serverKey := some serverKey }

def setClientCertificate (clientCertificate : Bytes) : Except Exception GRPCServerOptions :=
  (check (· ≠ []) "Client certificate cannot be empty." clientCertificate).map
    fun clientCertificate => { options with clientCertificate := some clientCertificate }

def enableReflection : GRPCServerOptions := { options with reflectionEnabled := true }

def disableReflection : GRPCServerOptions := { options with reflectionEnabled := false }

inductive Call where
  | setHost (host : Bytes)
  | setPort (port : UInt16)
  | setAccessToken (accessToken : Bytes)
  | setServerCertificate (serverCertificate : Bytes)
  | setServerKey (serverKey : Bytes)
  | setClientCertificate (clientCertificate : Bytes)
  | enableReflection
  | disableReflection

def call (options : GRPCServerOptions) : Call → Except Exception GRPCServerOptions
  | .setHost host => options.setHost host
  | .setPort port => options.setPort port
  | .setAccessToken accessToken => options.setAccessToken accessToken
  | .setServerCertificate serverCertificate => options.setServerCertificate serverCertificate
  | .setServerKey serverKey => options.setServerKey serverKey
  | .setClientCertificate clientCertificate => options.setClientCertificate clientCertificate
  | .enableReflection => .ok options.enableReflection
  | .disableReflection => .ok options.disableReflection

/-- The arguments that pass. -/
def Call.accepts : Call → Bool
  | .setHost text | .setAccessToken text | .setServerCertificate text | .setServerKey text
  | .setClientCertificate text => text ≠ []
  | .setPort port => port ≠ 0
  | .enableReflection | .disableReflection => true

def setters : Setters GRPCServerOptions Call Exception where
  call := call
  accepts := Call.accepts
  isOk_call options c := by
    cases c with
    | enableReflection | disableReflection => rfl
    | _ => exact isOk_map_check

/-- The token, the certificate or the key that a call sets. -/
def Call.accessToken : Call → Option Bytes
  | .setAccessToken accessToken => some accessToken
  | _ => none

@[inherit_doc Call.accessToken]
def Call.serverCertificate : Call → Option Bytes
  | .setServerCertificate serverCertificate => some serverCertificate
  | _ => none

@[inherit_doc Call.accessToken]
def Call.serverKey : Call → Option Bytes
  | .setServerKey serverKey => some serverKey
  | _ => none

/-- **What an accepted call sets,** of the token, the certificate and the key. -/
theorem texts_of_call {options options' : GRPCServerOptions} {c : Call}
    (h : setters.call options c = .ok options') :
    options'.accessToken.map Subtype.val =
        (c.accessToken.map some).getD (options.accessToken.map Subtype.val) ∧
      options'.serverCertificate.map Subtype.val =
        (c.serverCertificate.map some).getD (options.serverCertificate.map Subtype.val) ∧
      options'.serverKey.map Subtype.val =
        (c.serverKey.map some).getD (options.serverKey.map Subtype.val) := by
  cases c with
  | enableReflection | disableReflection =>
      cases h
      exact ⟨rfl, rfl, rfl⟩
  | _ =>
      obtain ⟨-, rfl⟩ := map_check_eq_ok_iff.1 h
      exact ⟨rfl, rfl, rfl⟩

section

variable {read : GRPCServerOptions → Option Text} {argument : Call → Option Bytes}
  {set : Bytes → Call} {calls : List Call}

/-- **There is a text once one that is not empty was set,** whatever came before and after. -/
theorem isSome_text_after
    (hread : setters.Reads (fun options => (read options).map Subtype.val)
      fun c => (argument c).map some)
    (hunset : read {} = none) (hargument : ∀ c value, argument c = some value ↔ c = set value)
    (haccepts : ∀ value, setters.accepts (set value) = decide (value ≠ [])) :
    (read (setters.after {} calls)).isSome = true ↔ ∃ value ≠ [], set value ∈ calls := by
  have hafter := @Setters.isSome_read_after_iff _ _ _ _ _ _ _ {} calls hread
    (by rw [hunset]; rfl)
  rw [Option.isSome_map] at hafter
  rw [hafter]
  constructor
  · rintro ⟨c, hmem, hpasses, hc⟩
    obtain ⟨value, hvalue⟩ := Option.isSome_iff_exists.1 hc
    obtain rfl := (hargument c value).1 hvalue
    rw [haccepts] at hpasses
    exact ⟨value, of_decide_eq_true hpasses, hmem⟩
  · rintro ⟨value, hne, hmem⟩
    refine ⟨_, hmem, by rw [haccepts]; exact decide_eq_true hne, ?_⟩
    rw [(hargument _ value).2 rfl]
    rfl

end

/-- There is a server key once one was set that is not empty. -/
theorem isSome_serverKey_after {calls : List Call} :
    (setters.after {} calls).serverKey.isSome = true ↔
      ∃ serverKey ≠ [], .setServerKey serverKey ∈ calls :=
  isSome_text_after (fun _ _ _ h => (texts_of_call h).2.2) rfl
    (fun c value => by cases c <;> simp [Call.serverKey]) fun _ => rfl

/-- There is a server certificate once one was set that is not empty. -/
theorem isSome_serverCertificate_after {calls : List Call} :
    (setters.after {} calls).serverCertificate.isSome = true ↔
      ∃ serverCertificate ≠ [], .setServerCertificate serverCertificate ∈ calls :=
  isSome_text_after (fun _ _ _ h => (texts_of_call h).2.1) rfl
    (fun c value => by cases c <;> simp [Call.serverCertificate]) fun _ => rfl

/-- **The access token is the last one set that is not empty.** -/
theorem accessToken_after {calls : List Call} {accessToken : Bytes} :
    (setters.after {} calls).accessToken.map Subtype.val = some accessToken ↔
      ∃ before later, calls = before ++ .setAccessToken accessToken :: later ∧ accessToken ≠ [] ∧
        ∀ other, .setAccessToken other ∈ later → other = [] := by
  have hread : setters.Reads (fun options => options.accessToken.map Subtype.val)
      fun c => c.accessToken.map some := fun _ _ _ h => (texts_of_call h).1
  rw [Setters.read_after_eq_some_iff hread rfl]
  constructor
  · rintro ⟨before, c, later, hcalls, haccepts, hc, hlast⟩
    cases c with
    | setAccessToken token =>
        cases hc
        refine ⟨before, later, hcalls, of_decide_eq_true haccepts, fun other hother => ?_⟩
        by_contra hne
        cases hlast _ hother (decide_eq_true hne)
    | _ => cases hc
  · rintro ⟨before, later, hcalls, hne, hlast⟩
    refine ⟨before, _, later, hcalls, decide_eq_true hne, rfl, fun c hc haccepts => ?_⟩
    cases c with
    | setAccessToken other => exact absurd (hlast other hc) (of_decide_eq_true haccepts)
    | _ => rfl

end GRPCServerOptions

/-- A number that has to be positive. -/
abbrev Positive := { n : Int32 // 1 ≤ n }

/-! ### `PublishServiceOptions` -/

structure PublishServiceOptions where
  grpcOptions : GRPCServerOptions := {}
  maximumPublishers : Positive := ⟨64, by decide⟩
  maximumConsecutiveInvalidMessages : UInt32 := 16
  maximumMessageSizeInBytes : Option Positive := none
  hasGRPCOptions : Bool := false

namespace PublishServiceOptions

variable (options : PublishServiceOptions)

def setGRPCOptions (grpcOptions : GRPCServerOptions) : PublishServiceOptions :=
  { options with grpcOptions := grpcOptions, hasGRPCOptions := true }

def getGRPCOptions : Except Exception GRPCServerOptions :=
  if options.hasGRPCOptions then .ok options.grpcOptions
  else .error (.runtimeError (ascii "gRPC options not set"))

def setMaximumNumberOfPublishers (maxPublishers : Int32) :
    Except Exception PublishServiceOptions :=
  (check (1 ≤ ·) "Maximum number of publishers must be positive" maxPublishers).map
    fun maxPublishers => { options with maximumPublishers := maxPublishers }

def setMaximumMessageSizeInBytes (maxMessageSize : Int32) :
    Except Exception PublishServiceOptions :=
  (check (1 ≤ ·) "Maximum message size must be positive" maxMessageSize).map
    fun maxMessageSize => { options with maximumMessageSizeInBytes := some maxMessageSize }

def setMaximumConsecutiveInvalidMessages (maxInvalidMessages : UInt32) : PublishServiceOptions :=
  { options with maximumConsecutiveInvalidMessages := maxInvalidMessages }

end PublishServiceOptions

/-! ### `BrokerOptions` -/

/-- The options of the broker, its durations in seconds.  The setter and the getter of the
options of the subscribe service are commented out. -/
structure BrokerOptions where
  publishServiceOptions : PublishServiceOptions := {}
  retentionDuration : { duration : Int64 // 1 ≤ duration } := ⟨1800, by decide⟩
  compactionInterval : { interval : Int64 // 0 ≤ interval } := ⟨30, by decide⟩
  truncationBaseInterval : Int64 := 30
  desiredMaximumDataStoreSizeInBytes : Option UInt64 := none
  truncationChunkSize : Int32 := 128
  hasPublishServiceOptions : Bool := false
  hasSubscribeServiceOptions : Bool := false

namespace BrokerOptions

variable (options : BrokerOptions)

def setPublishServiceOptions (publishServiceOptions : PublishServiceOptions) : BrokerOptions :=
  { options with
    publishServiceOptions := publishServiceOptions
    hasPublishServiceOptions := true }

def getPublishServiceOptions : Except Exception PublishServiceOptions :=
  if options.hasPublishServiceOptions then .ok options.publishServiceOptions
  else .error (.runtimeError (ascii "Publish service options not set"))

def setRetentionDuration (duration : Int64) : Except Exception BrokerOptions :=
  (check (1 ≤ ·) "The retention duration must be positive" duration).map
    fun duration => { options with retentionDuration := duration }

def setCompactionInterval (interval : Int64) : Except Exception BrokerOptions :=
  (check (0 ≤ ·) "Compaction interval must be non-negative" interval).map
    fun interval => { options with compactionInterval := interval }

inductive Call where
  | setPublishServiceOptions (publishServiceOptions : PublishServiceOptions)
  | setRetentionDuration (duration : Int64)
  | setCompactionInterval (interval : Int64)

def call (options : BrokerOptions) : Call → Except Exception BrokerOptions
  | .setPublishServiceOptions publishServiceOptions =>
    .ok (options.setPublishServiceOptions publishServiceOptions)
  | .setRetentionDuration duration => options.setRetentionDuration duration
  | .setCompactionInterval interval => options.setCompactionInterval interval

/-- The arguments that pass. -/
def Call.accepts : Call → Bool
  | .setPublishServiceOptions _ => true
  | .setRetentionDuration duration => 1 ≤ duration
  | .setCompactionInterval interval => 0 ≤ interval

def setters : Setters BrokerOptions Call Exception where
  call := call
  accepts := Call.accepts
  isOk_call options c := by
    cases c with
    | setPublishServiceOptions => rfl
    | _ => exact isOk_map_check

/-- The options of the publish service that a call sets. -/
def Call.publishServiceOptions : Call → Option PublishServiceOptions
  | .setPublishServiceOptions publishServiceOptions => some publishServiceOptions
  | _ => none

/-- Only `setPublishServiceOptions` changes the options of the publish service. -/
theorem reads_publishServiceOptions :
    setters.Reads
      (fun options => if options.hasPublishServiceOptions then some options.publishServiceOptions
        else none)
      fun c => c.publishServiceOptions.map some := by
  intro options c options' h
  cases c with
  | setPublishServiceOptions =>
      cases h
      rfl
  | _ =>
      obtain ⟨-, rfl⟩ := map_check_eq_ok_iff.1 h
      rfl

/-- **The options of the publish service are those that were set last.** -/
theorem publishServiceOptions_after {calls : List Call} {o : PublishServiceOptions} :
    (setters.after {} calls).hasPublishServiceOptions = true ∧
        (setters.after {} calls).publishServiceOptions = o ↔
      ∃ before later, calls = before ++ .setPublishServiceOptions o :: later ∧
        ∀ other, .setPublishServiceOptions other ∉ later := by
  have hread := @Setters.read_after_eq_some_iff _ _ _ _ _ _ _ {} calls
    reads_publishServiceOptions rfl o
  have hboth (options : BrokerOptions) :
      (if options.hasPublishServiceOptions then some options.publishServiceOptions else none) =
        some o ↔ options.hasPublishServiceOptions = true ∧ options.publishServiceOptions = o := by
    split_ifs with h
    · rw [Option.some_inj]
      exact (and_iff_right h).symm
    · exact iff_of_false (by rintro ⟨⟩) fun hand => h hand.1
  rw [← hboth, hread]
  constructor
  · rintro ⟨before, c, later, hcalls, -, hc, hlast⟩
    cases c with
    | setPublishServiceOptions =>
        cases hc
        exact ⟨before, later, hcalls, fun other hother => by cases hlast _ hother rfl⟩
    | _ => cases hc
  · rintro ⟨before, later, hcalls, hlast⟩
    refine ⟨before, _, later, hcalls, rfl, rfl, fun c hc _ => ?_⟩
    cases c with
    | setPublishServiceOptions other => exact absurd hc (hlast other)
    | _ => rfl

/-- They are there once they were set. -/
theorem hasPublishServiceOptions_after {calls : List Call} :
    (setters.after {} calls).hasPublishServiceOptions = true ↔
      ∃ o, .setPublishServiceOptions o ∈ calls := by
  have hread := @Setters.isSome_read_after_iff _ _ _ _ _ _ _ {} calls
    reads_publishServiceOptions rfl
  have hthere (options : BrokerOptions) :
      (if options.hasPublishServiceOptions then some options.publishServiceOptions
        else none).isSome = options.hasPublishServiceOptions := by
    cases options.hasPublishServiceOptions <;> rfl
  rw [hthere] at hread
  rw [hread]
  constructor
  · rintro ⟨c, hmem, -, hc⟩
    cases c with
    | setPublishServiceOptions o => exact ⟨o, hmem⟩
    | _ => cases hc
  · exact fun ⟨o, hmem⟩ => ⟨_, hmem, rfl, rfl⟩

/-- **What no setter sets.** -/
theorem reads_unset :
    setters.Reads (fun options => (options.hasSubscribeServiceOptions,
        options.desiredMaximumDataStoreSizeInBytes, options.truncationChunkSize,
        options.truncationBaseInterval))
      fun _ => none := by
  intro options c options' h
  cases c with
  | setPublishServiceOptions =>
      cases h
      rfl
  | _ =>
      obtain ⟨-, rfl⟩ := map_check_eq_ok_iff.1 h
      rfl

end BrokerOptions

/-! ### `RocksDatabaseOptions` -/

/-- An hour, in seconds. -/
def anHour : { retention : Int64 // 0 < retention } := ⟨3600, by decide⟩

/-- The options of the store, its retention in seconds.  An empty directory is one that was
not set. -/
structure RocksDatabaseOptions where
  databaseDirectory : Bytes := []
  retention : { retention : Int64 // 0 < retention } := anHour
  writeBufferSizeInBytes : { size : UInt64 // size ≠ 0 } := ⟨(128 : UInt64) <<< 20, by decide⟩
  maximumNumberOfMemoryTables : Positive := ⟨2, by decide⟩
  enableWriteAheadLog : Bool := false
  overWriteIfExists : Bool := false

namespace RocksDatabaseOptions

variable (options : RocksDatabaseOptions)

def setDatabaseDirectory (databaseDirectory : Bytes) : Except Exception RocksDatabaseOptions :=
  (check (· ≠ []) "Database directory is empty" databaseDirectory).map
    fun databaseDirectory => { options with databaseDirectory := databaseDirectory.1 }

def setRetention (retention : Int64) : Except Exception RocksDatabaseOptions :=
  (check (0 < ·) "Retention must be positive" retention).map
    fun retention => { options with retention := retention }

def setWriteBufferSizeInBytes (writeBufferSizeInBytes : UInt64) :
    Except Exception RocksDatabaseOptions :=
  (check (· ≠ 0) "Write buffer size must be positive" writeBufferSizeInBytes).map
    fun writeBufferSizeInBytes => { options with writeBufferSizeInBytes := writeBufferSizeInBytes }

def setMaximumNumberOfMemoryTables (maximumNumberOfMemoryTables : Int32) :
    Except Exception RocksDatabaseOptions :=
  (check (1 ≤ ·) "Maximum number of memory tables must be positive"
    maximumNumberOfMemoryTables).map fun maximumNumberOfMemoryTables =>
      { options with maximumNumberOfMemoryTables := maximumNumberOfMemoryTables }

def setWriteAheadLog (enable : Bool) : RocksDatabaseOptions :=
  { options with enableWriteAheadLog := enable }

def setOverWriteIfExists (enable : Bool) : RocksDatabaseOptions :=
  { options with overWriteIfExists := enable }

end RocksDatabaseOptions

end Options
end UDataPacketBroker
