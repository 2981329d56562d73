/-
# From the options to the services

The constructors of `PublishServiceImpl` (`src/publishService.cpp`) and `BrokerImpl`
(`src/broker.cpp`), and what `PublishServiceImpl::start` asks of the gRPC server builder,
over options that were set up by any calls of their setters.

Whether publishers have to show an access token is decided by three setters: without
both a server key and a server certificate `start` opens an insecure port, and the
constructor of a reader checks no token there (`admission_after`).  No broker comes into
being: its constructor asks for the options of a subscribe service, whose setter is
commented out (`not_constructed`).
-/

import UDataPacketBroker.Library.Text
import UDataPacketBroker.Options
import UDataPacketBroker.PublishService.Protocol

namespace UDataPacketBroker
namespace Startup

open Library Options PublishService

/-! ### The publish service -/

/-- `PublishServiceImpl`, whose constructor checked that there are gRPC options. -/
structure PublishServiceImpl where
  options : Options.PublishServiceOptions
  hasGRPCOptions : options.hasGRPCOptions = true

namespace PublishServiceImpl

/-- `PublishServiceImpl::PublishServiceImpl`. -/
def construct (options : Options.PublishServiceOptions) : Except Exception PublishServiceImpl :=
  if h : options.hasGRPCOptions = true then .ok ⟨options, h⟩
  else .error (.invalidArgument (ascii "GRPC server options not set"))

/-- What `start` asks of the server builder, and `mSecured`.  `keyCertPair` is the private
key and the certificate of `grpc::SslServerCredentials`; without it the credentials are
`grpc::InsecureServerCredentials`. -/
structure Listening where
  address : Bytes
  maximumReceiveMessageSize : Option Int32
  keyCertPair : Option (Bytes × Bytes)
  secured : Bool
deriving DecidableEq

/-- `PublishServiceImpl::start`, up to the start of the server. -/
def start (impl : PublishServiceImpl) : Listening :=
  let grpcOptions := impl.options.grpcOptions
  let address := grpcOptions.host.1 ++ ascii ":" ++ decimal grpcOptions.port.1.toNat
  let maximumMessageSizeInBytes := impl.options.maximumMessageSizeInBytes.map Subtype.val
  match grpcOptions.serverKey, grpcOptions.serverCertificate with
  | some serverKey, some serverCertificate =>
    ⟨address, maximumMessageSizeInBytes, some (serverKey.1, serverCertificate.1), true⟩
  | _, _ => ⟨address, maximumMessageSizeInBytes, none, false⟩

/-- What the constructor of a reader reads of the options of its service. -/
def readerOptions (impl : PublishServiceImpl) : PublishService.PublishServiceOptions where
  maximumNumberOfPublishers := impl.options.maximumPublishers.1.toInt
  maximumNumberOfPublishers_pos := Int32.le_iff_toInt_le.1 impl.options.maximumPublishers.2
  maximumConsecutiveInvalidMessages := impl.options.maximumConsecutiveInvalidMessages
  accessToken := impl.options.grpcOptions.accessToken.map Subtype.val

/-- The constructor keeps the options, if they have gRPC options. -/
theorem construct_eq_ok_iff {options : Options.PublishServiceOptions} {impl : PublishServiceImpl} :
    construct options = .ok impl ↔ impl.options = options := by
  unfold construct
  split_ifs with h
  · refine ⟨fun heq => (Except.ok.inj heq) ▸ rfl, fun heq => ?_⟩
    cases impl
    cases heq
    rfl
  · exact iff_of_false (by rintro ⟨⟩) fun heq => h (heq ▸ impl.hasGRPCOptions)

/-- A port is secured with a key and a certificate, and not with one of them alone. -/
theorem secured_start_iff (impl : PublishServiceImpl) :
    impl.start.secured = true ↔ impl.options.grpcOptions.serverKey.isSome = true ∧
      impl.options.grpcOptions.serverCertificate.isSome = true := by
  unfold start
  dsimp only
  cases impl.options.grpcOptions.serverKey <;>
    cases impl.options.grpcOptions.serverCertificate <;> simp

/-- A port that is not secured has no key and no certificate. -/
theorem keyCertPair_eq_none {impl : PublishServiceImpl} (h : impl.start.secured = false) :
    impl.start.keyCertPair = none := by
  unfold start at h ⊢
  dsimp only at h ⊢
  cases hkey : impl.options.grpcOptions.serverKey with
  | none => rfl
  | some serverKey =>
      cases hcertificate : impl.options.grpcOptions.serverCertificate with
      | none => rfl
      | some serverCertificate =>
          rw [hkey, hcertificate] at h
          cases h

/-- The access token of a reader is not empty. -/
theorem configured_readerOptions (impl : PublishServiceImpl) : impl.readerOptions.Configured := by
  cases htoken : impl.options.grpcOptions.accessToken with
  | none => exact .unset (by rw [readerOptions, htoken]; rfl)
  | some accessToken =>
      have hset : impl.readerOptions.setAccessToken accessToken.1 = .ok impl.readerOptions := by
        rw [PublishServiceOptions.setAccessToken, if_neg (by simpa using accessToken.2)]
        simp [readerOptions, htoken]
      exact .set hset

/-- **Who may publish on a service that was set up by any calls.**  There has to be a
place.  Once a server key and a server certificate were set, neither of them empty, the
client also has to carry the last access token set that is not empty, if there is one.
Without both of these the port is insecure, and nobody has to carry one. -/
theorem admission_after (grpcCalls : List GRPCServerOptions.Call)
    {options : Options.PublishServiceOptions} {impl : PublishServiceImpl}
    (hconstruct : construct (options.setGRPCOptions (GRPCServerOptions.setters.after {} grpcCalls)) =
      .ok impl) (clientMetadata : List (Bytes × Bytes)) (publisherCount : ℤ) :
    (AsynchronousReader.admission impl.readerOptions impl.start.secured clientMetadata
        publisherCount = .ok () ↔
      publisherCount < options.maximumPublishers.1.toInt ∧
      ((∃ serverKey ≠ [], .setServerKey serverKey ∈ grpcCalls) →
        (∃ serverCertificate ≠ [], .setServerCertificate serverCertificate ∈ grpcCalls) →
        ∀ before accessToken later, grpcCalls = before ++ .setAccessToken accessToken :: later →
          accessToken ≠ [] → (∀ other, .setAccessToken other ∈ later → other = []) →
          (ascii "x-custom-auth-token", accessToken) ∈ clientMetadata)) ∧
    (¬((∃ serverKey ≠ [], .setServerKey serverKey ∈ grpcCalls) ∧
        ∃ serverCertificate ≠ [], .setServerCertificate serverCertificate ∈ grpcCalls) →
      impl.start.secured = false ∧ impl.start.keyCertPair = none) := by
  have hoptions := construct_eq_ok_iff.1 hconstruct
  have hgrpc : impl.options.grpcOptions = GRPCServerOptions.setters.after {} grpcCalls := by
    rw [hoptions]
    rfl
  have hmaximum : impl.readerOptions.maximumNumberOfPublishers =
      options.maximumPublishers.1.toInt := by
    show impl.options.maximumPublishers.1.toInt = _
    rw [hoptions]
    rfl
  have hsecured : impl.start.secured = true ↔
      (∃ serverKey ≠ [], .setServerKey serverKey ∈ grpcCalls) ∧
        ∃ serverCertificate ≠ [], .setServerCertificate serverCertificate ∈ grpcCalls := by
    rw [secured_start_iff, hgrpc, GRPCServerOptions.isSome_serverKey_after,
      GRPCServerOptions.isSome_serverCertificate_after]
  refine ⟨?_, fun h => ?_⟩
  swap
  · have hinsecure : impl.start.secured = false := Bool.eq_false_iff.2 fun hs => h (hsecured.1 hs)
    exact ⟨hinsecure, keyCertPair_eq_none hinsecure⟩
  rw [admission_eq_ok_iff impl.configured_readerOptions]
  constructor
  · rintro ⟨hplace, htoken⟩
    refine ⟨hmaximum ▸ hplace, fun hkey hcertificate before accessToken later hcalls hne
      hlast => ?_⟩
    refine htoken (hsecured.2 ⟨hkey, hcertificate⟩) accessToken ?_
    rw [readerOptions, hgrpc]
    exact GRPCServerOptions.accessToken_after.2 ⟨before, later, hcalls, hne, hlast⟩
  · rintro ⟨hplace, htoken⟩
    refine ⟨hmaximum ▸ hplace, fun h accessToken haccessToken => ?_⟩
    rw [readerOptions, hgrpc] at haccessToken
    obtain ⟨before, later, hcalls, hne, hlast⟩ :=
      GRPCServerOptions.accessToken_after.1 haccessToken
    obtain ⟨hkey, hcertificate⟩ := hsecured.1 h
    exact htoken hkey hcertificate before accessToken later hcalls hne hlast

/-- A key, a token and a certificate are set, and then an empty token is rejected. -/
theorem admission_after_token :
    ∃ impl, construct (({} : Options.PublishServiceOptions).setGRPCOptions
        (GRPCServerOptions.setters.after {} [.setServerKey (ascii "key"),
          .setAccessToken (ascii "token"), .setServerCertificate (ascii "certificate"),
          .setAccessToken []])) = .ok impl ∧
      AsynchronousReader.admission impl.readerOptions impl.start.secured [] 3 ≠ .ok () ∧
      AsynchronousReader.admission impl.readerOptions impl.start.secured
        [(ascii "x-custom-auth-token", ascii "token")] 3 = .ok () := by
  refine ⟨⟨_, rfl⟩, construct_eq_ok_iff.2 rfl, fun h => ?_, ?_⟩
  · have htoken := ((admission_after _ (construct_eq_ok_iff.2 rfl) [] 3).1.1 h).2
      ⟨ascii "key", by decide, by simp⟩ ⟨ascii "certificate", by decide, by simp⟩
      [.setServerKey (ascii "key")] (ascii "token") _ rfl (by decide) (by simp)
    exact absurd htoken List.not_mem_nil
  · decide

end PublishServiceImpl

/-! ### The broker -/

/-- `BrokerImpl`, as its constructor leaves it.  The pointer to the store is not null. -/
structure BrokerImpl (σ : Type) where
  options : BrokerOptions
  dataPacketStore : σ
  globalSequenceNumber : UInt64
  publishService : PublishServiceImpl

namespace BrokerImpl

variable {σ : Type}

/-- `BrokerImpl::BrokerImpl`, over a store of any kind: `getGlobalSequenceNumber` is its
member, which can throw. -/
def construct (getGlobalSequenceNumber : σ → Except Exception UInt64) (options : BrokerOptions)
    (dataPacketStore : Option σ) : Except Exception (BrokerImpl σ) :=
  if !options.hasPublishServiceOptions then
    .error (.invalidArgument (ascii "Publish service options not set"))
  else if !options.hasSubscribeServiceOptions then
    .error (.invalidArgument (ascii "Subscribe service options not set"))
  else
    match dataPacketStore with
    | none => .error (.invalidArgument (ascii "Data packet store is null"))
    | some dataPacketStore => do
      let globalSequenceNumber ← getGlobalSequenceNumber dataPacketStore
      let publishServiceOptions ← options.getPublishServiceOptions
      let publishService ← PublishServiceImpl.construct publishServiceOptions
      return { options, dataPacketStore, globalSequenceNumber, publishService }

/-- **What the constructor asks for.** -/
theorem construct_eq_ok_iff {getGlobalSequenceNumber : σ → Except Exception UInt64}
    {options : BrokerOptions} {dataPacketStore : Option σ} {broker : BrokerImpl σ} :
    construct getGlobalSequenceNumber options dataPacketStore = .ok broker ↔
      options.hasPublishServiceOptions = true ∧ options.hasSubscribeServiceOptions = true ∧
        dataPacketStore = some broker.dataPacketStore ∧
        getGlobalSequenceNumber broker.dataPacketStore = .ok broker.globalSequenceNumber ∧
        broker.options = options ∧
        broker.publishService.options = options.publishServiceOptions := by
  cases hpublish : options.hasPublishServiceOptions with
  | false => exact iff_of_false (by simp [construct, hpublish]) (by rintro ⟨⟨⟩, -⟩)
  | true =>
  cases hsubscribe : options.hasSubscribeServiceOptions with
  | false => exact iff_of_false (by simp [construct, hpublish, hsubscribe]) (by rintro ⟨-, ⟨⟩, -⟩)
  | true =>
  cases dataPacketStore with
  | none =>
      exact iff_of_false (by simp [construct, hpublish, hsubscribe]) (by rintro ⟨-, -, ⟨⟩, -⟩)
  | some store =>
  have hconstruct : construct getGlobalSequenceNumber options (some store) =
      (getGlobalSequenceNumber store).bind fun globalSequenceNumber =>
        (PublishServiceImpl.construct options.publishServiceOptions).map fun publishService =>
          { options, dataPacketStore := store, globalSequenceNumber, publishService } := by
    unfold construct BrokerOptions.getPublishServiceOptions
    rw [hpublish, hsubscribe]
    rfl
  rw [hconstruct]
  cases hnumber : getGlobalSequenceNumber store with
  | error e =>
      refine iff_of_false (by rintro ⟨⟩) ?_
      rintro ⟨-, -, ⟨⟩, hread, -⟩
      rw [hnumber] at hread
      cases hread
  | ok globalSequenceNumber =>
      cases hservice : PublishServiceImpl.construct options.publishServiceOptions with
      | error e =>
          refine iff_of_false (by rintro ⟨⟩) ?_
          rintro ⟨-, -, -, -, -, hoptions⟩
          rw [PublishServiceImpl.construct_eq_ok_iff.2 hoptions] at hservice
          cases hservice
      | ok publishService =>
          have hoptions := PublishServiceImpl.construct_eq_ok_iff.1 hservice
          constructor
          · intro h
            cases h
            exact ⟨rfl, rfl, rfl, hnumber, rfl, hoptions⟩
          · rintro ⟨-, -, ⟨⟩, hread, rfl, hsame⟩
            rw [hnumber] at hread
            cases hread
            rw [PublishServiceImpl.construct_eq_ok_iff.2 hsame] at hservice
            cases hservice
            rfl

/-- **No calls of the setters make options that a broker can be constructed from,** over
any store.  The constructor asks for the options of the publish service first and of the
subscribe service then, and no setter provides the latter.  With them, it would take the
options of a publish service with gRPC options, set last, and a store that tells its
greatest sequence number. -/
theorem not_constructed (getGlobalSequenceNumber : σ → Except Exception UInt64)
    (calls : List BrokerOptions.Call) (dataPacketStore : Option σ) :
    ((∀ o, .setPublishServiceOptions o ∉ calls) →
      construct getGlobalSequenceNumber (BrokerOptions.setters.after {} calls) dataPacketStore =
        .error (.invalidArgument (ascii "Publish service options not set"))) ∧
    ((∃ o, .setPublishServiceOptions o ∈ calls) →
      construct getGlobalSequenceNumber (BrokerOptions.setters.after {} calls) dataPacketStore =
        .error (.invalidArgument (ascii "Subscribe service options not set"))) ∧
    ((∃ broker, construct getGlobalSequenceNumber
        { BrokerOptions.setters.after {} calls with hasSubscribeServiceOptions := true }
        dataPacketStore = .ok broker) ↔
      ∃ before o later store number, calls = before ++ .setPublishServiceOptions o :: later ∧
        (∀ other, .setPublishServiceOptions other ∉ later) ∧ o.hasGRPCOptions = true ∧
        dataPacketStore = some store ∧ getGlobalSequenceNumber store = .ok number) := by
  have hunset : (BrokerOptions.setters.after {} calls).hasSubscribeServiceOptions = false :=
    congrArg Prod.fst (Setters.read_after_of_unset BrokerOptions.reads_unset {} calls)
  refine ⟨fun hnone => ?_, fun hsome => ?_, ?_⟩
  · have hpublish : (BrokerOptions.setters.after {} calls).hasPublishServiceOptions = false := by
      rw [← Bool.not_eq_true, BrokerOptions.hasPublishServiceOptions_after]
      exact fun ⟨o, ho⟩ => hnone o ho
    unfold construct
    rw [hpublish]
    rfl
  · unfold construct
    rw [BrokerOptions.hasPublishServiceOptions_after.2 hsome, hunset]
    rfl
  · constructor
    · rintro ⟨broker, h⟩
      obtain ⟨hpublish, -, hstore, hnumber, -, hservice⟩ := construct_eq_ok_iff.1 h
      obtain ⟨before, later, hcalls, hlast⟩ :=
        BrokerOptions.publishServiceOptions_after.1 ⟨hpublish, rfl⟩
      exact ⟨before, _, later, _, _, hcalls, hlast,
        hservice ▸ broker.publishService.hasGRPCOptions, hstore, hnumber⟩
    · rintro ⟨before, o, later, store, number, hcalls, hlast, hgrpc, hstore, hnumber⟩
      obtain ⟨hpublish, hoptions⟩ :=
        BrokerOptions.publishServiceOptions_after.2 ⟨before, later, hcalls, hlast⟩
      exact ⟨⟨_, store, number, ⟨o, hgrpc⟩⟩,
        construct_eq_ok_iff.2 ⟨hpublish, rfl, hstore, hnumber, rfl, hoptions.symm⟩⟩

end BrokerImpl

end Startup
end UDataPacketBroker
