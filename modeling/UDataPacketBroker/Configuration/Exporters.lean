/-
# The sections on exporters

What `src/otelOptions.hpp` makes of each of the four sections on exporters: when it
rejects one, and that the options it returns can be used.  An address is a host and a
port, and before the path of an HTTP exporter stands a slash, given or added
(`endpoint_slashed`); intervals are positive, and a certificate is there.
-/

import UDataPacketBroker.Configuration

namespace UDataPacketBroker
namespace Configuration

open Library Options

variable {host : Host} {propertyTree : PropertyTree} {section_ : String}

/-! ### Intervals, certificates and addresses -/

/-- The intervals of a section of metrics. -/
structure Intervals (host : Host) (propertyTree : PropertyTree) (section_ : String) : Prop where
  exportInterval :
    0 < propertyTree.get host.toInt64 section_ "exportIntervalInMilliSeconds" 15000
  exportTimeOut :
    0 < propertyTree.get host.toInt64 section_ "exportTimeOutInMilliSeconds" 500

/-- **When interval and time out pass,** and what they are: those of the section, or the
defaults. -/
theorem getOTelMetricsIntervalAndTimeOut_eq_ok_iff {intervals : Int64 × Int64} :
    getOTelMetricsIntervalAndTimeOut host propertyTree section_ 15000 500 = .ok intervals ↔
      Intervals host propertyTree section_ ∧
        intervals = (propertyTree.get host.toInt64 section_ "exportIntervalInMilliSeconds" 15000,
          propertyTree.get host.toInt64 section_ "exportTimeOutInMilliSeconds" 500) := by
  unfold getOTelMetricsIntervalAndTimeOut
  dsimp only
  constructor
  · intro h
    obtain ⟨⟨⟩, hinterval, h⟩ := bind_eq_ok_iff.1 h
    obtain ⟨⟨⟩, htimeOut, h⟩ := bind_eq_ok_iff.1 h
    cases h
    exact ⟨⟨Int64.not_le.1 (throwIf_eq_ok_iff.1 hinterval),
      Int64.not_le.1 (throwIf_eq_ok_iff.1 htimeOut)⟩, rfl⟩
  · rintro ⟨⟨hinterval, htimeOut⟩, rfl⟩
    exact bind_eq_ok_iff.2 ⟨(), throwIf_eq_ok_iff.2 (Int64.not_le.2 hinterval),
      bind_eq_ok_iff.2 ⟨(), throwIf_eq_ok_iff.2 (Int64.not_le.2 htimeOut), rfl⟩⟩

/-- The file system answers whether there is the certificate of a section. -/
def Answers (host : Host) (propertyTree : PropertyTree) (section_ : String) : Prop :=
  ∀ certificatePath, propertyTree.find section_ "certificate" = some certificatePath →
    ∃ there, host.fileExists certificatePath = .ok there

/-- No certificate, or one that is there. -/
def Certificate (host : Host) (certificatePath : Bytes) : Prop :=
  certificatePath = [] ∨ host.fileExists certificatePath = .ok true

/-- The file system answers exactly if the certificate can be looked for. -/
theorem answers_iff :
    Answers host propertyTree section_ ↔
      ∃ certificatePath, getCertificate host propertyTree section_ = .ok certificatePath := by
  unfold Answers getCertificate
  cases hfind : propertyTree.find section_ "certificate" with
  | none => exact iff_of_true (fun _ h => by cases h) ⟨[], rfl⟩
  | some certificatePath =>
      constructor
      · intro h
        obtain ⟨there, hthere⟩ := h certificatePath rfl
        exact ⟨if there then certificatePath else [],
          bind_eq_ok_iff.2 ⟨there, hthere, by cases there <;> rfl⟩⟩
      · rintro ⟨_, h⟩ _ ⟨⟩
        obtain ⟨there, hthere, -⟩ := bind_eq_ok_iff.1 h
        exact ⟨there, hthere⟩

/-- A certificate that is used is there. -/
theorem certificate_of_getCertificate {certificatePath : Bytes}
    (h : getCertificate host propertyTree section_ = .ok certificatePath) :
    Certificate host certificatePath := by
  unfold getCertificate at h
  cases hfind : propertyTree.find section_ "certificate" with
  | none =>
      rw [hfind] at h
      cases h
      exact Or.inl rfl
  | some named =>
      rw [hfind] at h
      obtain ⟨there, hthere, h⟩ := bind_eq_ok_iff.1 h
      cases there with
      | true =>
          cases h
          exact Or.inr hthere
      | false =>
          cases h
          exact Or.inl rfl

/-- The address of a collector, if there is one, is a host and a port. -/
def CollectorURL (url : Bytes) : Prop :=
  url = [] ∨ ∃ (host : Bytes) (port : UInt16), host ≠ [] ∧ url = host ++ 0x3A :: decimal port.toNat

/-- The address and the suffix of an HTTP exporter: a slash stands between the port and a
path. -/
def Endpoint (url suffix : Bytes) : Prop :=
  CollectorURL url ∧ (url ≠ [] → suffix = [] ∨ suffix.head? = some 0x2F)

/-- **The URL of a collector** is empty, or has a host and a port. -/
theorem collectorURL (host : Host) (propertyTree : PropertyTree) (section_ : String) :
    CollectorURL (getOTelCollectorURL host propertyTree section_) := by
  unfold getOTelCollectorURL
  dsimp only
  split_ifs with hempty
  · exact Or.inl rfl
  · refine Or.inr ⟨_, propertyTree.get host.toUInt16 section_ "port" 4218,
      fun hnil => hempty (List.isEmpty_iff.2 hnil), ?_⟩
    rw [List.append_assoc]
    rfl

/-- There is an address exactly when there is a host. -/
theorem getOTelCollectorURL_eq_nil_iff :
    getOTelCollectorURL host propertyTree section_ = [] ↔
      propertyTree.get some section_ "host" [] = [] := by
  unfold getOTelCollectorURL
  dsimp only
  split_ifs with hempty
  · exact iff_of_true rfl (List.isEmpty_iff.1 hempty)
  · refine iff_of_false ?_ fun hnil => hempty (List.isEmpty_iff.2 hnil)
    exact List.append_ne_nil_of_right_ne_nil _ (decimal_ne_nil _)

/-- An address ends in a digit, so `slashed` sees to the slash. -/
theorem endpoint_slashed {url : Bytes} (h : CollectorURL url) (suffix : Bytes) :
    Endpoint url (slashed url suffix) := by
  refine ⟨h, fun hurl => ?_⟩
  unfold slashed
  have hlast : url.getLast? ≠ some 0x2F := by
    obtain ⟨host, port, -, rfl⟩ := h.resolve_left hurl
    rw [List.getLast?_append_of_ne_nil _ (List.cons_ne_nil _ _), List.getLast?_cons_of_ne_nil
      (decimal_ne_nil _)]
    exact fun hslash => notMem_decimal (by decide) _ (List.mem_of_getLast? hslash)
  split_ifs with hempty hsuffix hslashes
  · exact absurd (List.isEmpty_iff.1 hempty) hurl
  · exact Or.inl (List.isEmpty_iff.1 hsuffix)
  · exact Or.inr rfl
  · exact Or.inr (not_not.1 fun hhead => hslashes ⟨hlast, hhead⟩)

/-! ### The sections -/

/-- The options of an exporter of metrics over HTTP. -/
structure HTTPMetrics.Usable (metricsOptions : HTTPMetrics) : Prop where
  endpoint : Endpoint metricsOptions.url metricsOptions.suffix
  exportInterval : 0 < metricsOptions.exportInterval
  exportTimeOut : 0 < metricsOptions.exportTimeOut

/-- The options of an exporter of metrics over gRPC. -/
structure GRPCMetrics.Usable (host : Host) (metricsOptions : GRPCMetrics) : Prop where
  url : CollectorURL metricsOptions.url
  certificate : Certificate host metricsOptions.certificatePath
  exportInterval : 0 < metricsOptions.exportInterval
  exportTimeOut : 0 < metricsOptions.exportTimeOut

/-- The options of an exporter of logs over gRPC. -/
structure GRPCLog.Usable (host : Host) (logOptions : GRPCLog) : Prop where
  url : CollectorURL logOptions.url
  certificate : Certificate host logOptions.certificatePath

/-- Logs are not exported over HTTP exactly if there is no section on it. -/
theorem getHTTPLogOptionsFromIniFile_eq_none_iff :
    getHTTPLogOptionsFromIniFile host propertyTree section_ = none ↔
      propertyTree.has section_ = false := by
  unfold getHTTPLogOptionsFromIniFile
  cases propertyTree.has section_ <;> simp

/-- The section gives an endpoint. -/
theorem endpoint_of_getHTTPLogOptionsFromIniFile {httpLog : HTTPLog}
    (h : getHTTPLogOptionsFromIniFile host propertyTree section_ = some httpLog) :
    Endpoint httpLog.url httpLog.suffix := by
  unfold getHTTPLogOptionsFromIniFile at h
  split_ifs at h
  cases h
  exact endpoint_slashed (collectorURL ..) _

/-- **A section of an exporter over gRPC** is looked at by a build that has them. -/
theorem getGRPCLogOptionsFromIniFile_isOk_iff :
    (∃ grpcLog, getGRPCLogOptionsFromIniFile host propertyTree section_ = .ok grpcLog) ↔
      host.withOTLPGRPC = true ∧
        (propertyTree.has section_ = true → Answers host propertyTree section_) := by
  unfold getGRPCLogOptionsFromIniFile
  cases host.withOTLPGRPC with
  | false => exact iff_of_false (by rintro ⟨_, ⟨⟩⟩) (by rintro ⟨⟨⟩, -⟩)
  | true =>
  cases propertyTree.has section_ with
  | false => exact iff_of_true ⟨none, rfl⟩ ⟨rfl, by rintro ⟨⟩⟩
  | true =>
  rw [answers_iff]
  constructor
  · rintro ⟨_, h⟩
    obtain ⟨certificatePath, hcertificate, -⟩ := bind_eq_ok_iff.1 h
    exact ⟨rfl, fun _ => ⟨certificatePath, hcertificate⟩⟩
  · rintro ⟨-, h⟩
    obtain ⟨certificatePath, hcertificate⟩ := h rfl
    exact ⟨_, bind_eq_ok_iff.2 ⟨certificatePath, hcertificate, rfl⟩⟩

/-- The section on logs over gRPC gives usable options, in a build that has gRPC. -/
theorem usable_of_getGRPCLogOptionsFromIniFile {grpcLog : GRPCLog}
    (h : getGRPCLogOptionsFromIniFile host propertyTree section_ = .ok (some grpcLog)) :
    host.withOTLPGRPC = true ∧ grpcLog.Usable host := by
  unfold getGRPCLogOptionsFromIniFile at h
  split_ifs at h with hbuild hsection
  · cases h
  · obtain ⟨certificatePath, hcertificate, h⟩ := bind_eq_ok_iff.1 h
    cases h
    exact ⟨by simpa using hbuild, collectorURL .., certificate_of_getCertificate hcertificate⟩

/-- The intervals of metrics over HTTP are looked at when there is a host. -/
theorem getHTTPMetricsOptionsFromIniFile_isOk_iff :
    (∃ httpMetrics,
        getHTTPMetricsOptionsFromIniFile host propertyTree section_ = .ok httpMetrics) ↔
      (propertyTree.has section_ = true → propertyTree.get some section_ "host" [] ≠ [] →
        Intervals host propertyTree section_) := by
  unfold getHTTPMetricsOptionsFromIniFile
  cases propertyTree.has section_ with
  | false => exact iff_of_true ⟨none, rfl⟩ (by rintro ⟨⟩)
  | true =>
  rw [ne_eq, ← @getOTelCollectorURL_eq_nil_iff host]
  rw [Bool.not_true, if_neg Bool.false_ne_true]
  dsimp only
  split_ifs with hempty
  · exact iff_of_true ⟨_, rfl⟩ fun _ hne => absurd (List.isEmpty_iff.1 hempty) hne
  · constructor
    · rintro ⟨_, h⟩ - -
      obtain ⟨intervals, hintervals, -⟩ := bind_eq_ok_iff.1 h
      exact (getOTelMetricsIntervalAndTimeOut_eq_ok_iff.1 hintervals).1
    · intro h
      have hintervals := h rfl fun hnil => hempty (List.isEmpty_iff.2 hnil)
      exact ⟨_, bind_eq_ok_iff.2
        ⟨_, getOTelMetricsIntervalAndTimeOut_eq_ok_iff.2 ⟨hintervals, rfl⟩, rfl⟩⟩

/-- The section on metrics over HTTP gives usable options. -/
theorem usable_of_getHTTPMetricsOptionsFromIniFile {httpMetrics : HTTPMetrics}
    (h : getHTTPMetricsOptionsFromIniFile host propertyTree section_ = .ok (some httpMetrics)) :
    httpMetrics.Usable := by
  unfold getHTTPMetricsOptionsFromIniFile at h
  have hendpoint := endpoint_slashed (collectorURL host propertyTree section_)
  split_ifs at h with hsection
  · cases h
  · dsimp only at h
    split_ifs at h
    · cases h
      have hinterval : (0 : Int64) < 15000 := by decide
      have htimeOut : (0 : Int64) < 500 := by decide
      exact ⟨hendpoint _, hinterval, htimeOut⟩
    · obtain ⟨intervals, hintervals, h⟩ := bind_eq_ok_iff.1 h
      obtain ⟨⟨hinterval, htimeOut⟩, rfl⟩ :=
        getOTelMetricsIntervalAndTimeOut_eq_ok_iff.1 hintervals
      cases h
      exact ⟨hendpoint _, hinterval, htimeOut⟩

/-- Metrics are not exported over HTTP exactly if there is no section on it. -/
theorem getHTTPMetricsOptionsFromIniFile_eq_none_iff :
    getHTTPMetricsOptionsFromIniFile host propertyTree section_ = .ok none ↔
      propertyTree.has section_ = false := by
  unfold getHTTPMetricsOptionsFromIniFile
  cases propertyTree.has section_ with
  | false => exact iff_of_true rfl rfl
  | true =>
  refine iff_of_false (fun h => ?_) (by rintro ⟨⟩)
  rw [Bool.not_true, if_neg Bool.false_ne_true] at h
  dsimp only at h
  split_ifs at h
  · cases h
  · obtain ⟨_, -, h⟩ := bind_eq_ok_iff.1 h
    cases h

/-- **When the section on metrics over gRPC passes:** in a build that has gRPC, and if its
intervals are positive and its certificate can be looked for. -/
theorem getGRPCMetricsOptionsFromIniFile_isOk_iff :
    (∃ grpcMetrics,
        getGRPCMetricsOptionsFromIniFile host propertyTree section_ = .ok grpcMetrics) ↔
      host.withOTLPGRPC = true ∧
        (propertyTree.has section_ = true →
          Intervals host propertyTree section_ ∧ Answers host propertyTree section_) := by
  unfold getGRPCMetricsOptionsFromIniFile
  cases host.withOTLPGRPC with
  | false => exact iff_of_false (by rintro ⟨_, ⟨⟩⟩) (by rintro ⟨⟨⟩, -⟩)
  | true =>
  cases propertyTree.has section_ with
  | false => exact iff_of_true ⟨none, rfl⟩ ⟨rfl, by rintro ⟨⟩⟩
  | true =>
  rw [answers_iff]
  constructor
  · rintro ⟨_, h⟩
    obtain ⟨intervals, hintervals, h⟩ := bind_eq_ok_iff.1 h
    obtain ⟨certificatePath, hcertificate, -⟩ := bind_eq_ok_iff.1 h
    exact ⟨rfl, fun _ => ⟨(getOTelMetricsIntervalAndTimeOut_eq_ok_iff.1 hintervals).1,
      certificatePath, hcertificate⟩⟩
  · rintro ⟨-, h⟩
    obtain ⟨hintervals, certificatePath, hcertificate⟩ := h rfl
    exact ⟨_, bind_eq_ok_iff.2
      ⟨_, getOTelMetricsIntervalAndTimeOut_eq_ok_iff.2 ⟨hintervals, rfl⟩,
        bind_eq_ok_iff.2 ⟨certificatePath, hcertificate, rfl⟩⟩⟩

/-- The section on metrics over gRPC gives usable options, in a build that has gRPC. -/
theorem usable_of_getGRPCMetricsOptionsFromIniFile {grpcMetrics : GRPCMetrics}
    (h : getGRPCMetricsOptionsFromIniFile host propertyTree section_ = .ok (some grpcMetrics)) :
    host.withOTLPGRPC = true ∧ grpcMetrics.Usable host := by
  unfold getGRPCMetricsOptionsFromIniFile at h
  split_ifs at h with hbuild hsection
  · cases h
  · obtain ⟨intervals, hintervals, h⟩ := bind_eq_ok_iff.1 h
    obtain ⟨certificatePath, hcertificate, h⟩ := bind_eq_ok_iff.1 h
    obtain ⟨⟨hinterval, htimeOut⟩, rfl⟩ :=
      getOTelMetricsIntervalAndTimeOut_eq_ok_iff.1 hintervals
    cases h
    exact ⟨by simpa using hbuild, collectorURL .., certificate_of_getCertificate hcertificate,
      hinterval, htimeOut⟩

end Configuration
end UDataPacketBroker
