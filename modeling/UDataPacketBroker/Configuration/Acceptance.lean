/-
# Which initialization files are accepted

A file is rejected for few reasons (`Accepted`), as most values have a default and one
that does not convert counts as missing.  What is accepted can be used
(`usable_of_parseIniFile`); in particular no exporter is chosen that the program was not
built with, so the exit code tells whether the file was accepted (`main_eq_true_iff`).
-/

import UDataPacketBroker.Configuration.Exporters

namespace UDataPacketBroker
namespace Configuration

open Library Options

variable {host : Host} {propertyTree : PropertyTree} {section_ : String}

/-! ### The store -/

/-- An empty directory stands for the current one. -/
theorem databaseDirectory_ne_nil (propertyTree : PropertyTree) (section_ : String) :
    databaseDirectory propertyTree section_ ≠ [] := by
  unfold databaseDirectory
  dsimp only
  split_ifs with h
  · decide
  · rwa [List.isEmpty_iff] at h

/-- **The directory passes** if it is there or is made. -/
theorem makeDatabaseDirectory_eq_ok_iff {databaseDirectory : Bytes} :
    makeDatabaseDirectory host databaseDirectory = .ok () ↔
      host.fileExists databaseDirectory = .ok true ∨
        host.fileExists databaseDirectory = .ok false ∧
          host.createDirectories databaseDirectory = .ok true := by
  unfold makeDatabaseDirectory
  rw [bind_eq_ok_iff]
  constructor
  · rintro ⟨there, hthere, h⟩
    cases there with
    | true => exact Or.inl hthere
    | false =>
        obtain ⟨made, hmade, h⟩ := bind_eq_ok_iff.1 h
        cases made with
        | true => exact Or.inr ⟨hthere, hmade⟩
        | false => exact absurd rfl (throwIf_eq_ok_iff.1 h)
  · rintro (hthere | ⟨hthere, hmade⟩)
    · exact ⟨true, hthere, rfl⟩
    · exact ⟨false, hthere, bind_eq_ok_iff.2 ⟨true, hmade, rfl⟩⟩

/-- **The section of the store.** -/
structure StoreOptions (host : Host) (propertyTree : PropertyTree) : Prop where
  section_ : propertyTree.has "RocksDB" = true
  /-- It is there, or can be made. -/
  directory : host.fileExists (databaseDirectory propertyTree "RocksDB") = .ok true ∨
    host.fileExists (databaseDirectory propertyTree "RocksDB") = .ok false ∧
      host.createDirectories (databaseDirectory propertyTree "RocksDB") = .ok true
  writeBuffer : propertyTree.get host.toSize "RocksDB" "writeBufferSizeInBytes"
    ((128 : UInt64) <<< 20) ≠ 0
  memoryTables : 1 ≤ propertyTree.get host.toInt "RocksDB" "maximumNumberOfMemoryTables" 2

/-- The options of the store that a section gives. -/
def StoreOptions.options (h : StoreOptions host propertyTree) : RocksDatabaseOptions where
  databaseDirectory := databaseDirectory propertyTree "RocksDB"
  writeBufferSizeInBytes := ⟨_, h.writeBuffer⟩
  maximumNumberOfMemoryTables := ⟨_, h.memoryTables⟩
  enableWriteAheadLog := propertyTree.get host.toBool "RocksDB" "enableWriteAheadLog" false
  overWriteIfExists := propertyTree.get host.toBool "RocksDB" "overWriteIfExists" false

/-- **What is made of the section of the store,** and when. -/
theorem getRocksDBOptions_eq_ok_iff {options : RocksDatabaseOptions} :
    getRocksDBOptions host propertyTree "RocksDB" = .ok (some options) ↔
      ∃ h : StoreOptions host propertyTree, h.options = options := by
  cases hsection : propertyTree.has "RocksDB" with
  | false =>
      refine iff_of_false (fun h => ?_) fun ⟨h, _⟩ => ?_
      · rw [getRocksDBOptions, hsection] at h
        cases h
      · rw [h.section_] at hsection
        cases hsection
  | true =>
  have hlt {n : UInt64} : n < 1 ↔ n = 0 := by
    rw [UInt64.lt_iff_toNat_lt, ← UInt64.toNat_inj]
    exact Nat.lt_one_iff
  rw [getRocksDBOptions, hsection, Bool.not_true, if_neg Bool.false_ne_true]
  dsimp only
  constructor
  · intro h
    obtain ⟨⟨⟩, hdirectory, h⟩ := bind_eq_ok_iff.1 h
    obtain ⟨named, hnamed, h⟩ := bind_eq_ok_iff.1 h
    obtain ⟨hne, rfl⟩ := map_check_eq_ok_iff.1 hnamed
    obtain ⟨-, -, h⟩ := bind_eq_ok_iff.1 h
    obtain ⟨buffered, hbuffered, h⟩ := bind_eq_ok_iff.1 h
    obtain ⟨hbuffer, rfl⟩ := map_check_eq_ok_iff.1 hbuffered
    obtain ⟨-, -, h⟩ := bind_eq_ok_iff.1 h
    obtain ⟨tabled, htabled, h⟩ := bind_eq_ok_iff.1 h
    obtain ⟨htables, rfl⟩ := map_check_eq_ok_iff.1 htabled
    cases h
    exact ⟨⟨hsection, makeDatabaseDirectory_eq_ok_iff.1 hdirectory, hbuffer, htables⟩, rfl⟩
  · rintro ⟨h, rfl⟩
    exact bind_eq_ok_iff.2 ⟨(), makeDatabaseDirectory_eq_ok_iff.2 h.directory, bind_eq_ok_iff.2 ⟨_,
      map_check_eq_ok_iff.2 ⟨databaseDirectory_ne_nil _ _, rfl⟩, bind_eq_ok_iff.2 ⟨(),
      throwIf_eq_ok_iff.2 fun hnone => h.writeBuffer (hlt.1 hnone), bind_eq_ok_iff.2 ⟨_,
      map_check_eq_ok_iff.2 ⟨h.writeBuffer, rfl⟩, bind_eq_ok_iff.2 ⟨(),
      throwIf_eq_ok_iff.2 (Int32.not_lt.2 h.memoryTables), bind_eq_ok_iff.2 ⟨_,
      map_check_eq_ok_iff.2 ⟨h.memoryTables, rfl⟩, rfl⟩⟩⟩⟩⟩⟩

/-! ### The exporters -/

/-- **What the exporters are given.**  gRPC is chosen by a build that has it, and all
options are usable, also those that stayed as they were. -/
structure Exportable (host : Host) (options : ProgramOptions) : Prop where
  logs : options.exportLogsWithHTTP = false → host.withOTLPGRPC = true
  metrics : options.exportMetricsWithHTTP = false → host.withOTLPGRPC = true
  httpLog : Endpoint options.otelHTTPLogOptions.url options.otelHTTPLogOptions.suffix
  httpMetrics : options.otelHTTPMetricsOptions.Usable
  grpcLog : options.otelGRPCLogOptions.Usable host
  grpcMetrics : options.otelGRPCMetricsOptions.Usable host

/-- The exporters are usable before anything is read. -/
theorem exportable_default (host : Host) : Exportable host {} where
  logs := by rintro ⟨⟩
  metrics := by rintro ⟨⟩
  httpLog := ⟨Or.inr ⟨ascii "localhost", 4318, by decide, by decide⟩, fun _ => Or.inr rfl⟩
  httpMetrics := ⟨⟨Or.inr ⟨ascii "localhost", 4318, by decide, by decide⟩, fun _ => Or.inr rfl⟩,
    by decide, by decide⟩
  grpcLog := ⟨Or.inr ⟨ascii "localhost", 4317, by decide, by decide⟩, Or.inl rfl⟩
  grpcMetrics := ⟨Or.inr ⟨ascii "localhost", 4317, by decide, by decide⟩, Or.inl rfl, by decide,
    by decide⟩

/-- **The sections on logs that are accepted.** -/
def LogsAccepted (host : Host) (propertyTree : PropertyTree) : Prop :=
  propertyTree.has "OTelHTTPLogOptions" = false → host.withOTLPGRPC = true ∧
    (propertyTree.has "OTelGRPCLogOptions" = true → Answers host propertyTree "OTelGRPCLogOptions")

/-- **The sections on metrics that are accepted.** -/
structure MetricsAccepted (host : Host) (propertyTree : PropertyTree) : Prop where
  http : propertyTree.has "OTelHTTPMetricsOptions" = true →
    propertyTree.get some "OTelHTTPMetricsOptions" "host" [] ≠ [] →
      Intervals host propertyTree "OTelHTTPMetricsOptions"
  grpc : propertyTree.has "OTelHTTPMetricsOptions" = false → host.withOTLPGRPC = true ∧
    (propertyTree.has "OTelGRPCMetricsOptions" = true →
      Intervals host propertyTree "OTelGRPCMetricsOptions" ∧
        Answers host propertyTree "OTelGRPCMetricsOptions")

/-- What `parseLogOptions` leaves alone. -/
theorem exportable_of_parseLogOptions {options options' : ProgramOptions}
    (h : Exportable host options)
    (hparse : parseLogOptions host propertyTree options = .ok options') :
    Exportable host options' ∧ options'.rocksDatabaseOptions = options.rocksDatabaseOptions ∧
      options'.applicationName = options.applicationName ∧
      options'.printSummaryInterval = options.printSummaryInterval := by
  unfold parseLogOptions at hparse
  cases hhttp : getHTTPLogOptionsFromIniFile host propertyTree "OTelHTTPLogOptions" with
  | some httpLog =>
      rw [hhttp] at hparse
      cases hparse
      exact ⟨⟨by rintro ⟨⟩, h.metrics, endpoint_of_getHTTPLogOptionsFromIniFile hhttp,
        h.httpMetrics, h.grpcLog, h.grpcMetrics⟩, rfl, rfl, rfl⟩
  | none =>
      rw [hhttp] at hparse
      obtain ⟨grpcLog, hgrpc, hparse⟩ := bind_eq_ok_iff.1 hparse
      cases grpcLog with
      | none =>
          cases hparse
          exact ⟨⟨h.logs, h.metrics, h.httpLog, h.httpMetrics, h.grpcLog, h.grpcMetrics⟩, rfl, rfl,
            rfl⟩
      | some grpcLog =>
          obtain ⟨hbuild, husable⟩ := usable_of_getGRPCLogOptionsFromIniFile hgrpc
          cases hparse
          exact ⟨⟨fun _ => hbuild, h.metrics, h.httpLog, h.httpMetrics, husable, h.grpcMetrics⟩,
            rfl, rfl, rfl⟩

/-- **When the sections on logs pass.** -/
theorem parseLogOptions_isOk_iff {options : ProgramOptions} :
    (∃ options', parseLogOptions host propertyTree options = .ok options') ↔
      LogsAccepted host propertyTree := by
  unfold parseLogOptions LogsAccepted
  rw [← getGRPCLogOptionsFromIniFile_isOk_iff, ← @getHTTPLogOptionsFromIniFile_eq_none_iff host]
  cases getHTTPLogOptionsFromIniFile host propertyTree "OTelHTTPLogOptions" with
  | some httpLog => exact iff_of_true ⟨_, rfl⟩ (by rintro ⟨⟩)
  | none =>
      constructor
      · rintro ⟨_, h⟩ -
        obtain ⟨grpcLog, hgrpc, -⟩ := bind_eq_ok_iff.1 h
        exact ⟨grpcLog, hgrpc⟩
      · intro h
        obtain ⟨grpcLog, hgrpc⟩ := h rfl
        cases grpcLog with
        | none => exact ⟨_, bind_eq_ok_iff.2 ⟨none, hgrpc, rfl⟩⟩
        | some grpcLog => exact ⟨_, bind_eq_ok_iff.2 ⟨some grpcLog, hgrpc, rfl⟩⟩

/-- What `parseMetricsOptions` leaves alone. -/
theorem exportable_of_parseMetricsOptions {options options' : ProgramOptions}
    (h : Exportable host options)
    (hparse : parseMetricsOptions host propertyTree options = .ok options') :
    Exportable host options' ∧ options'.rocksDatabaseOptions = options.rocksDatabaseOptions ∧
      options'.applicationName = options.applicationName ∧
      options'.printSummaryInterval = options.printSummaryInterval := by
  obtain ⟨httpMetrics, hhttp, hparse⟩ := bind_eq_ok_iff.1 hparse
  cases httpMetrics with
  | some httpMetrics =>
      cases hparse
      exact ⟨⟨h.logs, by rintro ⟨⟩, h.httpLog, usable_of_getHTTPMetricsOptionsFromIniFile hhttp,
        h.grpcLog, h.grpcMetrics⟩, rfl, rfl, rfl⟩
  | none =>
      obtain ⟨grpcMetrics, hgrpc, hparse⟩ := bind_eq_ok_iff.1 hparse
      cases grpcMetrics with
      | none =>
          cases hparse
          exact ⟨⟨h.logs, h.metrics, h.httpLog, h.httpMetrics, h.grpcLog, h.grpcMetrics⟩, rfl, rfl,
            rfl⟩
      | some grpcMetrics =>
          obtain ⟨hbuild, husable⟩ := usable_of_getGRPCMetricsOptionsFromIniFile hgrpc
          cases hparse
          exact ⟨⟨h.logs, fun _ => hbuild, h.httpLog, h.httpMetrics, h.grpcLog, husable⟩,
            rfl, rfl, rfl⟩

/-- **When the sections on metrics pass.** -/
theorem parseMetricsOptions_isOk_iff {options : ProgramOptions} :
    (∃ options', parseMetricsOptions host propertyTree options = .ok options') ↔
      MetricsAccepted host propertyTree := by
  have hnone := @getHTTPMetricsOptionsFromIniFile_eq_none_iff host propertyTree
    "OTelHTTPMetricsOptions"
  constructor
  · rintro ⟨_, h⟩
    obtain ⟨httpMetrics, hhttp, h⟩ := bind_eq_ok_iff.1 h
    refine ⟨getHTTPMetricsOptionsFromIniFile_isOk_iff.1 ⟨_, hhttp⟩, fun hsection => ?_⟩
    rw [hnone.2 hsection] at hhttp
    cases hhttp
    obtain ⟨grpcMetrics, hgrpc, -⟩ := bind_eq_ok_iff.1 h
    exact getGRPCMetricsOptionsFromIniFile_isOk_iff.1 ⟨_, hgrpc⟩
  · rintro ⟨hhttp, hgrpc⟩
    obtain ⟨httpMetrics, hhttp⟩ := getHTTPMetricsOptionsFromIniFile_isOk_iff.2 hhttp
    cases httpMetrics with
    | some httpMetrics => exact ⟨_, bind_eq_ok_iff.2 ⟨_, hhttp, rfl⟩⟩
    | none =>
        obtain ⟨grpcMetrics, hgrpc⟩ :=
          getGRPCMetricsOptionsFromIniFile_isOk_iff.2 (hgrpc (hnone.1 hhttp))
        cases grpcMetrics with
        | none => exact ⟨_, bind_eq_ok_iff.2 ⟨none, hhttp, bind_eq_ok_iff.2 ⟨none, hgrpc, rfl⟩⟩⟩
        | some grpcMetrics =>
            exact ⟨_, bind_eq_ok_iff.2 ⟨none, hhttp, bind_eq_ok_iff.2 ⟨_, hgrpc, rfl⟩⟩⟩

/-- **The initialization files that are accepted.** -/
structure Accepted (host : Host) (propertyTree : PropertyTree) : Prop where
  store : StoreOptions host propertyTree
  logs : LogsAccepted host propertyTree
  metrics : MetricsAccepted host propertyTree

/-- The steps of `parseIniFile` on a file that is there. -/
theorem parseIniFile_eq_ok_iff {iniFile : Bytes} {options : ProgramOptions}
    (hthere : host.fileExists iniFile = .ok true) (hread : host.readIni iniFile = .ok propertyTree) :
    parseIniFile host iniFile = .ok options ↔ ∃ (h : StoreOptions host propertyTree) (logged : _),
      parseLogOptions host propertyTree { parseGeneralOptions host propertyTree {} with
        rocksDatabaseOptions := some h.options } = .ok logged ∧
      parseMetricsOptions host propertyTree logged = .ok options := by
  have hparse : parseIniFile host iniFile =
      (getRocksDBOptions host propertyTree "RocksDB" >>= fun rocksDatabaseOptions =>
        throwIf rocksDatabaseOptions.isNone
            (.runtimeError (ascii "Only RocksDB data store is implemented")) >>= fun _ =>
          parseLogOptions host propertyTree { parseGeneralOptions host propertyTree {} with
            rocksDatabaseOptions } >>= fun logged =>
            parseMetricsOptions host propertyTree logged) := by
    unfold parseIniFile
    rw [hthere, hread]
    rfl
  rw [hparse]
  constructor
  · intro h
    obtain ⟨rocksDatabaseOptions, hrocks, h⟩ := bind_eq_ok_iff.1 h
    obtain ⟨⟨⟩, hsome, h⟩ := bind_eq_ok_iff.1 h
    obtain ⟨logged, hlogs, hmetrics⟩ := bind_eq_ok_iff.1 h
    cases rocksDatabaseOptions with
    | none => exact absurd rfl (throwIf_eq_ok_iff.1 hsome)
    | some rocksDatabaseOptions =>
        obtain ⟨hstore, rfl⟩ := getRocksDBOptions_eq_ok_iff.1 hrocks
        exact ⟨hstore, logged, hlogs, hmetrics⟩
  · rintro ⟨hstore, logged, hlogs, hmetrics⟩
    exact bind_eq_ok_iff.2 ⟨_, getRocksDBOptions_eq_ok_iff.2 ⟨hstore, rfl⟩,
      bind_eq_ok_iff.2 ⟨(), rfl, bind_eq_ok_iff.2 ⟨logged, hlogs, hmetrics⟩⟩⟩

/-- A file that is there and accepted was read. -/
theorem readIni_of_parseIniFile {iniFile : Bytes} {options : ProgramOptions}
    (hthere : host.fileExists iniFile = .ok true) (h : parseIniFile host iniFile = .ok options) :
    ∃ propertyTree, host.readIni iniFile = .ok propertyTree := by
  obtain ⟨there, hanswer, h⟩ := bind_eq_ok_iff.1 h
  rw [hthere] at hanswer
  cases hanswer
  obtain ⟨propertyTree, hread, -⟩ := bind_eq_ok_iff.1 h
  exact ⟨propertyTree, hread⟩

/-- **When a file that is read passes.** -/
theorem parseIniFile_isOk_iff {iniFile : Bytes} (hthere : host.fileExists iniFile = .ok true)
    (hread : host.readIni iniFile = .ok propertyTree) :
    (∃ options, parseIniFile host iniFile = .ok options) ↔ Accepted host propertyTree := by
  constructor
  · rintro ⟨options, h⟩
    obtain ⟨hstore, logged, hlogs, hmetrics⟩ := (parseIniFile_eq_ok_iff hthere hread).1 h
    exact ⟨hstore, parseLogOptions_isOk_iff.1 ⟨_, hlogs⟩, parseMetricsOptions_isOk_iff.1 ⟨_, hmetrics⟩⟩
  · rintro ⟨hstore, hlogs, hmetrics⟩
    obtain ⟨logged, hlogs⟩ := (@parseLogOptions_isOk_iff _ _
      { parseGeneralOptions host propertyTree {} with
        rocksDatabaseOptions := some hstore.options }).2 hlogs
    obtain ⟨options, hmetrics⟩ := (@parseMetricsOptions_isOk_iff _ _ logged).2 hmetrics
    exact ⟨options, (parseIniFile_eq_ok_iff hthere hread).2 ⟨hstore, logged, hlogs, hmetrics⟩⟩

/-- The options that are parsed, and what of them both sections on exporters leave alone. -/
theorem exportable_of_parseIniFile {iniFile : Bytes} {options : ProgramOptions}
    (hthere : host.fileExists iniFile = .ok true) (hread : host.readIni iniFile = .ok propertyTree)
    (hparse : parseIniFile host iniFile = .ok options) :
    Exportable host options ∧ (∃ h : StoreOptions host propertyTree,
        options.rocksDatabaseOptions = some h.options) ∧
      options.applicationName = (parseGeneralOptions host propertyTree {}).applicationName ∧
      options.printSummaryInterval =
        (parseGeneralOptions host propertyTree {}).printSummaryInterval := by
  obtain ⟨hstore, logged, hlogs, hmetrics⟩ := (parseIniFile_eq_ok_iff hthere hread).1 hparse
  have hdefault := exportable_default host
  have hgeneral : Exportable host { parseGeneralOptions host propertyTree {} with
      rocksDatabaseOptions := some hstore.options } :=
    ⟨hdefault.logs, hdefault.metrics, hdefault.httpLog, hdefault.httpMetrics, hdefault.grpcLog,
      hdefault.grpcMetrics⟩
  obtain ⟨hlogged, hrocks, hname, hinterval⟩ := exportable_of_parseLogOptions hgeneral hlogs
  obtain ⟨hexportable, hrocks', hname', hinterval'⟩ :=
    exportable_of_parseMetricsOptions hlogged hmetrics
  exact ⟨hexportable, ⟨hstore, hrocks'.trans hrocks⟩, hname'.trans hname,
    hinterval'.trans hinterval⟩

/-- A file with an exporter of logs and one of metrics over HTTP. -/
def sampleTree : PropertyTree where
  sections :=
    [(ascii "General", [(ascii "verbosity", ascii "4")]),
      (ascii "RocksDB", [(ascii "directory", []), (ascii "maximumNumberOfMemoryTables", ascii "3")]),
      (ascii "OTelHTTPLogOptions", [(ascii "suffix", ascii "logs")]),
      (ascii "OTelHTTPMetricsOptions", [(ascii "host", ascii "collector"),
        (ascii "exportIntervalInMilliSeconds", ascii "2000"), (ascii "suffix", ascii "metrics")])]

/-- The conversions of numbers without a sign, and a directory with one file. -/
def sampleHost : Host :=
  let toNat (value : Bytes) : Option ℕ :=
    if value.all fun b => 48 ≤ b ∧ b ≤ 57 then
      some (value.foldl (fun sofar b => 10 * sofar + (b.toNat - 48)) 0)
    else none
  let isThere (path : Bytes) : Bool := path = ascii "./" ∨ path = ascii "broker.ini"
  { toInt := fun value => (toNat value).map Int32.ofNat
    toInt64 := fun value => (toNat value).map Int64.ofNat
    toUInt16 := fun value => (toNat value).map UInt16.ofNat
    toSize := fun value => (toNat value).map UInt64.ofNat
    toBool := fun value => if value = ascii "true" then some true else none
    fileExists := fun file => .ok (isThere file)
    createDirectories := fun directory => .ok (!isThere directory)
    readIni := fun file =>
      if file = ascii "broker.ini" then .ok sampleTree
      else .error (.runtimeError (ascii "cannot open file"))
    withOTLPGRPC := false
    createExporter := fun _ _ => .ok () }

/-- The sample passes, on a host whose directory is there. -/
theorem accepted_sampleTree : Accepted sampleHost sampleTree where
  store := ⟨by decide, Or.inl rfl, by decide, by decide⟩
  logs := by rintro ⟨⟩
  metrics := ⟨fun _ _ => ⟨by decide, by decide⟩, by rintro ⟨⟩⟩

/-- With usable options the logger throws only what its exporters' factories throw. -/
theorem initializeLogger_eq_ok {options : ProgramOptions} (h : Exportable host options)
    (hcreate : ∀ endpoint certificate, host.createExporter endpoint certificate = .ok ()) :
    initializeLogger host options = .ok () := by
  unfold initializeLogger
  split_ifs with hhttp hexport hbuild hexport
  · exact hcreate _ _
  · rfl
  · dsimp only
    by_cases hempty : options.otelGRPCLogOptions.certificatePath.isEmpty = true
    · rw [if_pos hempty]
      exact hcreate _ _
    · rw [if_neg hempty]
      have hthere := h.grpcLog.certificate.resolve_left fun hnil => hempty (List.isEmpty_iff.2 hnil)
      exact bind_eq_ok_iff.2 ⟨true, hthere, hcreate _ _⟩
  · rfl
  · exact absurd (h.logs (Bool.not_eq_true _ ▸ hhttp)) hbuild

/-- So do the metrics. -/
theorem initializeMetrics_eq_ok {options : ProgramOptions} (h : Exportable host options)
    (hcreate : ∀ endpoint certificate, host.createExporter endpoint certificate = .ok ()) :
    initializeMetrics host options = .ok () := by
  unfold initializeMetrics
  split_ifs with hhttp hexport hbuild hexport
  · exact hcreate _ _
  · rfl
  · exact hcreate _ _
  · rfl
  · exact absurd (h.metrics (Bool.not_eq_true _ ▸ hhttp)) hbuild

/-- **The exit code.**  As long as the factories of the exporters do not throw, the program
succeeds when it is asked for help, and otherwise exactly when it is given an
initialization file that is there, that Boost reads, and that is accepted. -/
theorem main_eq_true_iff (host : Host)
    (hcreate : ∀ endpoint certificate, host.createExporter endpoint certificate = .ok ())
    (arguments : Except Exception Arguments) :
    main host arguments = true ↔ ∃ given, arguments = .ok given ∧
      (given.help = true ∨ ∃ iniFile propertyTree, given.ini = some iniFile ∧ iniFile ≠ [] ∧
        host.fileExists iniFile = .ok true ∧ host.readIni iniFile = .ok propertyTree ∧
        Accepted host propertyTree) := by
  have hmain : main host arguments = true ↔ run host arguments = .ok () := by
    unfold main
    cases run host arguments with
    | error e => exact iff_of_false (by rintro ⟨⟩) (by rintro ⟨⟩)
    | ok u => exact iff_of_true rfl rfl
  have hhelps {given : Arguments} (hgiven : arguments = .ok given) (hhelp : given.help = true) :
      run host arguments = .ok () := by
    refine bind_eq_ok_iff.2 ⟨given, hgiven, bind_eq_ok_iff.2 ⟨([], true), ?_, rfl⟩⟩
    rw [parseCommandLineOptions, if_pos hhelp]
  rw [hmain]
  constructor
  · intro h
    obtain ⟨given, hgiven, h⟩ := bind_eq_ok_iff.1 h
    refine ⟨given, hgiven, ?_⟩
    obtain ⟨⟨iniFile, isHelp⟩, hcommand, h⟩ := bind_eq_ok_iff.1 h
    unfold parseCommandLineOptions at hcommand
    by_cases hhelp : given.help = true
    · exact Or.inl hhelp
    · rw [if_neg hhelp] at hcommand
      cases hini : given.ini with
      | none =>
          rw [hini] at hcommand
          cases hcommand
          obtain ⟨⟨⟩, hnamed, -⟩ := bind_eq_ok_iff.1 h
          exact absurd rfl (throwIf_eq_ok_iff.1 hnamed)
      | some named =>
          rw [hini] at hcommand
          obtain ⟨there, hthere, hcommand⟩ := bind_eq_ok_iff.1 hcommand
          obtain ⟨⟨⟩, hexists, hcommand⟩ := bind_eq_ok_iff.1 hcommand
          cases hcommand
          obtain ⟨⟨⟩, hnamed, h⟩ := bind_eq_ok_iff.1 h
          obtain ⟨options, hparse, -⟩ := bind_eq_ok_iff.1 h
          have hnamed := throwIf_eq_ok_iff.1 hnamed
          rw [throwIf_eq_ok_iff, Bool.not_eq_true', Bool.not_eq_false] at hexists
          rw [hexists] at hthere
          obtain ⟨propertyTree, hread⟩ := readIni_of_parseIniFile hthere hparse
          exact Or.inr ⟨iniFile, propertyTree, rfl, fun hnil => hnamed (List.isEmpty_iff.2 hnil),
            hthere, hread, (parseIniFile_isOk_iff hthere hread).1 ⟨options, hparse⟩⟩
  · rintro ⟨given, hgiven, hhelp | ⟨iniFile, propertyTree, hini, hne, hthere, hread, haccepted⟩⟩
    · exact hhelps hgiven hhelp
    · by_cases hhelp : given.help = true
      · exact hhelps hgiven hhelp
      · obtain ⟨options, hparse⟩ := (parseIniFile_isOk_iff hthere hread).2 haccepted
        have hexportable := (exportable_of_parseIniFile hthere hread hparse).1
        refine bind_eq_ok_iff.2 ⟨given, hgiven, bind_eq_ok_iff.2 ⟨(iniFile, false), ?_, ?_⟩⟩
        · rw [parseCommandLineOptions, if_neg hhelp, hini]
          exact bind_eq_ok_iff.2 ⟨true, hthere, rfl⟩
        · exact bind_eq_ok_iff.2 ⟨(),
            throwIf_eq_ok_iff.2 fun hnil => hne (List.isEmpty_iff.1 hnil),
            bind_eq_ok_iff.2 ⟨options, hparse, bind_eq_ok_iff.2 ⟨(),
              initializeLogger_eq_ok hexportable hcreate,
              initializeMetrics_eq_ok hexportable hcreate⟩⟩⟩

/-- The file is there and accepted; a file that is not there is not. -/
theorem main_eq_true_iff_sampleTree :
    main sampleHost (.ok ⟨false, some (ascii "broker.ini")⟩) = true ∧
      main sampleHost (.ok ⟨false, some (ascii "other.ini")⟩) = false := by
  have hmain := main_eq_true_iff sampleHost (fun _ _ => rfl)
  refine ⟨(hmain _).2 ⟨_, rfl, Or.inr ⟨_, sampleTree, rfl, by decide, rfl, rfl,
    accepted_sampleTree⟩⟩, Bool.not_eq_true _ ▸ fun h => ?_⟩
  obtain ⟨given, hgiven, hgranted⟩ := (hmain _).1 h
  cases hgiven
  rcases hgranted with hhelp | ⟨iniFile, propertyTree, hini, -, hthere, -⟩
  · cases hhelp
  · cases hini
    exact absurd hthere (by decide)

end Configuration
end UDataPacketBroker
