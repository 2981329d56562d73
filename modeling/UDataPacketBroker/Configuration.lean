/-
# The program options

`src/programOptions.hpp`, `src/otelOptions.hpp`, and of `src/main.cpp` what decides the
exit code.  Boost reads the command line and the initialization file; the model starts
from the property tree that comes of it, and takes Boost's conversions of a value, and the
file system, as parameters.

A value that does not convert counts as one that is not there.
-/

import UDataPacketBroker.Library.Text
import UDataPacketBroker.Options

namespace UDataPacketBroker
namespace Configuration

open Library Options

/-! ### The property tree -/

/-- The tree of an initialization file: its sections, with their keys and values.  A key
before the first section is a section without keys here, as its own value is not read. -/
structure PropertyTree where
  sections : List (Bytes × List (Bytes × Bytes))

namespace PropertyTree

/-- Whether `get_optional` finds something at the path of one section. -/
def has (propertyTree : PropertyTree) (section_ : String) : Bool :=
  (propertyTree.sections.lookup (ascii section_)).isSome

/-- The value at a path of a section and a key. -/
def find (propertyTree : PropertyTree) (section_ key : String) : Option Bytes :=
  (propertyTree.sections.lookup (ascii section_)).bind fun keys => keys.lookup (ascii key)

/-- `get` with a default: for a path that leads nowhere, and for a value that does not
convert. -/
def get {α : Type} (propertyTree : PropertyTree) (convert : Bytes → Option α)
    (section_ key : String) (default : α) : α :=
  ((propertyTree.find section_ key).bind convert).getD default

end PropertyTree

/-- **What the program is run on.**  Boost's conversions of a value, the file system as it
is while the options are read, and how the program was built.  Functions of the file
system can throw. -/
structure Host where
  toInt : Bytes → Option Int32
  toInt64 : Bytes → Option Int64
  toUInt16 : Bytes → Option UInt16
  toSize : Bytes → Option UInt64
  toBool : Bytes → Option Bool
  fileExists : Bytes → Except Exception Bool
  /-- `create_directories`, which answers whether it created one. -/
  createDirectories : Bytes → Except Exception Bool
  readIni : Bytes → Except Exception PropertyTree
  withOTLPGRPC : Bool
  /-- What the factories of the exporters make of an endpoint and a certificate. -/
  createExporter : Bytes → Option Bytes → Except Exception Unit

/-! ### The exporters of logs and metrics -/

structure GRPCMetrics where
  url : Bytes := ascii "localhost:4317"
  exportInterval : Int64 := 15000
  exportTimeOut : Int64 := 500
  certificatePath : Bytes := []

structure GRPCLog where
  url : Bytes := ascii "localhost:4317"
  certificatePath : Bytes := []

structure HTTPMetrics where
  url : Bytes := ascii "localhost:4318"
  exportInterval : Int64 := 15000
  exportTimeOut : Int64 := 500
  suffix : Bytes := ascii "/v1/metrics"

structure HTTPLog where
  url : Bytes := ascii "localhost:4318"
  suffix : Bytes := ascii "/v1/logs"

section

variable (host : Host) (propertyTree : PropertyTree) (section_ : String)

/-- `getOTelMetricsIntervalAndTimeOut`, in milliseconds. -/
def getOTelMetricsIntervalAndTimeOut (defaultExportInterval defaultExportTimeOut : Int64) :
    Except Exception (Int64 × Int64) := do
  let exportInterval :=
    propertyTree.get host.toInt64 section_ "exportIntervalInMilliSeconds" defaultExportInterval
  throwIf (exportInterval ≤ 0) (.runtimeError (ascii "Export interval must be positive"))
  let exportTimeOut :=
    propertyTree.get host.toInt64 section_ "exportTimeOutInMilliSeconds" defaultExportTimeOut
  throwIf (exportTimeOut ≤ 0) (.invalidArgument (ascii "Export time out must be positive"))
  return (exportInterval, exportTimeOut)

/-- `getOTelCollectorURL`. -/
def getOTelCollectorURL : Bytes :=
  let otelCollectorHost := propertyTree.get some section_ "host" []
  let otelCollectorPort := propertyTree.get host.toUInt16 section_ "port" 4218
  if otelCollectorHost.isEmpty then []
  else otelCollectorHost ++ ascii ":" ++ decimal otelCollectorPort.toNat

/-- The suffix of an HTTP exporter, which starts with a slash. -/
def slashed (url suffix : Bytes) : Bytes :=
  if url.isEmpty then suffix
  else if suffix.isEmpty then suffix
  else if url.getLast? ≠ some 0x2F ∧ suffix.head? ≠ some 0x2F then ascii "/" ++ suffix
  else suffix

/-- A certificate is used if there is such a file. -/
def getCertificate : Except Exception Bytes :=
  match propertyTree.find section_ "certificate" with
  | none => .ok []
  | some certificatePath => do
    if (← host.fileExists certificatePath) then return certificatePath else return []

def getHTTPLogOptionsFromIniFile : Option HTTPLog :=
  if !propertyTree.has section_ then none
  else
    let url := getOTelCollectorURL host propertyTree section_
    some { url, suffix := slashed url (propertyTree.get some section_ "suffix" (ascii "/v1/logs")) }

def getGRPCLogOptionsFromIniFile : Except Exception (Option GRPCLog) :=
  if !host.withOTLPGRPC then
    .error (.runtimeError (ascii "Recompile with Conan to use gRPC logs exporter option"))
  else if !propertyTree.has section_ then .ok none
  else do
    let url := getOTelCollectorURL host propertyTree section_
    let certificatePath ← getCertificate host propertyTree section_
    return some { url, certificatePath }

def getHTTPMetricsOptionsFromIniFile : Except Exception (Option HTTPMetrics) :=
  if !propertyTree.has section_ then .ok none
  else
    let url := getOTelCollectorURL host propertyTree section_
    let suffix :=
      slashed url (propertyTree.get some section_ "suffix" (ascii "/v1/metrics"))
    let metricsOptions : HTTPMetrics := { url, suffix }
    if url.isEmpty then .ok (some metricsOptions)
    else do
      let (exportInterval, exportTimeOut) ← getOTelMetricsIntervalAndTimeOut host propertyTree
        section_ metricsOptions.exportInterval metricsOptions.exportTimeOut
      return some { metricsOptions with exportInterval, exportTimeOut }

def getGRPCMetricsOptionsFromIniFile : Except Exception (Option GRPCMetrics) :=
  if !host.withOTLPGRPC then
    .error (.runtimeError (ascii "Recompile with Conan to use gRPC metrics exporter option"))
  else if !propertyTree.has section_ then .ok none
  else do
    let metricsOptions : GRPCMetrics := { url := getOTelCollectorURL host propertyTree section_ }
    let (exportInterval, exportTimeOut) ← getOTelMetricsIntervalAndTimeOut host propertyTree
      section_ metricsOptions.exportInterval metricsOptions.exportTimeOut
    let certificatePath ← getCertificate host propertyTree section_
    return some { metricsOptions with exportInterval, exportTimeOut, certificatePath }

end

/-! ### The initialization file -/

/-- The directory of the database. -/
def databaseDirectory (propertyTree : PropertyTree) (section_ : String) : Bytes :=
  let databaseDirectory := propertyTree.get some section_ "directory" (ascii "rocksdb")
  if databaseDirectory.isEmpty then ascii "./" else databaseDirectory

/-- The directory of the database is there or is made. -/
def makeDatabaseDirectory (host : Host) (databaseDirectory : Bytes) : Except Exception Unit := do
  if !(← host.fileExists databaseDirectory) then
    throwIf (!(← host.createDirectories databaseDirectory))
      (.runtimeError (ascii "Could not make RocksDB directory " ++ databaseDirectory))

/-- `getRocksDBOptions`. -/
def getRocksDBOptions (host : Host) (propertyTree : PropertyTree) (section_ : String) :
    Except Exception (Option RocksDatabaseOptions) :=
  if !propertyTree.has "RocksDB" then .ok none
  else do
    let options : RocksDatabaseOptions := {}
    let databaseDirectory := databaseDirectory propertyTree section_
    makeDatabaseDirectory host databaseDirectory
    let options ← options.setDatabaseDirectory databaseDirectory
    let overWriteIfExists := propertyTree.get host.toBool section_ "overWriteIfExists" false
    let options := options.setOverWriteIfExists overWriteIfExists
    let enableWAL := propertyTree.get host.toBool section_ "enableWriteAheadLog" false
    let options := options.setWriteAheadLog enableWAL
    let writeBufferSizeInBytes := propertyTree.get host.toSize section_ "writeBufferSizeInBytes"
      options.writeBufferSizeInBytes.1
    throwIf (writeBufferSizeInBytes < 1)
      (.invalidArgument (ascii "Write buffer size must be positive"))
    let options ← options.setWriteBufferSizeInBytes writeBufferSizeInBytes
    let maxMemoryTables := propertyTree.get host.toInt section_ "maximumNumberOfMemoryTables"
      options.maximumNumberOfMemoryTables.1
    throwIf (maxMemoryTables < 1)
      (.invalidArgument (ascii "Max number of memory tables must be positive"))
    let options ← options.setMaximumNumberOfMemoryTables maxMemoryTables
    return some options

/-- `ProgramOptions`, its interval in seconds. -/
structure ProgramOptions where
  otelHTTPMetricsOptions : HTTPMetrics := {}
  otelHTTPLogOptions : HTTPLog := {}
  otelGRPCMetricsOptions : GRPCMetrics := {}
  otelGRPCLogOptions : GRPCLog := {}
  rocksDatabaseOptions : Option RocksDatabaseOptions := none
  applicationName : Bytes := ascii "uDataPacketBroker"
  printSummaryInterval : Int64 := 900
  verbosity : Int32 := 3
  exportLogs : Bool := false
  exportLogsWithHTTP : Bool := true
  exportMetrics : Bool := false
  exportMetricsWithHTTP : Bool := true

/-- The sections on logs: `OTelGRPCLogOptions` is looked at without an
`OTelHTTPLogOptions`. -/
def parseLogOptions (host : Host) (propertyTree : PropertyTree) (options : ProgramOptions) :
    Except Exception ProgramOptions :=
  match getHTTPLogOptionsFromIniFile host propertyTree "OTelHTTPLogOptions" with
  | some httpLog =>
    .ok { options with
      otelHTTPLogOptions := httpLog, exportLogs := true, exportLogsWithHTTP := true }
  | none => do
    match ← getGRPCLogOptionsFromIniFile host propertyTree "OTelGRPCLogOptions" with
    | some grpcLog =>
      return { options with
        otelGRPCLogOptions := grpcLog, exportLogs := true, exportLogsWithHTTP := false }
    | none => return { options with exportLogs := false }

@[inherit_doc parseLogOptions]
def parseMetricsOptions (host : Host) (propertyTree : PropertyTree) (options : ProgramOptions) :
    Except Exception ProgramOptions := do
  match ← getHTTPMetricsOptionsFromIniFile host propertyTree "OTelHTTPMetricsOptions" with
  | some httpMetrics =>
    return { options with
      otelHTTPMetricsOptions := httpMetrics, exportMetrics := true, exportMetricsWithHTTP := true }
  | none =>
    match ← getGRPCMetricsOptionsFromIniFile host propertyTree "OTelGRPCMetricsOptions" with
    | some grpcMetrics =>
      return { options with
        otelGRPCMetricsOptions := grpcMetrics, exportMetrics := true
        exportMetricsWithHTTP := false }
    | none => return { options with exportMetrics := false }

/-- The section `General`.  The default of the interval is in seconds, and is read as
minutes. -/
def parseGeneralOptions (host : Host) (propertyTree : PropertyTree) (options : ProgramOptions) :
    ProgramOptions :=
  let applicationName :=
    propertyTree.get some "General" "applicationName" options.applicationName
  let summaryIntervalInMinutes := propertyTree.get host.toInt "General"
    "printSummaryIntervalInMinutes" options.printSummaryInterval.toInt32
  { options with
    applicationName :=
      if applicationName.isEmpty then ascii "uDataPacketBroker" else applicationName
    verbosity := propertyTree.get host.toInt "General" "verbosity" options.verbosity
    printSummaryInterval := summaryIntervalInMinutes.toInt64 * 60 }

/-- `parseIniFile`. -/
def parseIniFile (host : Host) (iniFile : Bytes) : Except Exception ProgramOptions := do
  if !(← host.fileExists iniFile) then return {}
  let propertyTree ← host.readIni iniFile
  let options := parseGeneralOptions host propertyTree {}
  let rocksDatabaseOptions ← getRocksDBOptions host propertyTree "RocksDB"
  throwIf rocksDatabaseOptions.isNone
    (.runtimeError (ascii "Only RocksDB data store is implemented"))
  let options ← parseLogOptions host propertyTree { options with rocksDatabaseOptions }
  parseMetricsOptions host propertyTree options

/-! ### The exit code -/

/-- `Logger::initialize`, as far as it can throw. -/
def initializeLogger (host : Host) (options : ProgramOptions) : Except Exception Unit :=
  if options.exportLogsWithHTTP then
    if options.exportLogs then
      host.createExporter (options.otelHTTPLogOptions.url ++ options.otelHTTPLogOptions.suffix) none
    else .ok ()
  else if host.withOTLPGRPC then
    if options.exportLogs then do
      let certificatePath := options.otelGRPCLogOptions.certificatePath
      let useCertificate ←
        if certificatePath.isEmpty then .ok false else host.fileExists certificatePath
      host.createExporter options.otelGRPCLogOptions.url
        (if useCertificate then some certificatePath else none)
    else .ok ()
  else .error (.runtimeError (ascii "Recompile with Conan and OTLP_GRPC"))

/-- `Metrics::initialize`, as far as it can throw. -/
def initializeMetrics (host : Host) (options : ProgramOptions) : Except Exception Unit :=
  if options.exportMetricsWithHTTP then
    if options.exportMetrics then
      host.createExporter
        (options.otelHTTPMetricsOptions.url ++ options.otelHTTPMetricsOptions.suffix) none
    else .ok ()
  else if host.withOTLPGRPC then
    if options.exportMetrics then
      let certificatePath := options.otelGRPCMetricsOptions.certificatePath
      host.createExporter options.otelGRPCMetricsOptions.url
        (if certificatePath.isEmpty then none else some certificatePath)
    else .ok ()
  else .error (.runtimeError (ascii "Recompile with Conan and OTLP_GRPC"))

/-- What Boost makes of the arguments: whether there is a `--help`, and what `--ini` is. -/
structure Arguments where
  help : Bool
  ini : Option Bytes

/-- `parseCommandLineOptions`, after Boost read the arguments. -/
def parseCommandLineOptions (host : Host) (arguments : Arguments) :
    Except Exception (Bytes × Bool) :=
  if arguments.help then .ok ([], true)
  else
    match arguments.ini with
    | none => .ok ([], false)
    | some iniFile => do
      throwIf (!(← host.fileExists iniFile))
        (.runtimeError (ascii "Initialization file: " ++ iniFile ++ ascii " does not exist"))
      return (iniFile, false)

/-- From the arguments to what `main` catches: every exception ends it with
`EXIT_FAILURE`.  The process itself is commented out. -/
def run (host : Host) (arguments : Except Exception Arguments) : Except Exception Unit := do
  let (iniFile, isHelp) ← parseCommandLineOptions host (← arguments)
  if isHelp then return ()
  throwIf iniFile.isEmpty (.runtimeError (ascii "No initialization file specified"))
  let programOptions ← parseIniFile host iniFile
  initializeLogger host programOptions
  initializeMetrics host programOptions

/-- `main`: whether it returns `EXIT_SUCCESS`. -/
def main (host : Host) (arguments : Except Exception Arguments) : Bool :=
  (run host arguments).isOk

end Configuration
end UDataPacketBroker
