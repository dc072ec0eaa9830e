import MetricReporting.Command.Listing
import MetricReporting.Command.Overview
import MetricReporting.Command.ValidationReport
import MetricReporting.CommandLine.Invocation
import MetricReporting.Pipeline.Run

/-!
# Carrying out commands

What a command prints, which files it leaves, and how it fails. Nothing is printed by a command
that fails, except for the report on a configuration that is not accepted.
-/
namespace MetricReporting

structure Machine where
  network : Network
  host : HostInformation
  files : FileTree
  busyPorts : List Nat := []

inductive CommandFailure
  | configNotFound (path : String)
  | configNotLoaded (path : String) (error : ReportingError)
  | configInvalid
  | notRead (error : OsError)
  | notDecoded (path : String) (error : Payload.DecodeError)
  | portBusy
  | pipeline (failure : Failure)
  | overflow
deriving DecidableEq, Repr

def CommandFailure.chain : CommandFailure → List String
  | configNotFound path => ["Configuration file not found: " ++ path]
  | configNotLoaded path error => ("Failed to load config from " ++ path) :: error.chain
  | configInvalid => ["Configuration validation failed"]
  | notRead error => ["IO error: " ++ error.message, error.message]
  | notDecoded path error =>
      ["Failed to decode payload " ++ path ++ ": " ++ error.message, error.message]
  | portBusy =>
      ["Failed to install Prometheus recorder",
        "failed to create HTTP listener: Address already in use (os error 98)"]
  | pipeline failure => "Pipeline execution failed" :: failure.chain
  | overflow => ["arithmetic overflow"]

structure Outcome where
  output : String
  files : FileTree
  failure : Option CommandFailure := none

namespace Outcome

def ofResult (files : FileTree) : Except CommandFailure String → Outcome
  | .ok output => ⟨output, files, none⟩
  | .error failure => ⟨"", files, some failure⟩

end Outcome

namespace Machine

def printed (value : Value) : String :=
  Json.write 0 value ++ "\n"

def loadConfig (files : FileTree) (path : String) : Except CommandFailure ReportingConfig :=
  if !files.contains path then .error (.configNotFound path)
  else (ReportingConfig.loadFile ConfigFormat.layer files path).mapError (.configNotLoaded path)

def validate (machine : Machine) (options : ValidateOptions) : Outcome :=
  match ValidationReport.ofFile? machine.files options.configPath with
  | none => ⟨"", machine.files, some .overflow⟩
  | some report =>
      { output := if options.asJson then printed report.toValue else report.text
        files := machine.files
        failure := if report.isValid then none else some .configInvalid }

def info (machine : Machine) (options : InfoOptions) : Except CommandFailure String := do
  let config ← loadConfig machine.files options.configPath
  let overview := Overview.ofConfig config machine.host options.withHeaders
  .ok (if options.asJson then printed overview.toValue else overview.text)

def listFile (files : FileTree) (withValues : Bool) (pool : Payload.Pool) (path : String) :
    Except CommandFailure (Listing × Payload.Pool) :=
  match files.read path with
  | .error error => .error (.notRead error)
  | .ok payload =>
      match Listing.ofPayload path payload withValues pool with
      | (.ok listing, pool) => .ok (listing, pool)
      | (.error (.undecodable error), _) => .error (.notDecoded path error)
      | (.error .untimely, _) => .error .overflow

def listFiles (files : FileTree) (withValues : Bool) :
    List String → Payload.Pool → Except CommandFailure (List Listing)
  | [], _ => .ok []
  | path :: rest, pool => do
      let (listing, pool) ← listFile files withValues pool path
      let others ← listFiles files withValues rest pool
      .ok (listing :: others)

def decode (machine : Machine) (options : DecodeOptions) : Except CommandFailure String := do
  let listings ← listFiles machine.files options.withValues options.paths {}
  .ok (if options.asJson then printed (.list (listings.map Listing.toValue))
    else String.join (listings.map Listing.text))

/-- The port of the configuration, unless the command line tells another; port zero means none. -/
def chosenPort (options : RunOptions) (config : ReportingConfig) : Option Nat :=
  match options.metricsPort with
  | none => config.metricsPort
  | some port => if port = 0 then none else some port

def pipelineConfig (options : RunOptions) (config : ReportingConfig) : PipelineConfig where
  reporting := config
  duration := if options.durationSeconds = 0 then none else some (options.durationSeconds * 1000)
  producers := options.producers
  rate := options.rate
  bufferCapacity := options.bufferCapacity

/-- Runs a pipeline. Without a duration, it ends when a shutdown is requested, in milliseconds. -/
def run (machine : Machine) (shutdown : Option Nat) (options : RunOptions) : Outcome :=
  match loadConfig machine.files options.configPath with
  | .error failure => ⟨"", machine.files, some failure⟩
  | .ok config =>
      let config := { config with metricsPort := chosenPort options config }
      if options.isDryRun then ⟨config.summary, machine.files, none⟩
      else if config.metricsPort.any machine.busyPorts.contains then
        ⟨"", machine.files, some .portBusy⟩
      else
        match Pipeline.run machine.network machine.host (pipelineConfig options config) shutdown
            machine.files with
        | .error failure => ⟨"", machine.files, some (.pipeline failure)⟩
        | .ok (stats, files) => ⟨stats.text, files, none⟩

def execute (machine : Machine) (shutdown : Option Nat) : Command → Outcome
  | .run options => machine.run shutdown options
  | .validate options => machine.validate options
  | .info options => .ofResult machine.files (machine.info options)
  | .decode options => .ofResult machine.files (machine.decode options)

end Machine

end MetricReporting
