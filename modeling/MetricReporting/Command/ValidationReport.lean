import MetricReporting.Config.Format
import MetricReporting.Json.Writer

/-!
# Validation reports

Whether a configuration file is accepted, and what is doubtful about an accepted one. Sizes are
computed in 64-bit words; one that does not fit ends the command.
-/
namespace MetricReporting

inductive ConfigWarning
  | splitFlushes (flushSize maxFlushSize : Nat)
  | oversizePayloads (bytes maxPacketSize : Nat)
  | noInstanceId
deriving DecidableEq, Repr

def ConfigWarning.message : ConfigWarning → String
  | splitFlushes flushSize maxFlushSize =>
      "reporter.flush_size (" ++ toString flushSize ++ ") exceeds reporter.max_flush_size (" ++
        toString maxFlushSize ++ ") - every flush is split into several payloads"
  | oversizePayloads bytes maxPacketSize =>
      "payloads of reporter.max_flush_size entries need about " ++ toString bytes ++
        " bytes, more than max_packet_size (" ++ toString maxPacketSize ++
        ") - they will be rejected"
  | noInstanceId => "instance_id is not set - the instance id header is omitted"

namespace ReportingConfig

/-- The bytes of a payload that do not depend on its entries. -/
def payloadHeaderBytes : Nat := 24

def payloadEntryBytes : Nat := 16

def payloadBytes? (entries : Nat) : Option Nat :=
  (some (payloadHeaderBytes + entries * payloadEntryBytes)).filter fun bytes =>
    decide (bytes < UInt64.size)

def packetWarnings? (config : ReportingConfig) : Option (List ConfigWarning) :=
  match config.sender with
  | .udp _ maxPacketSize =>
      (payloadBytes? config.reporter.maxFlushSize).map fun bytes =>
        if maxPacketSize < bytes then [.oversizePayloads bytes maxPacketSize] else []
  | _ => some []

def warnings? (config : ReportingConfig) : Option (List ConfigWarning) :=
  config.packetWarnings?.map fun packetWarnings =>
    let settings := config.reporter
    (if settings.maxFlushSize < settings.flushSize then
      [.splitFlushes settings.flushSize settings.maxFlushSize] else []) ++
    packetWarnings ++
    (if config.effectiveInstanceId = none then [.noInstanceId] else [])

end ReportingConfig

inductive Rejection
  | fileNotFound (path : String)
  | notLoaded (error : ReportingError)
deriving DecidableEq, Repr

def Rejection.message : Rejection → String
  | fileNotFound path => "File not found: " ++ path
  | notLoaded error => error.message

structure ValidationReport where
  path : String
  verdict : Except Rejection (ReportingConfig × List ConfigWarning)

namespace ValidationReport

def ofFile? (files : FileTree) (path : String) : Option ValidationReport :=
  if !files.contains path then some ⟨path, .error (.fileNotFound path)⟩
  else
    match ReportingConfig.loadFile ConfigFormat.layer files path with
    | .error error => some ⟨path, .error (.notLoaded error)⟩
    | .ok config => config.warnings?.map fun warnings => ⟨path, .ok (config, warnings)⟩

def isValid (report : ValidationReport) : Bool :=
  report.verdict.isOk

def text (report : ValidationReport) : String :=
  match report.verdict with
  | .error rejection =>
      "✗ Configuration is invalid: " ++ report.path ++ "\n\n  Error: " ++ rejection.message ++ "\n"
  | .ok (config, warnings) =>
      "✓ Configuration is valid: " ++ report.path ++ "\n" ++
        "\n  Endpoint: " ++ config.endpointName ++ "\n" ++
        "  Collector: " ++ config.metricsAddress ++ "\n" ++
        "  Sender: " ++ config.sender.kind ++ "\n" ++
        "  Reporting interval: " ++ toString config.reportingIntervalMs ++ " ms\n" ++
        "  Flush size: " ++ toString config.reporter.flushSize ++ " (max " ++
        toString config.reporter.maxFlushSize ++ ", " ++
        toString config.reporter.maxParallelConsumers ++ " parallel)\n" ++
        (if warnings = [] then ""
          else "\n⚠ Warnings:\n" ++
            String.join (warnings.map fun warning => "  - " ++ warning.message ++ "\n"))

def warningFields (warnings : List ConfigWarning) : List (String × Value) :=
  if warnings = [] then []
  else [("warnings", .list (warnings.map fun warning => .text warning.message))]

def summaryOf (config : ReportingConfig) : Value :=
  .record [("endpoint_name", .text config.endpointName),
    ("metrics_address", .text config.metricsAddress),
    ("sender", .text config.sender.kind),
    ("reporting_interval_ms", .integer config.reportingIntervalMs),
    ("flush_size", .integer config.reporter.flushSize),
    ("max_flush_size", .integer config.reporter.maxFlushSize),
    ("max_parallel_consumers", .integer config.reporter.maxParallelConsumers)]

def toValue (report : ValidationReport) : Value :=
  .record ([("valid", .boolean report.isValid), ("config_path", .text report.path)] ++
    match report.verdict with
    | .error rejection => [("error", .text rejection.message)]
    | .ok (config, warnings) => warningFields warnings ++ [("summary", summaryOf config)])

end ValidationReport

end MetricReporting
