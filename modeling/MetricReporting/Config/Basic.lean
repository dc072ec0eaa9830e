import MetricReporting.TimeSpan

/-!
# Reporting configuration

Who reports, to whom, how often, and how the payloads leave the process.
-/
namespace MetricReporting

structure ReporterSettings where
  /-- Entries buffered before the drain loop wakes up. -/
  flushSize : Nat := 2048
  /-- Entries in one payload at most. -/
  maxFlushSize : Nat := 4096
  maxParallelConsumers : Nat := 3
deriving DecidableEq, Repr, Inhabited

inductive SenderConfig
  | log
  | udp (address : String) (maxPacketSize : Nat)
  | file (directory : String)
deriving DecidableEq, Repr, Inhabited

namespace SenderConfig

def kind : SenderConfig → String
  | log => "log"
  | udp _ _ => "udp"
  | file _ => "file"

def defaultMaxPacketSize : Nat := 65000

end SenderConfig

structure ReportingConfig where
  endpointName : String
  metricsAddress : String
  instanceId : Option String := none
  reportingIntervalMs : Nat := 10000
  timeToBeReceivedMs : Nat := 7 * 24 * 60 * 60 * 1000
  reporter : ReporterSettings := {}
  sender : SenderConfig := .log
  metricsPort : Option Nat := none
deriving DecidableEq, Repr, Inhabited

namespace ReportingConfig

def reportingInterval (config : ReportingConfig) : TimeSpan :=
  TimeSpan.ofMillis config.reportingIntervalMs

def timeToBeReceived (config : ReportingConfig) : TimeSpan :=
  TimeSpan.ofMillis config.timeToBeReceivedMs

def effectiveInstanceId (config : ReportingConfig) : Option String :=
  config.instanceId.filter fun id => !id.isEmpty

end ReportingConfig

end MetricReporting
