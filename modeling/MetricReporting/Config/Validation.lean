import MetricReporting.Config.Basic
import MetricReporting.Config.SocketAddress
import MetricReporting.ReportingError
import MetricReporting.Text.Blank
import MetricReporting.Ticks

/-!
# Which configurations are accepted

Names must not be blank, times and sizes must be positive, an interval must be so short that the
distance of two ticks in it fits 32 bits, and a sender must say where to. The first rule broken is
the one reported.
-/
namespace MetricReporting

def maxReportingIntervalMs : Nat :=
  Int32.maxValue.toInt.toNat / Ticks.perMillisecond.toInt.toNat

inductive ConfigFault
  | blankEndpointName
  | blankMetricsAddress
  | zeroInterval
  | longInterval
  | zeroTimeToBeReceived
  | zeroFlushSize
  | zeroMaxFlushSize
  | zeroParallelConsumers
  | badAddress (address : String)
  | zeroPacketSize
  | emptyDirectory
deriving DecidableEq, Repr

namespace ConfigFault

def field : ConfigFault → String
  | blankEndpointName => "endpoint_name"
  | blankMetricsAddress => "metrics_address"
  | zeroInterval | longInterval => "reporting_interval_ms"
  | zeroTimeToBeReceived => "time_to_be_received_ms"
  | zeroFlushSize => "reporter.flush_size"
  | zeroMaxFlushSize => "reporter.max_flush_size"
  | zeroParallelConsumers => "reporter.max_parallel_consumers"
  | badAddress _ => "sender.addr"
  | zeroPacketSize => "sender.max_packet_size"
  | emptyDirectory => "sender.dir"

def detail (fault : ConfigFault) : String :=
  match fault with
  | blankEndpointName | blankMetricsAddress => fault.field ++ " cannot be empty"
  | zeroInterval | zeroTimeToBeReceived => fault.field ++ " must be > 0"
  | longInterval => fault.field ++ " must be <= " ++ toString maxReportingIntervalMs
  | zeroFlushSize | zeroMaxFlushSize | zeroParallelConsumers => fault.field ++ " must be >= 1"
  | badAddress address => "invalid UDP address '" ++ address ++ "': invalid socket address syntax"
  | zeroPacketSize => "max_packet_size must be > 0"
  | emptyDirectory => "file sender dir cannot be empty"

def toError (fault : ConfigFault) : ReportingError :=
  .configValidation fault.field fault.detail

end ConfigFault

namespace ReportingConfig

def senderFault? : SenderConfig → Option ConfigFault
  | .log => none
  | .udp address maxPacketSize =>
      if !SocketAddress.isValid address then some (.badAddress address)
      else if maxPacketSize = 0 then some .zeroPacketSize
      else none
  | .file directory => if directory = "" then some .emptyDirectory else none

def fault? (config : ReportingConfig) : Option ConfigFault :=
  if Text.allBlank config.endpointName then some .blankEndpointName
  else if Text.allBlank config.metricsAddress then some .blankMetricsAddress
  else if config.reportingIntervalMs = 0 then some .zeroInterval
  else if maxReportingIntervalMs < config.reportingIntervalMs then some .longInterval
  else if config.timeToBeReceivedMs = 0 then some .zeroTimeToBeReceived
  else if config.reporter.flushSize = 0 then some .zeroFlushSize
  else if config.reporter.maxFlushSize = 0 then some .zeroMaxFlushSize
  else if config.reporter.maxParallelConsumers = 0 then some .zeroParallelConsumers
  else senderFault? config.sender

def validate (config : ReportingConfig) : Except ReportingError Unit :=
  match config.fault? with
  | none => .ok ()
  | some fault => .error fault.toError

theorem validate_eq_ok_iff (config : ReportingConfig) :
    config.validate = .ok () ↔ config.fault? = none := by
  unfold validate
  cases config.fault? <;> simp

end ReportingConfig

end MetricReporting
