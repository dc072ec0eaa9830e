import MetricReporting.Config.Basic
import MetricReporting.Config.Value

/-!
# Configurations as trees

How a configuration is laid out in a file: which names its fields have there, which of them may be
missing, and which of its parts may also be written as a list. A sender is a record that tells its
kind in one field, or a list that begins with its kind. The lists of some formats may have items to
spare, but never that of a sender.
-/
namespace MetricReporting

open Value (wordBound portBound)

namespace ReporterSettings

def fieldNames : List String := ["flush_size", "max_flush_size", "max_parallel_consumers"]

def toValue (settings : ReporterSettings) : Value :=
  .record [("flush_size", .integer settings.flushSize),
    ("max_flush_size", .integer settings.maxFlushSize),
    ("max_parallel_consumers", .integer settings.maxParallelConsumers)]

def ofValue? (spare : Bool) (value : Value) : Option ReporterSettings := do
  let fields ← Fields.ofValue? spare fieldNames value
  let default : ReporterSettings := {}
  let count := Value.natural? wordBound
  let flushSize ← fields.optional "flush_size" count default.flushSize
  let maxFlushSize ← fields.optional "max_flush_size" count default.maxFlushSize
  let maxParallel ← fields.optional "max_parallel_consumers" count default.maxParallelConsumers
  some ⟨flushSize, maxFlushSize, maxParallel⟩

end ReporterSettings

namespace SenderConfig

def kindField : String := "kind"

def toValue : SenderConfig → Value
  | log => .record [(kindField, .text "log")]
  | udp address maxPacketSize =>
      .record [(kindField, .text "udp"), ("addr", .text address),
        ("max_packet_size", .integer maxPacketSize)]
  | file directory => .record [(kindField, .text "file"), ("dir", .text directory)]

def kindAndRest? : Value → Option (String × Value)
  | .record fields =>
      match fields.filter fun field => field.1 == kindField with
      | [(_, .text kind)] =>
          some (kind, .record (fields.filter fun field => field.1 != kindField))
      | _ => none
  | .list (.text kind :: rest) => some (kind, .list rest)
  | _ => none

/-- A sender is read as a whole, also in the fields that it does not know. -/
def ofValue? (value : Value) : Option SenderConfig := do
  let (kind, rest) ← kindAndRest? value
  if !rest.isReadable then none
  else
    match kind with
    | "log" =>
        match rest with
        | .list (_ :: _) => none
        | _ => some log
    | "udp" =>
        let fields ← Fields.ofValue? false ["addr", "max_packet_size"] rest
        let address ← fields.required "addr" Value.text?
        let maxPacketSize ←
          fields.optional "max_packet_size" (Value.natural? wordBound) defaultMaxPacketSize
        some (udp address maxPacketSize)
    | "file" =>
        let fields ← Fields.ofValue? false ["dir"] rest
        let directory ← fields.required "dir" Value.text?
        some (file directory)
    | _ => none

end SenderConfig

namespace ReportingConfig

def fieldNames : List String :=
  ["endpoint_name", "metrics_address", "instance_id", "reporting_interval_ms",
    "time_to_be_received_ms", "reporter", "sender", "metrics_port"]

def nullOr {α : Type} (toValue : α → Value) : Option α → Value
  | none => .null
  | some a => toValue a

/-- The fields of a configuration in the order of their declaration, null where one is not set. -/
def toFields (config : ReportingConfig) : List (String × Value) :=
  [("endpoint_name", .text config.endpointName),
    ("metrics_address", .text config.metricsAddress),
    ("instance_id", nullOr .text config.instanceId),
    ("reporting_interval_ms", .integer config.reportingIntervalMs),
    ("time_to_be_received_ms", .integer config.timeToBeReceivedMs),
    ("reporter", config.reporter.toValue),
    ("sender", config.sender.toValue),
    ("metrics_port", nullOr (fun port : Nat => .integer port) config.metricsPort)]

def toValue (config : ReportingConfig) : Value :=
  .record config.toFields

def ofValue? (spare : Bool) (value : Value) : Option ReportingConfig := do
  let fields ← Fields.ofValue? spare fieldNames value
  let endpointName ← fields.required "endpoint_name" Value.text?
  let metricsAddress ← fields.required "metrics_address" Value.text?
  let default : ReportingConfig :=
    { endpointName := endpointName, metricsAddress := metricsAddress }
  let count := Value.natural? wordBound
  let instanceId ←
    fields.optional "instance_id" (Value.nullable? Value.text?) default.instanceId
  let reportingIntervalMs ←
    fields.optional "reporting_interval_ms" count default.reportingIntervalMs
  let timeToBeReceivedMs ←
    fields.optional "time_to_be_received_ms" count default.timeToBeReceivedMs
  let reporter ← fields.optional "reporter" (ReporterSettings.ofValue? spare) default.reporter
  let sender ← fields.optional "sender" SenderConfig.ofValue? default.sender
  let metricsPort ←
    fields.optional "metrics_port" (Value.nullable? (Value.natural? portBound)) default.metricsPort
  some ⟨endpointName, metricsAddress, instanceId, reportingIntervalMs, timeToBeReceivedMs,
    reporter, sender, metricsPort⟩

end ReportingConfig

end MetricReporting
