import MetricReporting.Command.Summary
import MetricReporting.Config.Value
import MetricReporting.Probe.Registry
import MetricReporting.Sender.Envelope

/-!
# Overviews of a configuration

What will be reported under a configuration: to whom, which metric types, and with which headers.
-/
namespace MetricReporting

structure Overview where
  config : ReportingConfig
  metricTypes : List String
  headers : Headers

namespace Overview

def ofConfig (config : ReportingConfig) (host : HostInformation) (withHeaders : Bool) :
    Overview where
  config := config
  metricTypes := Probe.all.map fun probe => metricTypeName probe.name
  headers :=
    if withHeaders then
      (Headers.identifying config host).set Headers.contentType Headers.taggedContent
    else []

def text (overview : Overview) : String :=
  "\n=== Reporting Configuration ===\n\n" ++ overview.config.heading ++
    "Sender: " ++ overview.config.sender.describe ++ "\n" ++
    "\nMetric types (" ++ toString overview.metricTypes.length ++ "):\n" ++
    String.join (overview.metricTypes.map fun name => "  - " ++ name ++ "\n") ++
    (if overview.headers = [] then ""
      else "\nHeaders (plus " ++ Headers.metricType ++ " per metric type):\n" ++
        String.join (overview.headers.map fun (name, value) =>
          "  " ++ name ++ ": " ++ value ++ "\n")) ++
    "\n"

def instanceFields (config : ReportingConfig) : List (String × Value) :=
  match config.effectiveInstanceId with
  | none => []
  | some id => [("instance_id", .text id)]

def headerFields (headers : Headers) : List (String × Value) :=
  if headers = [] then []
  else [("headers", .record (headers.map fun (name, value) => (name, .text value)))]

def toValue (overview : Overview) : Value :=
  let config := overview.config
  .record ([("endpoint_name", .text config.endpointName),
      ("metrics_address", .text config.metricsAddress)] ++ instanceFields config ++
    [("reporting_interval_ms", .integer config.reportingIntervalMs),
      ("time_to_be_received_ms", .integer config.timeToBeReceivedMs),
      ("sender", .text config.sender.describe),
      ("metric_types", .list (overview.metricTypes.map .text))] ++
    headerFields overview.headers)

end Overview

end MetricReporting
