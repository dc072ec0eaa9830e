import MetricReporting.Config.Basic
import MetricReporting.Text.Quoted

/-!
# Summaries of a configuration

The lines that several commands print about a configuration, and what a sender looks like in them.
-/
namespace MetricReporting

def SenderConfig.describe : SenderConfig → String
  | log => "Log"
  | udp address maxPacketSize =>
      "Udp \x7b addr: " ++ Text.quoted address ++ ", max_packet_size: " ++ toString maxPacketSize ++
        " \x7d"
  | file directory => "File \x7b dir: " ++ Text.quoted directory ++ " \x7d"

namespace ReportingConfig

def heading (config : ReportingConfig) : String :=
  "Endpoint: " ++ config.endpointName ++ "\n" ++ "Collector: " ++ config.metricsAddress ++ "\n" ++
    (match config.effectiveInstanceId with
      | none => ""
      | some id => "Instance: " ++ id ++ "\n") ++
    "Reporting interval: " ++ toString config.reportingIntervalMs ++ " ms\n" ++
    "Time to be received: " ++ toString config.timeToBeReceivedMs ++ " ms\n"

def summary (config : ReportingConfig) : String :=
  "\n=== Configuration Summary ===\n\n" ++ config.heading ++
    "\nReporter:\n" ++ "  Flush size: " ++ toString config.reporter.flushSize ++ "\n" ++
    "  Max flush size: " ++ toString config.reporter.maxFlushSize ++ "\n" ++
    "  Max parallel consumers: " ++ toString config.reporter.maxParallelConsumers ++ "\n" ++
    "\nSender: " ++ config.sender.describe ++ "\n" ++
    (match config.metricsPort with
      | none => ""
      | some port => "Prometheus port: " ++ toString port ++ "\n") ++
    "\n"

end ReportingConfig

end MetricReporting
