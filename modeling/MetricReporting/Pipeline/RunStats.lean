import MetricReporting.Reporter.Metrics
import MetricReporting.Statistics.Summary
import MetricReporting.TimeSpan

/-!
# Statistics of a run

How long a pipeline ran, what its producers emitted and what its reporters delivered, as it is
printed at the end.
-/
namespace MetricReporting

structure RunStats where
  duration : TimeSpan
  producers : Nat
  eventsEmitted : Nat
  summary : Aggregate Float
  reporters : List (String × ReporterMetrics)

namespace RunStats

def toSeconds (span : TimeSpan) : Float :=
  Float.ofNat span.seconds + Float.ofNat span.nanoseconds / 1000000000

def eventsPerSecond (stats : RunStats) : Float :=
  let seconds := toSeconds stats.duration
  if 0 < seconds then Float.ofNat stats.eventsEmitted / seconds else 0

def entriesSent (stats : RunStats) : UInt64 :=
  stats.reporters.foldl (fun total pair => total + pair.2.entriesSent) 0

def ratePlaces : Nat := 2

def reporterLine (pair : String × ReporterMetrics) : String :=
  "   ├─ " ++ pair.1 ++ ": payloads=" ++ toString pair.2.payloadsSent ++
    " entries=" ++ toString pair.2.entriesSent ++ " bytes=" ++ toString pair.2.bytesSent ++
    " failures=" ++ toString pair.2.failures ++ " cancelled=" ++ toString pair.2.cancelled ++
    " max_in_flight=" ++ toString pair.2.maxInFlight ++ "\n"

def text (stats : RunStats) : String :=
  "\n=== Run Statistics ===\n\n" ++ "Overview\n" ++
    "   ├─ Duration: " ++ Decimal.fixed ratePlaces (toSeconds stats.duration) ++ "s\n" ++
    "   ├─ Producers: " ++ toString stats.producers ++ "\n" ++
    "   ├─ Events emitted: " ++ toString stats.eventsEmitted ++ "\n" ++
    "   ├─ Events/s: " ++ Decimal.fixed ratePlaces stats.eventsPerSecond ++ "\n" ++
    "   └─ Entries sent: " ++ toString stats.entriesSent ++ "\n" ++
    "\nReporters\n" ++ String.join (stats.reporters.map reporterLine) ++
    "\n" ++ stats.summary.text ++ "\n"

end RunStats

end MetricReporting
