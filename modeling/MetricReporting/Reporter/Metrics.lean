/-!
# Metrics of one reporter

Counters in 64-bit words that wrap. A send is in flight from its start to its end, however it ends.
-/
namespace MetricReporting

structure ReporterMetrics where
  inFlight : UInt64 := 0
  maxInFlight : UInt64 := 0
  payloadsSent : UInt64 := 0
  entriesSent : UInt64 := 0
  bytesSent : UInt64 := 0
  entriesFlushed : UInt64 := 0
  failures : UInt64 := 0
  cancelled : UInt64 := 0
deriving DecidableEq, Repr, Inhabited

namespace ReporterMetrics

def sendStarted (metrics : ReporterMetrics) : ReporterMetrics :=
  let now := metrics.inFlight + 1
  { metrics with inFlight := now, maxInFlight := max metrics.maxInFlight now }

def sendFinished (metrics : ReporterMetrics) : ReporterMetrics :=
  { metrics with inFlight := metrics.inFlight - 1 }

def payloadSent (metrics : ReporterMetrics) (entries bytes : Nat) : ReporterMetrics :=
  { metrics with
    payloadsSent := metrics.payloadsSent + 1
    entriesSent := metrics.entriesSent + UInt64.ofNat entries
    bytesSent := metrics.bytesSent + UInt64.ofNat bytes }

def addFlushed (metrics : ReporterMetrics) (entries : Nat) : ReporterMetrics :=
  { metrics with entriesFlushed := metrics.entriesFlushed + UInt64.ofNat entries }

def sendFailed (metrics : ReporterMetrics) : ReporterMetrics :=
  { metrics with failures := metrics.failures + 1 }

def sendCancelled (metrics : ReporterMetrics) : ReporterMetrics :=
  { metrics with cancelled := metrics.cancelled + 1 }

end ReporterMetrics

end MetricReporting
