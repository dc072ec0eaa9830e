import MetricReporting.Keyed

/-!
# Telemetry of the pipeline itself

The pipeline reports its own doings to whoever collects them: counters, the depth of each buffer
and the size of each payload sent, all kept per metric type.
-/
namespace MetricReporting

inductive Telemetry.Counter
  | payloadsSent
  | entriesFlushed
  | payloadFailures
  | bufferDropped
deriving DecidableEq, Repr

namespace Telemetry.Counter

def name : Counter → String
  | payloadsSent => "metrics_reporter_payloads_sent_total"
  | entriesFlushed => "metrics_reporter_entries_flushed_total"
  | payloadFailures => "metrics_reporter_payload_failures_total"
  | bufferDropped => "metrics_reporter_buffer_dropped_total"

end Telemetry.Counter

structure Telemetry where
  counters : List ((Telemetry.Counter × String) × Nat) := []
  depths : List (String × Nat) := []
  payloadBytes : List (String × List Nat) := []
deriving DecidableEq, Repr, Inhabited

namespace Telemetry

def depthName : String := "metrics_reporter_buffer_depth"

def payloadBytesName : String := "metrics_reporter_payload_bytes"

def labelled (name metricType : String) : String :=
  name ++ "\x7bmetric_type=" ++ metricType ++ "\x7d"

def count (telemetry : Telemetry) (counter : Counter) (metricType : String) : Nat :=
  (Keyed.find? (counter, metricType) telemetry.counters).getD 0

def add (telemetry : Telemetry) (counter : Counter) (metricType : String) (n : Nat) : Telemetry :=
  { telemetry with
    counters := Keyed.adjust (counter, metricType) (fun old => old.getD 0 + n) telemetry.counters }

def dropped (telemetry : Telemetry) (metricType : String) : Telemetry :=
  telemetry.add .bufferDropped metricType 1

def depth (telemetry : Telemetry) (metricType : String) (entries : Nat) : Telemetry :=
  { telemetry with depths := Keyed.adjust metricType (fun _ => entries) telemetry.depths }

def failed (telemetry : Telemetry) (metricType : String) : Telemetry :=
  telemetry.add .payloadFailures metricType 1

def sent (telemetry : Telemetry) (metricType : String) (bytes entries : Nat) : Telemetry :=
  let counted := (telemetry.add .payloadsSent metricType 1).add .entriesFlushed metricType entries
  { counted with
    payloadBytes :=
      Keyed.adjust metricType (fun old => old.getD [] ++ [bytes]) counted.payloadBytes }

theorem count_add_self (telemetry : Telemetry) (counter : Counter) (metricType : String) (n : Nat) :
    (telemetry.add counter metricType n).count counter metricType =
      telemetry.count counter metricType + n := by
  simp [count, add, Keyed.find?_adjust_self]

theorem count_add_other (telemetry : Telemetry) {counter other : Counter}
    {metricType label : String}
    (hne : (other, label) ≠ (counter, metricType)) (n : Nat) :
    (telemetry.add counter metricType n).count other label = telemetry.count other label := by
  rw [count, add, Keyed.find?_adjust_other hne, count]

end Telemetry

end MetricReporting
