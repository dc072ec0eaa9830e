import MetricReporting.Ring.Consume
import MetricReporting.Ring.Write
import MetricReporting.TagTable
import MetricReporting.Telemetry

/-!
# Metric buffers

A metric buffer is the ring of one metric stream together with its tag table, so that every tag id
in the ring has a name. A value that finds the ring full on every attempt is dropped and counted.
-/
namespace MetricReporting

structure MetricBuffer where
  metricType : String
  ring : Ring
  tags : TagTable := {}
deriving Repr

namespace MetricBuffer

def ofCapacity (metricType : String) (capacity : Nat) (clock : Clock := {}) : MetricBuffer where
  metricType := metricType
  ring := Ring.ofCapacity capacity clock

instance : Inhabited MetricBuffer := ⟨ofCapacity "" Ring.defaultCapacity⟩

def recordId (buffer : MetricBuffer) (telemetry : Telemetry) (value : Int64) (id : Int32) :
    Bool × MetricBuffer × Telemetry :=
  let (accepted, ring) := buffer.ring.writeWithRetry value id
  let telemetry := if accepted then telemetry else telemetry.dropped buffer.metricType
  (accepted, { buffer with ring := ring }, telemetry)

/-- Appends a value under a tag, which is interned first and stays so if the value is dropped. -/
def record (buffer : MetricBuffer) (telemetry : Telemetry) (value : Int64) (tag : String) :
    Bool × MetricBuffer × Telemetry :=
  let (id, tags) := buffer.tags.intern tag
  { buffer with tags := tags }.recordId telemetry value id

def drain (buffer : MetricBuffer) (most : Nat) : List Entry × MetricBuffer :=
  let (entries, ring) := buffer.ring.consume most
  (entries, { buffer with ring := ring })

end MetricBuffer

end MetricReporting
