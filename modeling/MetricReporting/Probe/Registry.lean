import MetricReporting.MetricBuffer
import MetricReporting.Probe.Event
import MetricReporting.Text.Blank

/-!
# The probe registry

Every probe has a list of listeners, told of each of its events in the order in which they joined:
observers, which see the event, and buffers, which record its value. Attaching buffers adds one
buffer for each probe.
-/
namespace MetricReporting

def metricTypeName (probeName : String) : String :=
  Text.withoutBlanks probeName

def Probe.metricType (probe : Probe) : String :=
  metricTypeName probe.name

inductive Listener
  | observer (name : String)
  | buffer (number : Nat)
deriving DecidableEq, Repr

structure Sighting where
  observer : String
  event : Probe.Event
deriving DecidableEq, Repr

structure Registry where
  listeners : Probe → List Listener := fun _ => []
  buffers : Array MetricBuffer := #[]
  telemetry : Telemetry := {}

instance : Inhabited Registry := ⟨{}⟩

namespace Registry

def listen (registry : Registry) (probe : Probe) (listener : Listener) : Registry :=
  { registry with
    listeners := fun p =>
      if p = probe then registry.listeners p ++ [listener] else registry.listeners p }

def observe (registry : Registry) (name : String) : Registry :=
  Probe.all.foldl (fun registry probe => registry.listen probe (.observer name)) registry

def attachFor (capacity : Nat) (clock : Clock) (registry : Registry) (probe : Probe) : Registry :=
  { registry with
    buffers := registry.buffers.push (MetricBuffer.ofCapacity probe.metricType capacity clock)
  }.listen probe (.buffer registry.buffers.size)

def attach (registry : Registry) (capacity : Nat) (clock : Clock := {}) : Registry :=
  Probe.all.foldl (attachFor capacity clock) registry

def recordIn (registry : Registry) (number : Nat) (value : Int64) (tag : String) : Registry :=
  match registry.buffers[number]? with
  | none => registry
  | some buffer =>
      let (_, buffer, telemetry) := buffer.record registry.telemetry value tag
      { registry with
        buffers := registry.buffers.setIfInBounds number buffer
        telemetry := telemetry }

def notify (event : Probe.Event) (state : Registry × List Sighting) (listener : Listener) :
    Registry × List Sighting :=
  match listener with
  | .observer name => (state.1, state.2 ++ [⟨name, event⟩])
  | .buffer number => (state.1.recordIn number event.value event.tag, state.2)

def signal (registry : Registry) (event : Probe.Event) : Registry × List Sighting :=
  (registry.listeners event.probe).foldl (notify event) (registry, [])

def signalTimes (event : Probe.Event) : Nat → Registry → Registry
  | 0, registry => registry
  | count + 1, registry => signalTimes event count (registry.signal event).1

def drain (registry : Registry) (number most : Nat) : Option (List Entry × Registry) :=
  match registry.buffers[number]? with
  | none => none
  | some buffer =>
      let (entries, buffer) := buffer.drain most
      some (entries, { registry with buffers := registry.buffers.setIfInBounds number buffer })

def partName : Probe → String
  | .processingTime => "processing_time"
  | .criticalTime => "critical_time"
  | .retries => "retries"
  | .queueLength => "queue_length"

def describePart (registry : Registry) (probe : Probe) : String :=
  partName probe ++ ": " ++ probe.kindName ++ " \x7b name: \"" ++ probe.name ++ "\", observers: " ++
    toString (registry.listeners probe).length ++ " \x7d"

def describe (registry : Registry) : String :=
  "ProbeRegistry \x7b " ++ String.intercalate ", " (Probe.all.map registry.describePart) ++ " \x7d"

end Registry

end MetricReporting
