import MetricReporting.TimeSpan

/-!
# Probe events

Four probes watch an endpoint. Processing and critical time measure a message, a retry is an
occurrence for a message type, a queue length is a sample of one queue.
-/
namespace MetricReporting

inductive Probe
  | processingTime
  | criticalTime
  | retries
  | queueLength
deriving DecidableEq, Repr

namespace Probe

def all : List Probe :=
  [processingTime, criticalTime, retries, queueLength]

def name : Probe → String
  | processingTime => "Processing Time"
  | criticalTime => "Critical Time"
  | retries => "Retries"
  | queueLength => "Queue Length"

def kindName : Probe → String
  | processingTime | criticalTime => "DurationProbe"
  | retries => "SignalProbe"
  | queueLength => "QueueLengthProbe"

inductive Event
  | processed (duration : TimeSpan) (messageType : String)
  | delivered (duration : TimeSpan) (messageType : String)
  | retried (messageType : String)
  | queued (queue : String) (length : Int64)
deriving DecidableEq, Repr

namespace Event

def probe : Event → Probe
  | processed _ _ => .processingTime
  | delivered _ _ => .criticalTime
  | retried _ => .retries
  | queued _ _ => .queueLength

def value : Event → Int64
  | processed duration _ => duration.clampedMillis
  | delivered duration _ => duration.clampedMillis
  | retried _ => 1
  | queued _ length => length

def tag : Event → String
  | processed _ messageType => messageType
  | delivered _ messageType => messageType
  | retried messageType => messageType
  | queued queue _ => queue

end Event

end Probe

end MetricReporting
