import MetricReporting.Probe.Registry
import MetricReporting.Reporter.Drain
import MetricReporting.Statistics.Aggregate

/-!
# Synthetic producers

A producer emits one event per tick, four kinds in turn, the first tick at the start of the run.
Timers have a resolution of one millisecond, so a tick counts from the next full one on.
-/
namespace MetricReporting.Producer

def messageTypes : List String :=
  ["Sales.OrderPlaced", "Sales.OrderBilled", "Shipping.OrderShipped"]

def queues : List String :=
  ["Sales.Input", "Shipping.Input"]

def inTurn (names : List String) (n : Nat) : String :=
  names.getD (n % names.length) ""

def event (producer sequence : Nat) : Probe.Event :=
  let messageType := inTurn messageTypes (sequence + producer)
  match sequence % 4 with
  | 0 => .processed (TimeSpan.ofMillis (5 + sequence % 45)) messageType
  | 1 => .delivered (TimeSpan.ofMillis (20 + sequence % 180)) messageType
  | 2 => .retried messageType
  | _ => .queued (inTurn queues producer) (Int64.ofNat (sequence % 100))

/-- The nanoseconds between two ticks at a number of events per second. -/
def period (rate : Nat) : Nat :=
  max (1000000000 / min (max rate 1) (UInt32.size - 1)) 1000

def ticksBy (period millis : Nat) : Nat :=
  millis * DrainLoop.millisecond / period + 1

def statValue : Probe.Event → Float
  | .processed duration _ => Float.ofNat duration.toMillis
  | .delivered duration _ => Float.ofNat duration.toMillis
  | .retried _ => 1
  | .queued _ length => Float.ofInt length.toInt

structure Floor where
  registry : Registry
  aggregate : Aggregate Float := {}
  emitted : Nat := 0

namespace Floor

def observeAll (aggregate : Aggregate Float) (seen : List Sighting) : Aggregate Float :=
  seen.foldl (fun aggregate sighting =>
    aggregate.record sighting.event.probe.metricType (statValue sighting.event)) aggregate

def emit (floor : Floor) (event : Probe.Event) : Floor :=
  let (registry, seen) := floor.registry.signal event
  ⟨registry, observeAll floor.aggregate seen, floor.emitted + 1⟩

def emitFrom (producer : Nat) : Nat → Nat → Floor → Floor
  | _, 0, floor => floor
  | first, count + 1, floor =>
      emitFrom producer (first + 1) count (floor.emit (event producer first))

/-- The ticks that come due with the full millisecond `millis`, one producer after the other. -/
def produce (producers period millis : Nat) (floor : Floor) : Floor :=
  let before := if millis = 0 then 0 else ticksBy period (millis - 1)
  let due := ticksBy period millis - before
  (List.range producers).foldl (fun floor producer => emitFrom producer before due floor) floor

end Floor

end MetricReporting.Producer
