import MetricReporting.Keyed
import MetricReporting.Statistics.Running

/-!
# Statistics per metric type

Values are gathered per metric type, in ascending order of the types, beside the number of values
that were dropped.
-/
namespace MetricReporting

structure Aggregate (α : Type) where
  perMetric : List (String × RunningStats α) := []
  dropped : Nat := 0
deriving Repr

namespace Aggregate

variable {α : Type} [StatNumber α]

instance : Inhabited (Aggregate α) := ⟨{}⟩

def record (aggregate : Aggregate α) (metricType : String) (value : α) : Aggregate α :=
  { aggregate with
    perMetric :=
      Keyed.adjustAscending (fun a b => decide (a < b)) metricType
        (fun old => (old.getD RunningStats.empty).push value) aggregate.perMetric }

def recordDropped (aggregate : Aggregate α) (count : Nat) : Aggregate α :=
  { aggregate with dropped := aggregate.dropped + count }

def reset (_aggregate : Aggregate α) : Aggregate α :=
  {}

def total (aggregate : Aggregate α) : Nat :=
  (aggregate.perMetric.map fun pair => pair.2.count).foldr (· + ·) 0

end Aggregate

end MetricReporting
