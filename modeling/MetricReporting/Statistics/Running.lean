import MetricReporting.Statistics.Number

/-!
# Running statistics

Count, mean, extremes and the sum of squared distances from the mean, all updated with one value at
a time. The first value sets everything.
-/
namespace MetricReporting

structure RunningStats (α : Type) where
  count : Nat
  mean : α
  /-- The sum of squared distances from the mean. -/
  squares : α
  smallest : α
  largest : α
deriving Repr

namespace RunningStats

variable {α : Type} [StatNumber α]

def empty : RunningStats α :=
  ⟨0, StatNumber.zero, StatNumber.zero, StatNumber.zero, StatNumber.zero⟩

instance : Inhabited (RunningStats α) := ⟨empty⟩

def push (stats : RunningStats α) (value : α) : RunningStats α :=
  if stats.count = 0 then ⟨1, value, StatNumber.zero, value, value⟩
  else
    let count := stats.count + 1
    let delta := StatNumber.sub value stats.mean
    let mean := StatNumber.add stats.mean (StatNumber.div delta (StatNumber.ofCount count))
    let squares := StatNumber.add stats.squares (StatNumber.mul delta (StatNumber.sub value mean))
    ⟨count, mean, squares, StatNumber.smaller stats.smallest value,
      StatNumber.larger stats.largest value⟩

def variance (stats : RunningStats α) : α :=
  if stats.count < 2 then StatNumber.zero
  else StatNumber.div stats.squares (StatNumber.ofCount (stats.count - 1))

def ofList (values : List α) : RunningStats α :=
  values.foldl push empty

theorem push_count (stats : RunningStats α) (value : α) :
    (stats.push value).count = stats.count + 1 := by
  unfold push
  split
  · next h => simp [h]
  · rfl

end RunningStats

def RunningStats.deviation (stats : RunningStats Float) : Float :=
  stats.variance.sqrt

end MetricReporting
