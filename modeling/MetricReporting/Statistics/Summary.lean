import MetricReporting.Decimal.Fixed
import MetricReporting.Statistics.Aggregate

/-!
# Summaries in words

The statistics of a run as they are printed, with three places.
-/
namespace MetricReporting

def summaryPlaces : Nat := 3

def RunningStats.text (stats : RunningStats Float) : String :=
  if stats.count = 0 then "N/A"
  else
    "min=" ++ Decimal.fixed summaryPlaces stats.smallest ++
      ", max=" ++ Decimal.fixed summaryPlaces stats.largest ++
      ", mean=" ++ Decimal.fixed summaryPlaces stats.mean ++
      ", std=" ++ Decimal.fixed summaryPlaces stats.deviation ++
      " (n=" ++ toString stats.count ++ ")"

def Aggregate.metricLine (pair : String × RunningStats Float) : String :=
  "  " ++ pair.1 ++ ": " ++ pair.2.text ++ "\n"

def Aggregate.text (aggregate : Aggregate Float) : String :=
  "=== Reporting Summary ===\n" ++
    "Total values: " ++ toString aggregate.total ++ "\n" ++
    "Dropped values: " ++ toString aggregate.dropped ++ "\n" ++
    String.join (aggregate.perMetric.map metricLine)

end MetricReporting
