import MetricReporting.Config.Basic

/-!
# Settings of a drain loop

How many entries wake the loop up, how many go into one payload, how long the loop waits at most,
and how many sends run at the same time. Counts of zero mean one.
-/
namespace MetricReporting

structure DrainSettings where
  flushSize : Nat := 2048
  maxFlushSize : Nat := 4096
  maxParallel : Nat := 3
  /-- The longest wait for entries, in nanoseconds. -/
  maxSpinning : Nat := 10000000000
deriving DecidableEq, Repr, Inhabited

namespace DrainSettings

def ofConfig (settings : ReporterSettings) (interval : TimeSpan) : DrainSettings where
  flushSize := settings.flushSize
  maxFlushSize := settings.maxFlushSize
  maxParallel := settings.maxParallelConsumers
  maxSpinning := interval.toNanoseconds

def normalized (settings : DrainSettings) : DrainSettings :=
  { settings with
    flushSize := max settings.flushSize 1
    maxFlushSize := max settings.maxFlushSize 1
    maxParallel := max settings.maxParallel 1 }

theorem normalized_maxFlushSize_pos (settings : DrainSettings) :
    0 < settings.normalized.maxFlushSize :=
  Nat.lt_of_lt_of_le Nat.zero_lt_one (Nat.le_max_right _ _)

end DrainSettings

end MetricReporting
