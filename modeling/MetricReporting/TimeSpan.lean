import MetricReporting.Ticks

/-!
# Time spans

A span of time in whole seconds and the nanoseconds beyond them.
-/
namespace MetricReporting

structure TimeSpan where
  seconds : Nat
  /-- Less than one second. -/
  nanoseconds : Nat
deriving DecidableEq, Repr, Inhabited

namespace TimeSpan

def toNanoseconds (span : TimeSpan) : Nat :=
  span.seconds * 1000000000 + span.nanoseconds

def ofNanoseconds (nanoseconds : Nat) : TimeSpan :=
  ⟨nanoseconds / 1000000000, nanoseconds % 1000000000⟩

def ofMillis (millis : Nat) : TimeSpan :=
  ofNanoseconds (millis * 1000000)

def toMillis (span : TimeSpan) : Nat :=
  span.toNanoseconds / 1000000

/-- Whole milliseconds as a word, the largest word standing for all beyond it. -/
def clampedMillis (span : TimeSpan) : Int64 :=
  Int64.ofNat (min span.toMillis Int64.maxValue.toInt.toNat)

theorem toNanoseconds_ofNanoseconds (nanoseconds : Nat) :
    (ofNanoseconds nanoseconds).toNanoseconds = nanoseconds := by
  simp only [ofNanoseconds, toNanoseconds]
  omega

end TimeSpan

end MetricReporting
