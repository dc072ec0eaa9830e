/-!
# Moments in ticks

Ticks count units of 100 ns since 0001-01-01T00:00:00 UTC and are held in one signed 64-bit word.
A clock is read one moment at a time; a scripted clock moves on by a fixed step at every reading.
-/
namespace MetricReporting

namespace Ticks

def perMillisecond : Int64 := 10000

def perSecond : Int64 := 1000 * perMillisecond

def unixEpoch : Int64 := 621355968000000000

/-- The whole ticks of a time span, as the low 64 bits of their number. -/
def ofNanoseconds (nanoseconds : Nat) : Int64 :=
  Int64.ofNat (nanoseconds / 100)

def afterEpoch (nanoseconds : Nat) : Int64 :=
  unixEpoch + ofNanoseconds nanoseconds

/-- The moment a time span before the first moment of 1970: earlier moments count as that one. -/
def beforeEpoch (_nanoseconds : Nat) : Int64 :=
  unixEpoch

def Representable (n : Int) : Prop :=
  Int64.minValue.toInt ≤ n ∧ n ≤ Int64.maxValue.toInt

instance (n : Int) : Decidable (Representable n) :=
  inferInstanceAs (Decidable (_ ∧ _))

theorem representable_iff {n : Int} :
    Representable n ↔ -9223372036854775808 ≤ n ∧ n < 9223372036854775808 := by
  rw [Representable, Int64.toInt_minValue, Int64.toInt_maxValue]
  omega

theorem Representable.toInt_ofInt {n : Int} (h : Representable n) : (Int64.ofInt n).toInt = n :=
  Int64.toInt_ofInt_of_le (representable_iff.1 h).1 (representable_iff.1 h).2

theorem representable_toInt (word : Int64) : Representable word.toInt :=
  representable_iff.2 ⟨word.le_toInt, word.toInt_lt⟩

/-- Whole milliseconds since 1970, toward zero. Moments so early that their distance from 1970 is
no word have none. -/
def toUnixMillis? (ticks : Int64) : Option Int64 :=
  let distance := ticks.toInt - unixEpoch.toInt
  if Representable distance then some (Int64.ofInt (distance.tdiv perMillisecond.toInt)) else none

end Ticks

/-- A clock that shows `now` and then moves on by `step`, wrapping at the ends of the word. -/
structure Clock where
  now : Int64 := 1
  step : Int64 := 1
deriving DecidableEq, Repr, Inhabited

namespace Clock

def read (clock : Clock) : Int64 × Clock :=
  (clock.now, { clock with now := clock.now + clock.step })

end Clock

end MetricReporting
