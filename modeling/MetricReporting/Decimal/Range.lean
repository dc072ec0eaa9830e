import MetricReporting.Decimal.Fixed

/-!
# Decimal numbers beyond the range of floats

A decimal number is given by its digits and a power of ten. It is too large if the nearest 64-bit
float would be infinite, that is, from half a unit above the largest finite one on. A reader that
only scales a float by a power of ten may find infinity where this is not so, and the other way
round.
-/
namespace MetricReporting.Decimal

/-- The least number that rounds to no finite 64-bit float. -/
def infiniteFrom : Nat := (1 <<< 1024) - (1 <<< 970)

def mostPlaces : Int := 310

/-- Whether `digits * 10 ^ scale` is too large. Numbers far out are told by their places. -/
def tooLarge (digits : Nat) (scale : Int) : Bool :=
  let places := ((toString digits).length : Int) + scale
  if digits = 0 then false
  else if mostPlaces < places then true
  else if places < mostPlaces - 10 then false
  else if 0 ≤ scale then decide (infiniteFrom ≤ digits * Nat.pow 10 scale.toNat)
  else decide (infiniteFrom * Nat.pow 10 (-scale).toNat ≤ digits)

/-! ## Scaling -/

def significantBits : Nat := 53

/-- The float nearest to a natural number, if it is finite; a half goes to the even neighbour. -/
def nearest (n : Nat) : Nat :=
  let unit := 1 <<< (Nat.log2 n + 1 - significantBits)
  roundDiv n unit * unit

/-- Appends digits to a number as long as it fits a 64-bit word, and counts those left over. -/
def appendDigits (number : Nat) : List Nat → Nat × Nat
  | [] => (number, 0)
  | digit :: rest =>
      let longer := number * 10 + digit
      if longer < UInt64.size then appendDigits longer rest else (number, rest.length + 1)

def mostScale : Int := 308

/-- Whether a number is infinite when the float of its leading digits, as many as fit a 64-bit
word, is scaled by the float of a power of ten. -/
def scalesTooFar (whole places : List Nat) (power : Int) : Bool :=
  let (number, skipped) := appendDigits 0 whole
  let (number, left) := appendDigits number places
  let scale := power + skipped - (places.length - left : Nat)
  if number = 0 ∨ scale < 0 then false
  else if mostScale < scale then true
  else decide (infiniteFrom ≤ nearest number * nearest (Nat.pow 10 scale.toNat))

end MetricReporting.Decimal
