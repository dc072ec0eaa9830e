import MetricReporting.Text.Digits

/-!
# Numbers with a fixed number of places

A binary64 number is a sign and a natural number times a power of two, and is written with a fixed
number of decimal places, rounded to nearest; a half goes to the even neighbour. Main statement: the
rounded quotient is within half a unit of the exact one.
-/
namespace MetricReporting.Decimal

def roundDiv (numerator denominator : Nat) : Nat :=
  let quotient := numerator / denominator
  let twice := 2 * (numerator % denominator)
  if twice < denominator then quotient
  else if denominator < twice then quotient + 1
  else if quotient % 2 = 0 then quotient
  else quotient + 1

theorem roundDiv_near (numerator : Nat) {denominator : Nat} (h : 0 < denominator) :
    2 * (roundDiv numerator denominator * denominator) ≤ 2 * numerator + denominator ∧
      2 * numerator ≤ 2 * (roundDiv numerator denominator * denominator) + denominator := by
  have hdiv := Nat.div_add_mod numerator denominator
  have hmod := Nat.mod_lt numerator h
  rw [Nat.mul_comm] at hdiv
  have hup : (numerator / denominator + 1) * denominator =
      numerator / denominator * denominator + denominator := by
    rw [Nat.add_mul, Nat.one_mul]
  simp only [roundDiv]
  split
  · omega
  · split
    · omega
    · split
      · omega
      · omega

inductive Binary
  | notANumber
  | infinite (negative : Bool)
  /-- The number `mantissa * 2 ^ exponent`. -/
  | finite (negative : Bool) (mantissa : Nat) (exponent : Int)
deriving DecidableEq, Repr

def Binary.ofBits (bits : UInt64) : Binary :=
  let negative := bits >>> 63 != 0
  let biased := (bits >>> 52 &&& 0x7ff).toNat
  let fraction := (bits &&& 0xfffffffffffff).toNat
  if biased = 0x7ff then (if fraction = 0 then infinite negative else notANumber)
  else if biased = 0 then finite negative fraction (-1074)
  else finite negative (0x10000000000000 + fraction) (Int.ofNat biased - 1075)

def scaled (places mantissa : Nat) : Int → Nat
  | .ofNat n => (mantissa <<< n) * Nat.pow 10 places
  | .negSucc n => roundDiv (mantissa * Nat.pow 10 places) (1 <<< (n + 1))

def withPoint (places units : Nat) : String :=
  if places = 0 then toString units
  else
    let unit := Nat.pow 10 places
    toString (units / unit) ++ "." ++ Text.padded places (units % unit)

def Binary.toFixed (places : Nat) : Binary → String
  | notANumber => "NaN"
  | infinite negative => if negative then "-inf" else "inf"
  | finite negative mantissa exponent =>
      (if negative then "-" else "") ++ withPoint places (scaled places mantissa exponent)

def fixed (places : Nat) (x : Float) : String :=
  (Binary.ofBits x.toBits).toFixed places

end MetricReporting.Decimal
