/-!
# Numbers that statistics are taken of

The arithmetic that running statistics need, for binary64 numbers and for exact rationals.
-/
namespace MetricReporting

class StatNumber (α : Type) where
  zero : α
  add : α → α → α
  sub : α → α → α
  mul : α → α → α
  div : α → α → α
  ofCount : Nat → α
  smaller : α → α → α
  larger : α → α → α

/-- The smaller of two numbers; one that is no number gives way. -/
def smallerFloat (a b : Float) : Float :=
  if a.isNaN then b else if b < a then b else a

def largerFloat (a b : Float) : Float :=
  if a.isNaN then b else if a < b then b else a

instance : StatNumber Float where
  zero := 0
  add a b := a + b
  sub a b := a - b
  mul a b := a * b
  div a b := a / b
  ofCount n := Float.ofNat n
  smaller := smallerFloat
  larger := largerFloat

instance : StatNumber Rat where
  zero := 0
  add a b := a + b
  sub a b := a - b
  mul a b := a * b
  div a b := a / b
  ofCount n := (n : Rat)
  smaller a b := if b < a then b else a
  larger a b := if a < b then b else a

end MetricReporting
