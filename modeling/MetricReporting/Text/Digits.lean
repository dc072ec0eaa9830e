/-!
# Numbers as digits

Decimal numbers padded with zeros, decimal numbers read back, and bytes as hexadecimal text.
-/
namespace MetricReporting.Text

def padded (width n : Nat) : String :=
  let digits := toString n
  String.ofList (List.replicate (width - digits.length) '0') ++ digits

def hexDigit (n : Nat) : Char :=
  if n < 10 then Char.ofNat ('0'.toNat + n) else Char.ofNat ('a'.toNat + (n - 10))

def hex (bytes : List UInt8) : String :=
  String.ofList (bytes.flatMap fun byte => [hexDigit (byte.toNat / 16), hexDigit (byte.toNat % 16)])

def isDigit (c : Char) : Bool :=
  decide ('0' ≤ c) && decide (c ≤ '9')

def decimal? (text : String) : Option Nat :=
  let digits :=
    match text.toList with
    | '+' :: rest => rest
    | all => all
  if digits ≠ [] ∧ digits.all isDigit then
    some (digits.foldl (fun total c => total * 10 + (c.toNat - '0'.toNat)) 0)
  else none

def decimalBelow? (bound : Nat) (text : String) : Option Nat :=
  (decimal? text).filter fun value => decide (value < bound)

end MetricReporting.Text
