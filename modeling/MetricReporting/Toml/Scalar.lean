import MetricReporting.Config.Value
import MetricReporting.Decimal.Range
import MetricReporting.Text.Scan

/-!
# Unquoted values of TOML

Truth values, integers in four radices, decimal fractions and points in time. Between two digits
an underscore may stand. An integer that fits no 64-bit word can only be skipped, and one that fits
no 128-bit word not even that, nor can a fraction beyond the range of floats.
-/
namespace MetricReporting.Toml

open Text (Scanner)

def groupedDigits? (radix : Nat) (text : List Char) : Option (List Nat) :=
  let groups := (text.splitOn '_').map (Text.digits radix)
  if groups.all fun (values, rest) => !values.isEmpty && rest.isEmpty then
    some (groups.flatMap Prod.fst)
  else none

def plainDigits? (text : List Char) : Option (List Nat) :=
  (groupedDigits? 10 text).filter fun values => values.head? != some 0 || values.length == 1

def longBound : Nat := UInt64.size * UInt64.size

def integer (negative : Bool) (magnitude : Nat) : Value :=
  let number : Int := if negative then -magnitude else magnitude
  if Int64.minValue.toInt ≤ number ∧ number < UInt64.size then .integer number
  else .unreadable (-(longBound / 2 : Nat) ≤ number ∧ number < longBound)

def sign : List Char → Option Bool × List Char
  | '-' :: rest => (some true, rest)
  | '+' :: rest => (some false, rest)
  | text => (none, text)

def radix? : List Char → Option (Nat × List Char)
  | '0' :: 'x' :: rest => some (16, rest)
  | '0' :: 'o' :: rest => some (8, rest)
  | '0' :: 'b' :: rest => some (2, rest)
  | _ => none

def splitAtFirst (marks : List Char) (text : List Char) : List Char × Option (List Char) :=
  let front := text.takeWhile fun c => !marks.contains c
  match text.drop front.length with
  | [] => (front, none)
  | _ :: rest => (front, some rest)

def fraction? (negative : Bool) (text : List Char) : Option Value := do
  let (mantissa, power) := splitAtFirst ['e', 'E'] text
  let (whole, places) := splitAtFirst ['.'] mantissa
  let whole ← plainDigits? whole
  let places ← match places with
    | none => some []
    | some places => groupedDigits? 10 places
  let power ← match power with
    | none => some 0
    | some power =>
        let (negative, power) := sign power
        (groupedDigits? 10 power).map fun values =>
          (if negative = some true then -1 else 1) * (Text.ofDigits 10 values : Int)
  some (if Decimal.tooLarge (Text.ofDigits 10 (whole ++ places)) (power - places.length) then
      .unreadable false
    else .fraction (String.ofList (if negative then '-' :: text else text)))

def number? (text : List Char) : Option Value :=
  let (negative?, magnitude) := sign text
  let negative := negative?.getD false
  if magnitude = "inf".toList ∨ magnitude = "nan".toList then
    some (.fraction (String.ofList text))
  else
    match radix? magnitude with
    | some (radix, digits) =>
        if negative?.isSome then none
        else (groupedDigits? radix digits).map fun values =>
          integer false (Text.ofDigits radix values)
    | none =>
        match plainDigits? magnitude with
        | some values => some (integer negative (Text.ofDigits 10 values))
        | none =>
            if magnitude.any fun c => c = '.' || c = 'e' || c = 'E'
            then fraction? negative magnitude
            else none

/-! ## Points in time -/

def fixedNumber (width : Nat) : Scanner Nat := fun text =>
  if text.length < width then none
  else (Text.number? 10 (text.take width)).map fun n => (n, text.drop width)

def isLeapYear (year : Nat) : Bool :=
  year % 4 = 0 && (year % 100 != 0 || year % 400 = 0)

def daysIn (year month : Nat) : Nat :=
  if month = 2 then (if isLeapYear year then 29 else 28)
  else if [4, 6, 9, 11].contains month then 30
  else 31

def date : Scanner Unit := fun text => do
  let (year, text) ← fixedNumber 4 text
  let text ← Text.after? ['-'] text
  let (month, text) ← fixedNumber 2 text
  let text ← Text.after? ['-'] text
  let (day, text) ← fixedNumber 2 text
  if 1 ≤ month ∧ month ≤ 12 ∧ 1 ≤ day ∧ day ≤ daysIn year month then some ((), text) else none

/-- The seconds of a time, perhaps with decimal places; a minute may have a leap second. -/
def seconds : Scanner Unit := fun text => do
  let (second, text) ← fixedNumber 2 text
  if 61 ≤ second then none
  else
    match text with
    | '.' :: text =>
        match Text.digits 10 text with
        | ([], _) => none
        | (_, rest) => some ((), rest)
    | text => some ((), text)

def time : Scanner Unit := fun text => do
  let (hour, text) ← fixedNumber 2 text
  let text ← Text.after? [':'] text
  let (minute, text) ← fixedNumber 2 text
  if 24 ≤ hour ∨ 60 ≤ minute then none
  else
    match text with
    | ':' :: text => seconds text
    | text => some ((), text)

def isOffset (text : List Char) : Bool :=
  match sign text with
  | (some _, text) =>
      match fixedNumber 2 text with
      | some (hours, ':' :: text) =>
          match fixedNumber 2 text with
          | some (minutes, []) => hours < 24 && minutes < 60
          | _ => false
      | _ => false
  | (none, text) => text = [] || text = ['Z'] || text = ['z']

def isPointInTime (text : List Char) : Bool :=
  match date text with
  | some (_, []) => true
  | some (_, c :: text) =>
      (c = 'T' || c = 't' || c = ' ') && (time text).any fun (_, rest) => isOffset rest
  | none => (time text).any fun (_, rest) => rest.isEmpty

def isDate (text : String) : Bool :=
  (date text.toList).any fun (_, rest) => rest.isEmpty

def timeField : String := "datetime"

def unquoted? (text : String) : Option Value :=
  if text = "true" then some (.boolean true)
  else if text = "false" then some (.boolean false)
  else if isPointInTime text.toList then some (.record [(timeField, .text text)])
  else number? text.toList

end MetricReporting.Toml
