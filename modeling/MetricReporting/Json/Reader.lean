import MetricReporting.Config.Value
import MetricReporting.Decimal.Range
import MetricReporting.Text.Scan

/-!
# Reading JSON

The value that a JSON text stands for. A text with half of a surrogate pair, a number that scales
beyond the floats and a list or record nested too deep can only be skipped. Numbers count as
integers if they are written without point and exponent and fit a 64-bit word, signed or not; minus
zero is none.
-/
namespace MetricReporting.Json

open Text (Scanner Quotation)

def isSpace (c : Char) : Bool :=
  c = ' ' || c = '\n' || c = '\t' || c = '\r'

def skipSpace (text : List Char) : List Char :=
  text.dropWhile isSpace

/-! ## Quoted texts -/

inductive Piece
  | character (c : Char)
  | unit (n : Nat)
deriving DecidableEq, Repr

def escaped? : Char → Option Char
  | '"' => some '"'
  | '\\' => some '\\'
  | '/' => some '/'
  | 'b' => some '\x08'
  | 'f' => some '\x0c'
  | 'n' => some '\n'
  | 'r' => some '\r'
  | 't' => some '\t'
  | _ => none

def quotation : Quotation Piece where
  close? := fun text =>
    match text with
    | '"' :: rest => some ([], rest)
    | _ => none
  piece? := fun c rest =>
    if c = '\\' then
      match rest with
      | 'u' :: rest => (Text.hexNumber? 4 rest).map fun n => (.unit n, 5)
      | e :: _ => (escaped? e).map fun c => (.character c, 1)
      | [] => none
    else if c.toNat < 0x20 then none
    else some (.character c, 0)

def characters? : List Piece → Option (List Char)
  | [] => some []
  | .character c :: rest => (characters? rest).map (c :: ·)
  | .unit high :: .unit low :: rest =>
      if 0xD800 ≤ high ∧ high < 0xDC00 then
        if 0xDC00 ≤ low ∧ low < 0xE000 then
          (characters? rest).map
            (Char.ofNat ((high - 0xD800) * 0x400 + (low - 0xDC00) + 0x10000) :: ·)
        else none
      else if 0xDC00 ≤ high ∧ high < 0xE000 then none
      else (characters? (.unit low :: rest)).map (Char.ofNat high :: ·)
  | .unit n :: rest =>
      if 0xD800 ≤ n ∧ n < 0xE000 then none else (characters? rest).map (Char.ofNat n :: ·)

def quoted : Scanner (Option String) := fun text =>
  (quotation.scan 0 text).map fun (pieces, rest) => ((characters? pieces).map String.ofList, rest)

/-! ## Numbers -/

def decimals : Scanner (List Nat)
  | '.' :: rest =>
      match Text.digits 10 rest with
      | ([], _) => none
      | (values, rest) => some (values, rest)
  | text => some ([], text)

def signed : List Char → Bool × List Char
  | '-' :: rest => (true, rest)
  | '+' :: rest => (false, rest)
  | text => (false, text)

def exponent : Scanner (Option Int)
  | c :: rest =>
      if c = 'e' ∨ c = 'E' then
        let (negative, rest) := signed rest
        match Text.digits 10 rest with
        | ([], _) => none
        | (values, rest) =>
            let power : Int := Text.ofDigits 10 values
            some (some (if negative then -power else power), rest)
      else some (none, c :: rest)
  | [] => some (none, [])

def unread : Value := .unreadable true

def integer (negative : Bool) (magnitude : Nat) : Value :=
  if negative then
    if 0 < magnitude ∧ magnitude ≤ Int64.minValue.toInt.natAbs then .integer (-magnitude)
    else .fraction ("-" ++ toString magnitude)
  else if magnitude < UInt64.size then .integer magnitude
  else .fraction (toString magnitude)

def number : Scanner Value := fun text =>
  let negative := text.head? == some '-'
  match Text.digits 10 (if negative then text.drop 1 else text) with
  | ([], _) => none
  | (0 :: _ :: _, _) => none
  | (whole, rest) => do
      let (places, rest) ← decimals rest
      let (power, rest) ← exponent rest
      let magnitude := Text.ofDigits 10 (whole ++ places)
      let written := String.ofList (text.take (text.length - rest.length))
      let value :=
        if Decimal.scalesTooFar whole places (power.getD 0) then unread
        else if places = [] ∧ power = none then integer negative magnitude
        else .fraction written
      some (value, rest)

/-! ## Values -/

def deepest : Nat := 127

def nested (room : Nat) (value : Value) : Value :=
  if room = 0 then unread else value

def record (fields : List (Option String × Value)) : Value :=
  match fields.mapM fun (name, value) => name.map fun name => (name, value) with
  | some fields => .record fields
  | none => unread

mutual

/-- A value, found in at most `fuel` steps. -/
def value (fuel room : Nat) : Scanner Value := fun text =>
  match fuel with
  | 0 => none
  | fuel + 1 =>
      match skipSpace text with
      | '"' :: rest =>
          (quoted rest).map fun (read, rest) => ((read.map Value.text).getD unread, rest)
      | '[' :: rest =>
          match skipSpace rest with
          | ']' :: rest => some (nested room (.list []), rest)
          | rest => (items fuel (room - 1) rest).map fun (items, rest) =>
              (nested room (.list items), rest)
      | '{' :: rest =>
          match skipSpace rest with
          | '}' :: rest => some (nested room (.record []), rest)
          | rest => (fields fuel (room - 1) rest).map fun (fields, rest) =>
              (nested room (record fields), rest)
      | 'n' :: rest => (Text.after? "ull".toList rest).map fun rest => (.null, rest)
      | 't' :: rest => (Text.after? "rue".toList rest).map fun rest => (.boolean true, rest)
      | 'f' :: rest => (Text.after? "alse".toList rest).map fun rest => (.boolean false, rest)
      | text => number text

def items (fuel room : Nat) : Scanner (List Value) := fun text =>
  match fuel with
  | 0 => none
  | fuel + 1 => do
      let (item, rest) ← value fuel room text
      match skipSpace rest with
      | ']' :: rest => some ([item], rest)
      | ',' :: rest => (items fuel room rest).map fun (items, rest) => (item :: items, rest)
      | _ => none

def fields (fuel room : Nat) : Scanner (List (Option String × Value)) := fun text =>
  match fuel with
  | 0 => none
  | fuel + 1 =>
      match skipSpace text with
      | '"' :: rest => do
          let (name, rest) ← quoted rest
          match skipSpace rest with
          | ':' :: rest => do
              let (item, rest) ← value fuel room rest
              match skipSpace rest with
              | '}' :: rest => some ([(name, item)], rest)
              | ',' :: rest => (fields fuel room rest).map fun (fields, rest) =>
                  ((name, item) :: fields, rest)
              | _ => none
          | _ => none
      | _ => none

end

/-- The value that a whole text stands for. Every step but the first takes a character, and no
character is taken in more than two steps. -/
def read? (text : String) : Option Value :=
  match value (2 * text.length + 2) deepest text.toList with
  | some (value, rest) => if skipSpace rest = [] then some value else none
  | none => none

end MetricReporting.Json
