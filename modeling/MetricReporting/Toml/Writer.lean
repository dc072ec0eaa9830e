import MetricReporting.Config.Value
import MetricReporting.Text.Digits
import MetricReporting.Toml.Reader

/-!
# Writing TOML

A record as a TOML document: first the fields that are no records, one per line, and then each
record under its own header. Null fields are left out. A text is written in the plainest of the
four ways of quoting that can hold it.
-/
namespace MetricReporting.Toml

/-! ## Texts -/

def longestRun (wanted : Char) (text : List Char) : Nat :=
  (text.foldl (fun (most, length) c =>
    let length := if c = wanted then length + 1 else 0
    (max most length, length)) (0, 0)).1

def hasControl (text : List Char) : Bool :=
  text.any fun c => isControl c && c != '\n'

def Style.holds (style : Style) (text : List Char) : Bool :=
  !hasControl text && !(style.hasEscapes && text.contains '\\') &&
    longestRun style.mark text < (if style.isLong then 3 else 1) &&
    (style.isLong || !text.contains '\n')

/-- The first way of quoting that holds a text as it is; for texts that none holds, the basic one
that can have its lines. -/
def Style.for (text : List Char) : Style :=
  let plainest := [basic, literal, longBasic, longLiteral].find? fun style => style.holds text
  plainest.getD (if text.contains '\n' then longBasic else basic)

def upperHexDigit (n : Nat) : Char :=
  (Text.hexDigit n).toUpper

def escape (c : Char) : String :=
  match c with
  | '\x08' => "\\b"
  | '\t' => "\\t"
  | '\n' => "\\n"
  | '\x0c' => "\\f"
  | '\r' => "\\r"
  | '"' => "\\\""
  | '\\' => "\\\\"
  | c =>
      if isControl c then
        "\\u00" ++ String.ofList [upperHexDigit (c.toNat / 16), upperHexDigit (c.toNat % 16)]
      else c.toString

/-- The content of a basic text. In a long one, line ends stay, and of the marks in a row only
every third is escaped. -/
def escapeAll (isLong : Bool) (marks : Nat) : List Char → List String
  | [] => []
  | c :: rest =>
      if isLong && c = '\n' then "\n" :: escapeAll isLong 0 rest
      else if isLong && c = '"' && marks < 2 then "\"" :: escapeAll isLong (marks + 1) rest
      else escape c :: escapeAll isLong 0 rest

def quote (text : String) : String :=
  let characters := text.toList
  let style := Style.for characters
  let delimiter := String.ofList style.delimiter
  let opening := if style.isLong && characters.contains '\n' then delimiter ++ "\n" else delimiter
  let content :=
    if style.hasEscapes then String.join (escapeAll style.isLong 0 characters) else text
  opening ++ content ++ delimiter

def writeKey (name : String) : String :=
  if name ≠ "" ∧ name.toList.all isBare then name else quote name

/-! ## Values -/

mutual

def writeInline : Value → String
  | .null | .unreadable _ => ""
  | .boolean value => if value then "true" else "false"
  | .integer value => toString value
  | .fraction written => written
  | .text value => quote value
  | .list items => "[" ++ ", ".intercalate (inlineItems items) ++ "]"
  | .record fields => "\x7b " ++ ", ".intercalate (inlineFields fields) ++ " \x7d"

def inlineItems : List Value → List String
  | [] => []
  | item :: rest => writeInline item :: inlineItems rest

def inlineFields : List (String × Value) → List String
  | [] => []
  | (_, .null) :: rest => inlineFields rest
  | (name, value) :: rest =>
      (writeKey name ++ " = " ++ writeInline value) :: inlineFields rest

end

def writeLines (fields : List (String × Value)) : String :=
  String.join ((inlineFields fields).map (· ++ "\n"))

def isTable : Value → Bool
  | .record _ => true
  | _ => false

def writeTable : String × Value → String
  | (name, .record fields) => "\n[" ++ writeKey name ++ "]\n" ++ writeLines fields
  | _ => ""

def write (fields : List (String × Value)) : String :=
  let (tables, plain) := fields.partition fun (_, value) => isTable value
  writeLines plain ++ String.join (tables.map writeTable)

end MetricReporting.Toml
