import MetricReporting.Config.Value
import MetricReporting.Text.Digits

/-!
# Writing JSON

Values as JSON with one field or item per line, indented by two spaces.
-/
namespace MetricReporting.Json

def written (c : Char) : String :=
  match c with
  | '"' => "\\\""
  | '\\' => "\\\\"
  | '\x08' => "\\b"
  | '\x0c' => "\\f"
  | '\n' => "\\n"
  | '\r' => "\\r"
  | '\t' => "\\t"
  | c =>
      if c.toNat < 0x20 then
        "\\u00" ++ String.ofList [Text.hexDigit (c.toNat / 16), Text.hexDigit (c.toNat % 16)]
      else c.toString

def quote (text : String) : String :=
  "\"" ++ String.join (text.toList.map written) ++ "\""

def newline (indent : Nat) : String :=
  "\n" ++ String.ofList (List.replicate indent ' ')

def bracketed (opening closing : String) (indent : Nat) (items : List String) : String :=
  if items = [] then opening ++ closing
  else
    opening ++ newline (indent + 2) ++ ("," ++ newline (indent + 2)).intercalate items ++
      newline indent ++ closing

mutual

def write (indent : Nat) : Value → String
  | .null | .unreadable _ => "null"
  | .boolean value => if value then "true" else "false"
  | .integer value => toString value
  | .fraction written => written
  | .text value => quote value
  | .list items => bracketed "[" "]" indent (writeItems (indent + 2) items)
  | .record fields => bracketed "\x7b" "\x7d" indent (writeFields (indent + 2) fields)

def writeItems (indent : Nat) : List Value → List String
  | [] => []
  | item :: rest => write indent item :: writeItems indent rest

def writeFields (indent : Nat) : List (String × Value) → List String
  | [] => []
  | (name, value) :: rest =>
      (quote name ++ ": " ++ write indent value) :: writeFields indent rest

end

end MetricReporting.Json
