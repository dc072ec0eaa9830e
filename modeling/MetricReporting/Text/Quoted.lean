import MetricReporting.Text.Digits
import MetricReporting.Text.Unseen

/-!
# Quoted texts

A text between quotation marks with everything in it visible: marks and backslashes behind a
backslash, and characters without a form of their own by name or number.
-/
namespace MetricReporting.Text

def hexNumber (n : Nat) : String :=
  String.ofList (Nat.toDigits 16 n)

def visible (c : Char) : String :=
  match c with
  | '\x00' => "\\0"
  | '\t' => "\\t"
  | '\n' => "\\n"
  | '\r' => "\\r"
  | '"' => "\\\""
  | '\\' => "\\\\"
  | c => if isUnseen c then "\\u\x7b" ++ hexNumber c.toNat ++ "\x7d" else c.toString

def quoted (text : String) : String :=
  "\"" ++ String.join (text.toList.map visible) ++ "\""

end MetricReporting.Text
