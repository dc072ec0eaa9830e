/-!
# Log formats and observability defaults

A log is written as JSON, in a pretty or in a compact form, chosen by a word in any case of letters.
-/
namespace MetricReporting

inductive LogFormat
  | json
  | pretty
  | compact
deriving DecidableEq, Repr, Inhabited

namespace LogFormat

def name : LogFormat → String
  | json => "Json"
  | pretty => "Pretty"
  | compact => "Compact"

def lowered (text : String) : String :=
  text.map Char.toLower

def unknownMessage (text : String) : String :=
  "unknown log format '" ++ lowered text ++ "'"

def parse (text : String) : Except String LogFormat :=
  match lowered text with
  | "json" => .ok json
  | "pretty" => .ok pretty
  | "compact" => .ok compact
  | _ => .error (unknownMessage text)

end LogFormat

structure ObservabilitySettings where
  serviceName : String := "metrics-reporter"
  logFormat : LogFormat := .json
  metricsPort : Option Nat := some 9000
  defaultLogLevel : String := "info"
deriving DecidableEq, Repr, Inhabited

end MetricReporting
