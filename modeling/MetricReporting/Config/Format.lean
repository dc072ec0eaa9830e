import MetricReporting.Config.Tree
import MetricReporting.Config.Validation
import MetricReporting.FileTree
import MetricReporting.Json.Reader
import MetricReporting.Json.Writer
import MetricReporting.LogFormat
import MetricReporting.Toml.Reader
import MetricReporting.Toml.Writer

/-!
# Configuration files

A configuration is read from TOML or JSON, told by the extension of the file, and must pass
validation; it can be written in both formats. Texts become trees and trees texts in a layer of
their own, which the functions here are given.
-/
namespace MetricReporting

inductive ConfigFormat
  | toml
  | json
deriving DecidableEq, Repr

namespace ConfigFormat

def name : ConfigFormat → String
  | toml => "TOML"
  | json => "JSON"

def ofExtension? (extension : String) : Option ConfigFormat :=
  match LogFormat.lowered extension with
  | "toml" => some toml
  | "json" => some json
  | _ => none

/-- What a file name has behind its last point, unless that is its first character. -/
def extension? (path : String) : Option String :=
  match (FileTree.names path).getLast? with
  | none => none
  | some name =>
      match (name.splitOn ".").reverse with
      | last :: before :: more =>
          if name = ".." ∨ (before = "" ∧ more = []) then none else some last
      | _ => none

def ofPath (path : String) : Except ReportingError ConfigFormat :=
  match extension? path with
  | none => .error (.configParse "cannot determine file format from extension")
  | some extension =>
      match ofExtension? extension with
      | some format => .ok format
      | none => .error (.configParse ("unsupported config format: ." ++ extension))

/-- Whether a list may hold more items than the structure has fields that it stands for. -/
def sparesItems : ConfigFormat → Bool
  | toml => true
  | json => false

end ConfigFormat

/-- What reads and writes the texts of a format. Not every record can be written. -/
structure TextLayer where
  read? : String → Option Value
  write? : List (String × Value) → Option String

def ConfigFormat.layer : ConfigFormat → TextLayer
  | toml => ⟨Toml.read?, fun fields => some (Toml.write fields)⟩
  | json => ⟨Json.read?, fun fields => some (Json.write 0 (.record fields))⟩

namespace ReportingConfig

def load (layer : ConfigFormat → TextLayer) (format : ConfigFormat) (text : String) :
    Except ReportingError ReportingConfig :=
  match ((layer format).read? text).bind (ofValue? format.sparesItems) with
  | none => .error (.configParse (format.name ++ " parse error"))
  | some config => config.validate.map fun () => config

def loadFile (layer : ConfigFormat → TextLayer) (files : FileTree) (path : String) :
    Except ReportingError ReportingConfig := do
  let format ← ConfigFormat.ofPath path
  let text ← (files.readText path).mapError ReportingError.io
  load layer format text

def save (layer : ConfigFormat → TextLayer) (format : ConfigFormat) (config : ReportingConfig) :
    Except ReportingError String :=
  match (layer format).write? config.toFields with
  | none => .error (.configParse (format.name ++ " serialize error"))
  | some text => .ok text

end ReportingConfig

end MetricReporting
