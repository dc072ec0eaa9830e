import MetricReporting.Text.Digits

/-!
# Arguments of a command line

Which options a command knows and what values they take. A command line is refused for one of a few
reasons; asking for help or for the version counts as one.
-/
namespace MetricReporting.CommandLine

inductive UsageError
  | helpAsked
  | versionAsked
  | nothingGiven
  | missingCommand
  | missingArgument
  | unknownArgument
  | unknownCommand
  /-- A value is missing, empty or none of those allowed. -/
  | invalidValue
  | unreadableValue
  | needlessValue
  | conflict
deriving DecidableEq, Repr

def UsageError.exitCode : UsageError → Nat
  | helpAsked | versionAsked => 0
  | _ => 2

inductive ValueForm
  | path
  | natural (bound : Nat)
  /-- A number that may be written with a sign but is not negative. -/
  | signed (bound : Nat)
  | word (choices : List String)
deriving DecidableEq, Repr

namespace ValueForm

def signed? (text : String) : Option Nat :=
  match text.toList with
  | '-' :: '+' :: _ => none
  | '-' :: rest => (Text.decimal? (String.ofList rest)).filter fun n => n = 0
  | _ => Text.decimal? text

def number? : ValueForm → String → Option Nat
  | natural bound, text => Text.decimalBelow? bound text
  | signed bound, text => (signed? text).filter fun n => decide (n < bound)
  | _, _ => none

def check (form : ValueForm) (text : String) : Except UsageError Unit :=
  match form with
  | path => if text = "" then .error .invalidValue else .ok ()
  | word choices => if choices.contains text then .ok () else .error .invalidValue
  | natural _ | signed _ => if (form.number? text).isSome then .ok () else .error .unreadableValue

end ValueForm

inductive Action
  | flag
  /-- A flag that counts how often it is given, up to 255. -/
  | count
  | value (form : ValueForm)
  | collect (form : ValueForm)
  | help
  | version
deriving DecidableEq, Repr

namespace Action

def takesValue : Action → Bool
  | value _ | collect _ => true
  | _ => false

def countForm : ValueForm := .signed 256

end Action

structure Argument where
  name : String
  short : Option Char := none
  action : Action
  /-- The environment variable that gives the value if the command line does not. -/
  environmentName : Option String := none
  excludes : Option String := none
deriving DecidableEq, Repr

/-- What may stand on the command line of a program or of one of its commands. -/
structure Level where
  options : List Argument
  positional : Option Argument := none
  commands : List String := []

namespace Level

def long? (level : Level) (name : String) : Option Argument :=
  level.options.find? fun argument => argument.name == name

def short? (level : Level) (c : Char) : Option Argument :=
  level.options.find? fun argument => argument.short == some c

end Level

end MetricReporting.CommandLine
