import MetricReporting.CommandLine.Argument
import MetricReporting.Host
import MetricReporting.Keyed

/-!
# Arguments found

The values found for the arguments of one level and where they came from. An option that takes a
value waits for it, and is recorded only when something else is to be recorded or the line ends.
-/
namespace MetricReporting.CommandLine

inductive Source
  | environment
  | commandLine
deriving DecidableEq, Repr

structure Found where
  source : Source
  values : List String
deriving DecidableEq, Repr

structure Matches where
  found : List (String × Found) := []
  /-- An argument on the command line with its values so far. -/
  waiting : Option (Argument × List String) := none

namespace Matches

def find? (found : Matches) (name : String) : Option Found :=
  Keyed.find? name found.found

def isGiven (found : Matches) (name : String) : Bool :=
  (found.find? name).isSome

def set (found : Matches) (argument : Argument) (source : Source) (values : List String) :
    Matches :=
  { found with found := Keyed.adjust argument.name (fun _ => ⟨source, values⟩) found.found }

def valuesOf (found : Matches) (name : String) : List String :=
  ((found.find? name).map Found.values).getD []

def highestCount : Nat := 255

def countOf (found : Matches) (name : String) : Nat :=
  match found.valuesOf name with
  | [] => 0
  | text :: _ => (Action.countForm.number? text).getD 0

def checkAll (form : ValueForm) (values : List String) : Except UsageError Unit :=
  values.forM form.check

def record (found : Matches) (argument : Argument) (source : Source) (values : List String) :
    Except UsageError Matches :=
  match argument.action with
  | .help => .error .helpAsked
  | .version => .error .versionAsked
  | .flag =>
      if found.isGiven argument.name then .error .conflict
      else .ok (found.set argument source [])
  | .count =>
      if values = [] then
        let next := min highestCount (found.countOf argument.name + 1)
        .ok (found.set argument source [toString next])
      else do
        checkAll Action.countForm values
        .ok (found.set argument source values)
  | .value form =>
      if values = [] then .error .invalidValue
      else if found.isGiven argument.name then .error .conflict
      else do
        checkAll form values
        .ok (found.set argument source values)
  | .collect form =>
      if values = [] then .error .invalidValue
      else do
        checkAll form values
        .ok (found.set argument source (found.valuesOf argument.name ++ values))

def settle (found : Matches) : Except UsageError Matches :=
  match found.waiting with
  | none => .ok found
  | some (argument, values) =>
      ({ found with waiting := none } : Matches).record argument .commandLine values

def await (found : Matches) (argument : Argument) (values : List String) : Matches :=
  { found with waiting := some (argument, values) }

/-- Records the arguments that only the environment gives, in the order of their declaration. -/
def readEnvironment (environment : Environment) :
    List Argument → Matches → Except UsageError Matches
  | [], found => .ok found
  | argument :: rest, found =>
      match argument.environmentName.bind environment with
      | none => readEnvironment environment rest found
      | some text =>
          if found.isGiven argument.name then readEnvironment environment rest found
          else do
            let found ← found.record argument .environment [text]
            readEnvironment environment rest found

def hasConflict (level : Level) (found : Matches) : Bool :=
  level.options.any fun argument =>
    found.isGiven argument.name && argument.excludes.any found.isGiven

def check (level : Level) (hasCommand : Bool) (found : Matches) : Except UsageError Unit :=
  if level.commands ≠ [] ∧ !hasCommand then
    .error (if found.found = [] then .nothingGiven else .missingCommand)
  else if hasConflict level found then .error .conflict
  else if level.positional.any fun argument => !found.isGiven argument.name then
    .error .missingArgument
  else .ok ()

/-- What was found of an argument that two levels know. The inner level counts, unless only the
outer one was told on the command line. -/
def shared (outer inner : Matches) (name : String) : Option Found :=
  match outer.find? name, inner.find? name with
  | some ⟨.commandLine, values⟩, some ⟨.environment, _⟩ => some ⟨.commandLine, values⟩
  | some found, none => some found
  | _, found => found

end Matches

end MetricReporting.CommandLine
