import MetricReporting.CommandLine.Words
import MetricReporting.LogFormat

/-!
# Invocations

The commands of the program, their options, and what an invocation comes to. Verbosity, silence and
the format of the log can be told before the command and after it.
-/
namespace MetricReporting

structure RunOptions where
  configPath : String
  durationSeconds : Nat
  producers : Nat
  rate : Nat
  bufferCapacity : Nat
  metricsPort : Option Nat
  isDryRun : Bool
deriving DecidableEq, Repr

structure ValidateOptions where
  configPath : String
  asJson : Bool
deriving DecidableEq, Repr

structure InfoOptions where
  configPath : String
  asJson : Bool
  withHeaders : Bool
deriving DecidableEq, Repr

structure DecodeOptions where
  paths : List String
  asJson : Bool
  withValues : Bool
deriving DecidableEq, Repr

inductive Command
  | run (options : RunOptions)
  | validate (options : ValidateOptions)
  | info (options : InfoOptions)
  | decode (options : DecodeOptions)
deriving DecidableEq, Repr

structure Invocation where
  verbosity : Nat
  isQuiet : Bool
  logFormat : LogFormat
  command : Command
deriving DecidableEq, Repr

namespace CommandLine

/-! ## Options -/

def verbose : Argument :=
  { name := "verbose", short := some 'v', action := .count,
    environmentName := some "METRICS_REPORTER_VERBOSE" }

def quiet : Argument :=
  { name := "quiet", short := some 'q', action := .flag, excludes := some verbose.name }

def logFormat : Argument :=
  { name := "log-format", action := .value (.word ["json", "pretty", "compact"]),
    environmentName := some "METRICS_REPORTER_LOG_FORMAT" }

def sharedOptions : List Argument := [verbose, quiet, logFormat]

def help : Argument := { name := "help", short := some 'h', action := .help }

def version : Argument := { name := "version", short := some 'V', action := .version }

def config : Argument := { name := "config", short := some 'c', action := .value .path }

def defaultConfigPath : String := "reporting.toml"

def wordBound : Nat := UInt64.size

def number (name variableName : String) : Argument :=
  { name := name, action := .value (.natural wordBound), environmentName := some variableName }

def durationSeconds : Argument := number "duration-secs" "METRICS_REPORTER_DURATION"
def producers : Argument := number "producers" "METRICS_REPORTER_PRODUCERS"
def rate : Argument := number "rate" "METRICS_REPORTER_RATE"
def bufferCapacity : Argument := number "buffer-capacity" "METRICS_REPORTER_BUFFER_CAPACITY"

def metricsPort : Argument :=
  { name := "metrics-port", action := .value (.signed UInt16.size),
    environmentName := some "METRICS_REPORTER_METRICS_PORT" }

def dryRun : Argument := { name := "dry-run", action := .flag }
def json : Argument := { name := "json", action := .flag }
def headers : Argument := { name := "headers", action := .flag }
def values : Argument := { name := "values", action := .flag }
def files : Argument := { name := "files", action := .collect .path }

/-! ## Levels -/

def helpCommand : String := "help"

def program : Level where
  options := sharedOptions ++ [help, version]
  commands := ["run", "validate", "info", "decode", helpCommand]

def level (own : List Argument) (positional : Option Argument) : Level where
  options := own ++ sharedOptions ++ [help]
  positional := positional

def runLevel : Level :=
  level [{ config with environmentName := some "METRICS_REPORTER_CONFIG" }, durationSeconds,
    producers, rate, bufferCapacity, metricsPort, dryRun] none

def validateLevel : Level := level [config, json] none

def infoLevel : Level := level [config, json, headers] none

def decodeLevel : Level := level [json, values] (some files)

/-! ## Values -/

namespace Matches

def text? (found : Matches) (argument : Argument) : Option String :=
  (found.valuesOf argument.name).head?

def number? (found : Matches) (argument : Argument) : Option Nat :=
  match argument.action with
  | .value form => (found.text? argument).bind form.number?
  | _ => none

def has (found : Matches) (argument : Argument) : Bool :=
  found.isGiven argument.name

def configPath (found : Matches) : String :=
  (found.text? config).getD defaultConfigPath

def runOptions (found : Matches) : RunOptions where
  configPath := found.configPath
  durationSeconds := (found.number? durationSeconds).getD 10
  producers := (found.number? producers).getD 4
  rate := (found.number? rate).getD 1000
  bufferCapacity := (found.number? bufferCapacity).getD 4096
  metricsPort := found.number? metricsPort
  isDryRun := found.has dryRun

def validateOptions (found : Matches) : ValidateOptions := ⟨found.configPath, found.has json⟩

def infoOptions (found : Matches) : InfoOptions :=
  ⟨found.configPath, found.has json, found.has headers⟩

def decodeOptions (found : Matches) : DecodeOptions :=
  ⟨found.valuesOf files.name, found.has json, found.has values⟩

def invocation (outer inner : Matches) (command : Command) : Invocation :=
  let words (argument : Argument) := ((shared outer inner argument.name).map Found.values)
  let count := ((words verbose).bind List.head?).bind Action.countForm.number?
  let format := (words logFormat).bind List.head?
  { verbosity := count.getD 0
    isQuiet := (words quiet).isSome
    logFormat := (format.bind fun word => (LogFormat.parse word).toOption).getD .pretty
    command := command }

end Matches

def readHelp (words : List String) : UsageError :=
  if words.length ≤ 1 ∧ words.all program.commands.contains then .helpAsked else .unknownCommand

def ofName (name : String) : Level × (Matches → Command) :=
  match name with
  | "run" => (runLevel, fun found => .run found.runOptions)
  | "validate" => (validateLevel, fun found => .validate found.validateOptions)
  | "info" => (infoLevel, fun found => .info found.infoOptions)
  | _ => (decodeLevel, fun found => .decode found.decodeOptions)

/-- The words of a command and what they come to. A command may have no commands of its own. -/
def readCommand (environment : Environment) (name : String) (words : List String) :
    Except UsageError (Matches × Command) := do
  let (level, ofMatches) := ofName name
  let (found, _) ← readWords level ({}, false) words
  let found ← finish environment level false found
  .ok (found, ofMatches found)

end CommandLine

open CommandLine in
def Invocation.parse (environment : Environment) (words : List String) :
    Except UsageError Invocation := do
  let (outer, command?) ← readWords program ({}, false) words
  match command? with
  | none => do
      let _ ← finish environment program false outer
      .error .missingCommand
  | some (name, rest) =>
      if name = helpCommand then .error (readHelp rest)
      else do
        let (inner, command) ← readCommand environment name rest
        let outer ← finish environment program true outer
        .ok (Matches.invocation outer inner command)

end MetricReporting
