import MetricReporting.Command.Execution
import MetricReporting.CommandLine.EnvironmentFile

/-!
# The program

From the words of a command line, the environment and the files at hand to what is printed, which
files are left, and the exit code.
-/
namespace MetricReporting.Program

def name : String := "metrics-reporter"

def version : String := "0.1.0"

structure Start where
  words : List String
  environment : Environment
  network : Network
  files : FileTree
  hostId : Bytes
  busyPorts : List Nat := []
  /-- When a shutdown is requested, in milliseconds after the start. -/
  shutdown : Option Nat := none

def Start.machine (start : Start) : Machine where
  network := start.network
  host := .ofEnvironment start.environment start.hostId
  files := start.files
  busyPorts := start.busyPorts

def invoke (start : Start) : Except CommandLine.UsageError Outcome := do
  let invocation ← Invocation.parse start.environment start.words
  .ok (start.machine.execute start.shutdown invocation.command)

def Start.withEnvironmentFile (start : Start) : Except EnvironmentFile.Fault Start :=
  (EnvironmentFile.extend start.files start.environment).map fun environment =>
    { start with environment := environment }

structure Ending where
  output : String
  errors : List String
  exitCode : Nat
  files : FileTree

def usageText : String :=
  "Usage: " ++ name ++ " [OPTIONS] <COMMAND>\n\n" ++
    "Commands:\n" ++
    "  run       Run the reporting pipeline with synthetic probe events\n" ++
    "  validate  Validate configuration file without running\n" ++
    "  info      Display the effective configuration and message headers\n" ++
    "  decode    Decode payload files written by the file sender\n"

def usageOutput : CommandLine.UsageError → String
  | .helpAsked => usageText
  | .versionAsked => name ++ " " ++ version ++ "\n"
  | _ => ""

/-- The lines that tell why a command failed: the failure, and then its causes, with numbers if
there are several. -/
def errorLines : List String → List String
  | [] => []
  | [failure] => ["Error: " ++ failure]
  | [failure, cause] => ["Error: " ++ failure, "", "Caused by:", "    " ++ cause]
  | failure :: causes =>
      ["Error: " ++ failure, "", "Caused by:"] ++
        causes.zipIdx.map fun (cause, index) => "    " ++ toString index ++ ": " ++ cause

def brokenExitCode : Nat := 101

def exitCode : CommandFailure → Nat
  | .overflow => brokenExitCode
  | _ => 1

def runCommand (start : Start) : Ending :=
  match invoke start with
  | .error refusal =>
      let errors := if refusal.exitCode = 0 then [] else [usageText]
      ⟨usageOutput refusal, errors, refusal.exitCode, start.files⟩
  | .ok outcome =>
      match outcome.failure with
      | none => ⟨outcome.output, [], 0, outcome.files⟩
      | some failure =>
          ⟨outcome.output, errorLines failure.chain, exitCode failure, outcome.files⟩

def run (start : Start) : Ending :=
  match start.withEnvironmentFile with
  | .error fault => ⟨"", [fault.message], brokenExitCode, start.files⟩
  | .ok start => runCommand start

end MetricReporting.Program
