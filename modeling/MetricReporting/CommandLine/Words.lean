import MetricReporting.CommandLine.Matches

/-!
# Reading the words of a command line

Words are options, values of options, positional arguments, or the command whose own words follow.
Behind two dashes alone everything is positional.
-/
namespace MetricReporting.CommandLine

/-- What was found so far, and whether the next word may be the value of an option. -/
abbrev Progress := Matches × Bool

def readOption (found : Matches) (argument : Argument) (attached : Option String) :
    Except UsageError Progress :=
  match argument.action.takesValue, attached with
  | true, some value => do
      let found ← found.settle
      let found ← found.record argument .commandLine [value]
      .ok (found, false)
  | true, none => do
      let found ← found.settle
      .ok (found.await argument [], true)
  | false, some _ => .error .needlessValue
  | false, none => do
      let found ← found.settle
      let found ← found.record argument .commandLine []
      .ok (found, false)

def readLetters (level : Level) (found : Matches) : List Char → Except UsageError Progress
  | [] => .ok (found, false)
  | c :: rest =>
      match level.short? c with
      | none => .error .unknownArgument
      | some argument =>
          if argument.action.takesValue then
            let value := if rest.head? = some '=' then rest.drop 1 else rest
            readOption found argument (if rest = [] then none else some (String.ofList value))
          else do
            let (found, _) ← readOption found argument none
            readLetters level found rest

def readName (level : Level) (found : Matches) (word : List Char) : Except UsageError Progress :=
  let name := word.takeWhile (· != '=')
  let attached :=
    match word.drop name.length with
    | [] => none
    | _ :: value => some (String.ofList value)
  match level.long? (String.ofList name) with
  | none => .error .unknownArgument
  | some argument => readOption found argument attached

def readPositional (level : Level) (found : Matches) (isLast : Bool) (word : String) :
    Except UsageError Matches :=
  match level.positional with
  | some argument =>
      match found.waiting with
      | some (waiting, values) =>
          if waiting.name = argument.name then .ok (found.await argument (values ++ [word]))
          else do
            let found ← found.settle
            .ok (found.await argument [word])
      | none => .ok (found.await argument [word])
  | none =>
      if level.commands = [] ∨ (isLast ∧ level.commands.contains word) then .error .unknownArgument
      else .error .unknownCommand

def readValue (found : Matches) (word : String) : Matches :=
  match found.waiting with
  | some (argument, values) => found.await argument (values ++ [word])
  | none => found

/-- The words up to a command, which is left with its own words. -/
def readWords (level : Level) : Progress → List String →
    Except UsageError (Matches × Option (String × List String))
  | (found, _), [] => .ok (found, none)
  | (found, awaited), word :: rest =>
      if !awaited && level.commands.contains word then .ok (found, some (word, rest))
      else
        match word.toList with
        | ['-', '-'] => do
            let found ← rest.foldlM (fun found word => readPositional level found true word) found
            .ok (found, none)
        | '-' :: '-' :: name => do
            let progress ← readName level found name
            readWords level progress rest
        | '-' :: c :: letters => do
            let progress ← readLetters level found (c :: letters)
            readWords level progress rest
        | _ =>
            if awaited then readWords level (readValue found word, false) rest
            else do
              let found ← readPositional level found false word
              readWords level (found, false) rest

def finish (environment : Environment) (level : Level) (hasCommand : Bool) (found : Matches) :
    Except UsageError Matches := do
  let found ← found.settle
  let found ← Matches.readEnvironment environment level.options found
  Matches.check level hasCommand found
  .ok found

end MetricReporting.CommandLine
