import MetricReporting.Program

/-!
# Command line

Reads the files that the command line names, runs the program on them, and puts its output, its
errors and its files where they belong. Time passes inside the program only.
-/
namespace MetricReporting.Main

def variableNames : List String :=
  ["HOSTNAME", "COMPUTERNAME", "METRICS_REPORTER_VERBOSE", "METRICS_REPORTER_LOG_FORMAT",
    "METRICS_REPORTER_CONFIG", "METRICS_REPORTER_DURATION", "METRICS_REPORTER_PRODUCERS",
    "METRICS_REPORTER_RATE", "METRICS_REPORTER_BUFFER_CAPACITY", "METRICS_REPORTER_METRICS_PORT"]

def readEnvironment : IO Environment := do
  let mut set : List (String × String) := []
  for name in variableNames do
    match ← IO.getEnv name with
    | some value => set := (name, value) :: set
    | none => pure ()
  let known := set
  return fun name => Keyed.find? name known

def addFile (files : FileTree) (path : String) : IO FileTree := do
  try
    let content ← IO.FS.readBinFile path
    return (files.place path content.toList).toOption.getD files
  catch
    | .noFileOrDirectory .. => return files
    | _ => return (files.makeDirectories path).toOption.getD files

def pathsOf : Command → List String
  | .run options => [options.configPath]
  | .validate options => [options.configPath]
  | .info options => [options.configPath]
  | .decode options => options.paths

def writeFiles (before after : FileTree) : IO Unit := do
  for (trail, node) in after.nodes do
    let path := "/".intercalate trail
    if before.node? trail = some node then continue
    match node with
    | .directory => IO.FS.createDirAll path
    | .file content => IO.FS.writeBinFile path (ByteArray.mk content.toArray)

end MetricReporting.Main

open MetricReporting in
def main (words : List String) : IO UInt32 := do
  let environment ← Main.readEnvironment
  let dotFiles ← Main.addFile {} EnvironmentFile.path
  let extended := (EnvironmentFile.extend dotFiles environment).toOption.getD environment
  let paths :=
    match Invocation.parse extended words with
    | .ok invocation => Main.pathsOf invocation.command
    | .error _ => []
  let files ← paths.foldlM Main.addFile dotFiles
  let hostId ← IO.getRandomBytes 16
  let ending := Program.run
    { words := words
      environment := environment
      network := .offline
      files := files
      hostId := hostId.toList }
  Main.writeFiles files ending.files
  IO.print ending.output
  for line in ending.errors do
    IO.eprintln line
  return UInt32.ofNat ending.exitCode
