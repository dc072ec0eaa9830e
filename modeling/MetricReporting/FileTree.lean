import MetricReporting.Keyed
import MetricReporting.OsError
import MetricReporting.Payload.Bytes

/-!
# File trees

The files and directories around a working directory, as far as the program reads and writes them,
with the refusals of the operating system. Paths are texts with slashes between the names.
-/
namespace MetricReporting

/-- The names on the way from the working directory to a node; two dots lead to the directory above,
and only stand in front of all names. -/
abbrev Trail := List String

inductive FileTree.Node
  | file (content : Bytes)
  | directory
deriving DecidableEq, Repr

structure FileTree where
  /-- Every node but the working directory and those that it lies in. -/
  nodes : List (Trail × FileTree.Node) := []
deriving DecidableEq, Repr, Inhabited

namespace FileTree

def rootName : String := "/"

def aboveName : String := ".."

def selfName : String := "."

def isBase (trail : Trail) : Bool :=
  trail == [rootName] || trail.all (· == aboveName)

def node? (tree : FileTree) (trail : Trail) : Option Node :=
  if isBase trail then some .directory else Keyed.find? trail tree.nodes

def put (tree : FileTree) (trail : Trail) (node : Node) : FileTree :=
  ⟨Keyed.adjust trail (fun _ => node) tree.nodes⟩

def parts (path : String) : List String :=
  (path.toList.splitOn '/').map String.ofList

/-- The names of a path; empty names and single dots lead nowhere. -/
def names (path : String) : List String :=
  let named := (parts path).filter fun name => name ≠ "" ∧ name ≠ selfName
  if path.startsWith "/" then rootName :: named else named

def endsInSelf (path : String) : Bool :=
  ((parts path).filter (· ≠ "")).getLast? == some selfName

/-- The names of a path, and a single dot behind them if the path can only mean a directory. -/
def steps (path : String) : List String :=
  names path ++ if path.endsWith "/" || endsInSelf path then [selfName] else []

/-- As above for a directory to be made, which a slash at the end says nothing about. -/
def stepsToMake (path : String) : List String :=
  names path ++ if endsInSelf path then [selfName] else []

def longestName : Nat := 255

def longestPath : Nat := 4095

def checkPath (path : String) : Except OsError Unit :=
  if path.toList.contains '\x00' then .error .zeroInPath
  else if path = "" then .error .noSuchFile
  else if path.utf8ByteSize > longestPath then .error .nameTooLong
  else .ok ()

def enter (trail : Trail) (name : String) : Trail :=
  if name = selfName then trail
  else if name ≠ aboveName then trail ++ [name]
  else if trail = [rootName] then trail
  else if trail.all (· == aboveName) then trail ++ [name]
  else trail.dropLast

def checkName (name : String) : Except OsError Unit :=
  if name.utf8ByteSize > longestName then .error .nameTooLong else .ok ()

def walk (tree : FileTree) (trail : Trail) : List String → Except OsError Trail
  | [] => .ok trail
  | name :: rest => do
      checkName name
      let next := enter trail name
      match tree.node? next with
      | none => .error .noSuchFile
      | some (.file _) => .error .notADirectory
      | some .directory => tree.walk next rest

def follow (tree : FileTree) (steps : List String) : Except OsError Trail := do
  let trail ← tree.walk [] steps.dropLast
  match steps.getLast? with
  | none => .ok trail
  | some name => do
      checkName name
      .ok (enter trail name)

def locate (tree : FileTree) (path : String) : Except OsError Trail := do
  checkPath path
  tree.follow (steps path)

def read (tree : FileTree) (path : String) : Except OsError Bytes := do
  let trail ← tree.locate path
  match tree.node? trail with
  | none => .error .noSuchFile
  | some .directory => .error .isADirectory
  | some (.file content) => .ok content

def readText (tree : FileTree) (path : String) : Except OsError String := do
  match (← tree.read path).toText? with
  | some text => .ok text
  | none => .error .notText

def contains (tree : FileTree) (path : String) : Bool :=
  match tree.locate path with
  | .error _ => false
  | .ok trail => (tree.node? trail).isSome

def write (tree : FileTree) (path : String) (content : Bytes) : Except OsError FileTree := do
  let trail ← tree.locate path
  match tree.node? trail with
  | some .directory => .error .isADirectory
  | _ => .ok (tree.put trail (.file content))

/-! ## Making directories -/

def makeDirectory (tree : FileTree) (steps : List String) : Except OsError FileTree := do
  let trail ← tree.follow steps
  match tree.node? trail with
  | some _ => .error .alreadyExists
  | none => .ok (tree.put trail .directory)

def isDirectory (tree : FileTree) (steps : List String) : Bool :=
  match tree.walk [] steps with
  | .error _ => false
  | .ok _ => true

/-- The refusal of a directory that could not be made, unless it is there. -/
def unlessThere (tree : FileTree) (steps : List String) (refusal : OsError) :
    Except OsError FileTree :=
  if tree.isDirectory steps then .ok tree else .error refusal

/-- Makes a directory. Where one that it lies in is missing, it is tried once more behind them. -/
def makeBehind (tree : FileTree) (steps : List String) (above : Except OsError FileTree) :
    Except OsError FileTree :=
  match tree.makeDirectory steps with
  | .ok made => .ok made
  | .error .noSuchFile => do
      let tree ← above
      match tree.makeDirectory steps with
      | .ok made => .ok made
      | .error refusal => tree.unlessThere steps refusal
  | .error refusal => tree.unlessThere steps refusal

def makeAlong (tree : FileTree) (names : List String) : Nat → Except OsError FileTree
  | 0 => .ok tree
  | n + 1 => tree.makeBehind (names.take (n + 1)) (makeAlong tree names n)

/-- Makes a directory and those it lies in, as far as they are missing. A single dot at the end
leads into the directory before it, which is not made for its sake. -/
def makeDirectories (tree : FileTree) (path : String) : Except OsError FileTree :=
  if path = "" then .ok tree
  else do
    checkPath path
    let names := names path
    tree.makeBehind (stepsToMake path) (tree.makeAlong names (names.length - 1))

def parentPath (path : String) : String :=
  "/".intercalate (parts path).dropLast

/-- Puts a file where a path says, with the directories it lies in; a path with a slash at its end
is a directory. -/
def place (tree : FileTree) (path : String) (content : Bytes) : Except OsError FileTree :=
  if path.endsWith "/" then tree.makeDirectories path
  else do
    let tree ← tree.makeDirectories (parentPath path)
    tree.write path content

def filesIn (tree : FileTree) (path : String) : List (String × Bytes) :=
  match tree.locate path with
  | .error _ => []
  | .ok trail =>
      let found := tree.nodes.filterMap fun (trailOf, node) =>
        match node with
        | .directory => none
        | .file content =>
            if trailOf.dropLast = trail
              then trailOf.getLast?.map fun name => (name, content) else none
      found.mergeSort fun a b => decide (a.1 ≤ b.1)

/-- A path below a directory; a name that starts at the root is taken as it is. -/
def join (directory name : String) : String :=
  if name.startsWith "/" then name
  else if directory = "" ∨ directory.endsWith "/" then directory ++ name
  else directory ++ "/" ++ name

theorem node?_put_self (tree : FileTree) {trail : Trail} (node : Node)
    (hbase : isBase trail = false) : (tree.put trail node).node? trail = some node := by
  simp [node?, put, hbase, Keyed.find?_adjust_self]

end FileTree

end MetricReporting
