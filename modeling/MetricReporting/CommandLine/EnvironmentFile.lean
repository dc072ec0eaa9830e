import MetricReporting.FileTree
import MetricReporting.Host
import MetricReporting.Text.Alphanumeric
import MetricReporting.Text.Blank
import MetricReporting.Text.Scan

/-!
# Environment files

A file of lines that give values to variables. A value may be quoted, also over several lines, may
use the values of other variables, and may be followed by a comment. Variables that are set already
keep their values, and the first line that cannot be read ends the file. A value that no variable
can have is a fault.
-/
namespace MetricReporting.EnvironmentFile

/-! ## Lines -/

/-- What the characters of a line stand in. -/
inductive Setting
  | bare
  | afterBlank
  | bareEscape
  | weak
  | weakEscape
  | strong
  | strongEscape
  | comment
deriving DecidableEq, Repr

namespace Setting

def leave (c : Char) : Setting :=
  match c with
  | '\\' => bareEscape
  | '"' => weak
  | '\'' => strong
  | _ => bare

def step (setting : Setting) (c : Char) : Setting :=
  match setting with
  | bare => if Text.isBlank c && c != '\r' then afterBlank else leave c
  | afterBlank => if c = '#' then comment else leave c
  | bareEscape => bare
  | weak => if c = '\\' then weakEscape else if c = '"' then bare else weak
  | weakEscape => weak
  | strong => if c = '\\' then strongEscape else if c = '\'' then bare else strong
  | strongEscape => strong
  | comment => comment

def isQuoted : Setting → Bool
  | weak | weakEscape | strong | strongEscape => true
  | _ => false

def isComplete : Setting → Bool
  | bare | comment => true
  | _ => false

end Setting

def gathered (line : List Char) : List Char :=
  (line.dropWhile Text.isBlank).reverse

/-- The lines of a text; a quoted line end does not end a line, and comments behind a blank are
left out. A text that ends within quotes or behind a blank loses its last line. -/
def lines (setting : Setting) (line : List Char) : List Char → List (List Char)
  | [] => if setting.isComplete then [gathered line] else []
  | c :: rest =>
      if c = '\n' ∧ !setting.isQuoted then gathered line :: lines .bare [] rest
      else
        let setting := if c = '#' ∧ line.all Text.isBlank then .comment else setting.step c
        if setting = .comment then lines setting line rest
        else lines setting (c :: line) rest

/-- The characters of a file up to the first line that is not text, if there is one. The bytes of
the line at hand are gathered last one first. -/
def legible (line : Bytes) : Bytes → List Char
  | [] => ((Bytes.toText? line.reverse).getD "").toList
  | byte :: rest =>
      if byte = 10 then
        match Bytes.toText? (byte :: line).reverse with
        | some text => text.toList ++ legible [] rest
        | none => []
      else legible (byte :: line) rest

/-! ## Values -/

structure Reference where
  isBraced : Bool := false
  name : List Char := []

structure Reading where
  setting : Setting := .bare
  /-- The characters read, the last one first. -/
  output : List Char := []
  reference : Option Reference := none

namespace Reading

def push (reading : Reading) (c : Char) : Reading :=
  { reading with output := c :: reading.output }

def resolve (lookup : String → String) (reading : Reading) : Reading :=
  match reading.reference with
  | none => reading
  | some reference =>
      let value := lookup (String.ofList reference.name.reverse)
      { reading with output := value.toList.reverse ++ reading.output, reference := none }

def stepReference (lookup : String → String) (reading : Reading) (reference : Reference)
    (c : Char) : Reading :=
  if Text.isAlphanumeric c then
    { reading with reference := some { reference with name := c :: reference.name } }
  else if reference.isBraced then
    if c = '\x7d' then reading.resolve lookup
    else { reading with reference := some { reference with name := c :: reference.name } }
  else if c = '\x7b' ∧ reference.name = [] then
    { reading with reference := some ⟨true, []⟩ }
  else
    let resolved := reading.resolve lookup
    if c = '$' then { resolved with reference := some {} } else resolved.push c

def escaped? : Char → Option Char
  | 'n' => some '\n'
  | c => if ['\\', '\'', '"', '$', ' '].contains c then some c else none

def step (lookup : String → String) (reading : Reading) (c : Char) : Option Reading :=
  match reading.setting, reading.reference with
  | .comment, _ => some reading
  | .afterBlank, _ =>
      if c = ' ' ∨ c = '\t' then some reading
      else if c = '#' then some { reading with setting := .comment }
      else none
  | .bareEscape, _ =>
      (escaped? c).map fun c => { reading.push c with setting := .bare }
  | .weakEscape, _ =>
      (escaped? c).map fun c => { reading.push c with setting := .weak }
  | .strong, _ | .strongEscape, _ =>
      some (if c = '\'' then { reading with setting := .bare } else reading.push c)
  | _, some reference => some (reading.stepReference lookup reference c)
  | .weak, none =>
      if c = '$' then some { reading with reference := some {} }
      else if c = '"' then some { reading with setting := .bare }
      else if c = '\\' then some { reading with setting := .weakEscape }
      else some (reading.push c)
  | .bare, none =>
      if c = '$' then some { reading with reference := some {} }
      else if c = ' ' ∨ c = '\t' then some { reading with setting := .afterBlank }
      else
        match Setting.leave c with
        | .bare => some (reading.push c)
        | setting => some { reading with setting := setting }

end Reading

def value? (lookup : String → String) (text : List Char) : Option String := do
  let reading ← text.foldlM (Reading.step lookup) {}
  let isBraced := reading.reference.any Reference.isBraced
  if reading.setting.isQuoted || isBraced then none
  else some (String.ofList (reading.resolve lookup).output.reverse)

/-! ## Variables -/

def skipBlanks (text : List Char) : List Char :=
  text.dropWhile Text.isBlank

def name? : List Char → Option (String × List Char)
  | [] => none
  | c :: rest =>
      if c.isAlpha || c = '_' then
        let isPart (c : Char) := c.isAlphanum || c = '_' || c = '.'
        some (String.ofList (c :: rest.takeWhile isPart), skipBlanks (rest.dropWhile isPart))
      else none

def nameAndRest? (text : List Char) : Option (String × List Char) := do
  let (name, rest) ← name? text
  match rest with
  | '=' :: rest => some (name, rest)
  | rest =>
      if name ≠ "export" then none
      else
        match ← name? rest with
        | (name, '=' :: rest) => some (name, rest)
        | _ => none

def entry? (lookup : String → String) (line : List Char) : Option (Option (String × String)) :=
  match skipBlanks line with
  | [] => some none
  | '#' :: _ => some none
  | text => do
      let (name, rest) ← nameAndRest? text
      match skipBlanks rest with
      | [] => some (some (name, ""))
      | '#' :: _ => some (some (name, ""))
      | rest => (value? lookup rest).map fun value => some (name, value)

def define (environment : Environment) (name value : String) : Environment := fun other =>
  match environment other with
  | some found => some found
  | none => if other = name then some value else none

/-- What a name stands for. An entry of the environment is a name, an equals sign and a value, and
is found by any name that it begins with up to an equals sign, also one that goes on in the
value. -/
def lookup (environment : Environment) (name : String) : Option String :=
  let front := name.toList.takeWhile (· ≠ '=')
  match name.toList.drop front.length with
  | [] => environment name
  | _ :: more =>
      (environment (String.ofList front)).bind fun value =>
        (Text.after? (more ++ ['=']) value.toList).map String.ofList

inductive Fault
  /-- A value holds the character that ends all values. -/
  | zeroInValue (name : String)
deriving DecidableEq, Repr

def Fault.message : Fault → String
  | zeroInValue name => "cannot set " ++ name ++ ": its value holds a NUL character"

def readLines (environment : Environment) : List (List Char) → Except Fault Environment
  | [] => .ok environment
  | line :: rest =>
      match entry? (fun name => (lookup environment name).getD "") line with
      | none => .ok environment
      | some none => readLines environment rest
      | some (some (name, value)) =>
          if (environment name).isNone ∧ value.toList.contains '\x00' then
            .error (.zeroInValue name)
          else readLines (define environment name value) rest

def path : String := ".env"

def byteOrderMark : Char := '\uFEFF'

def extend (files : FileTree) (environment : Environment) : Except Fault Environment :=
  match files.read path with
  | .error _ => .ok environment
  | .ok bytes =>
      let characters := legible [] bytes
      let characters :=
        if characters.head? = some byteOrderMark then characters.drop 1 else characters
      readLines environment (lines .bare [] characters)

end MetricReporting.EnvironmentFile
