import MetricReporting.Toml.Scalar
import MetricReporting.Toml.Table
import MetricReporting.Toml.Token

/-!
# Reading TOML

The record that a TOML document stands for: line by line, a key with a value or the header of a
table.
-/
namespace MetricReporting.Toml

abbrev Taker (α : Type) := List Token → Option (α × List Token)

def skipBlanks : List Token → List Token
  | .blank _ :: rest => skipBlanks rest
  | tokens => tokens

def skipLines : List Token → List Token
  | .blank _ :: rest => skipLines rest
  | .newline :: rest => skipLines rest
  | .comment :: rest => skipLines rest
  | tokens => tokens

/-! ## Keys -/

def isBare (c : Char) : Bool :=
  c.isAlphanum || c = '_' || c = '-'

def keyPart? : Token → Option String
  | .word text => if text.toList.all isBare then some text else none
  | .quoted false text => some text
  | _ => none

/-- The parts of a key that follow its first one: all but the last, the last, and the rest. -/
def keyRest (first : String) : List Token → Option ((List String × String) × List Token)
  | .blank _ :: .mark '.' :: .blank _ :: part :: rest => dotted part rest
  | .blank _ :: .mark '.' :: part :: rest => dotted part rest
  | .mark '.' :: .blank _ :: part :: rest => dotted part rest
  | .mark '.' :: part :: rest => dotted part rest
  | tokens => some (([], first), tokens)
where
  dotted (part : Token) (rest : List Token) : Option ((List String × String) × List Token) :=
    (keyPart? part).bind fun next =>
      (keyRest next rest).map fun ((path, name), rest) => ((first :: path, name), rest)

/-- How many lists and inline tables may lie in each other, and how many parts a key may have. -/
def deepest : Nat := 80

def key : Taker (List String × String)
  | part :: rest => do
      let first ← keyPart? part
      let ((path, name), rest) ← keyRest first rest
      if path.length < deepest then some ((path, name), rest) else none
  | [] => none

/-! ## Values -/

def words : List Token → String × List Token
  | .word text :: rest => let (more, rest) := words rest; (text ++ more, rest)
  | .mark '.' :: rest => let (more, rest) := words rest; ("." ++ more, rest)
  | tokens => ("", tokens)

def unquoted : Taker Value := fun tokens =>
  let (text, rest) := words tokens
  let (text, rest) :=
    match rest with
    | .blank " " :: .word next :: more =>
        if isDate text ∧ (next.toList.head?.any fun c => (Text.digitValue 10 c).isSome) then
          let (last, rest) := words (.word next :: more)
          (text ++ " " ++ last, rest)
        else (text, rest)
    | rest => (text, rest)
  (unquoted? text).map fun value => (value, rest)

mutual

/-- A value, found in at most `fuel` steps. -/
def value (fuel room : Nat) (tokens : List Token) : Option (Value × List Token) :=
  match fuel with
  | 0 => none
  | fuel + 1 =>
      match tokens with
      | .quoted _ text :: rest => some (.text text, rest)
      | .mark '[' :: rest =>
          if room = 0 then none
          else (items fuel (room - 1) (skipLines rest)).map fun (items, rest) => (.list items, rest)
      | .mark '\x7b' :: rest =>
          if room = 0 then none
          else
            (pairs fuel (room - 1) [] (skipLines rest)).map fun (entries, rest) =>
              (.record (Item.toFields entries), rest)
      | tokens => unquoted tokens

def items (fuel room : Nat) (tokens : List Token) : Option (List Value × List Token) :=
  match fuel, tokens with
  | 0, _ => none
  | _ + 1, .mark ']' :: rest => some ([], rest)
  | fuel + 1, tokens => do
      let (item, rest) ← value fuel room tokens
      match skipLines rest with
      | .mark ']' :: rest => some ([item], rest)
      | .mark ',' :: rest =>
          (items fuel room (skipLines rest)).map fun (items, rest) => (item :: items, rest)
      | _ => none

def pairs (fuel room : Nat) (entries : Entries) (tokens : List Token) :
    Option (Entries × List Token) :=
  match fuel, tokens with
  | 0, _ => none
  | _ + 1, .mark '\x7d' :: rest => some (entries, rest)
  | fuel + 1, tokens => do
      let (((path, name), assigned), rest) ← pair fuel room skipLines tokens
      let entries ← entries.assign path name assigned .header
      match skipLines rest with
      | .mark '\x7d' :: rest => some (entries, rest)
      | .mark ',' :: rest => pairs fuel room entries (skipLines rest)
      | _ => none

def pair (fuel room : Nat) (skip : List Token → List Token) (tokens : List Token) :
    Option (((List String × String) × Value) × List Token) :=
  match fuel with
  | 0 => none
  | fuel + 1 => do
      let (key, rest) ← key tokens
      match skip rest with
      | .mark '=' :: rest =>
          (value fuel room (skip rest)).map fun (value, rest) => ((key, value), rest)
      | _ => none

end

/-! ## Documents -/

/-- The tables read so far and the path of the one that is being filled. -/
structure Document where
  entries : Entries := []
  current : List String := []

namespace Document

def assign (document : Document) (key : List String × String) (value : Value) : Option Document :=
  (document.entries.change false (Entries.assign key.1 key.2 value · ·)
    document.current .header).map
    fun entries => { document with entries }

def openTable (document : Document) (key : List String × String) : Option Document :=
  (document.entries.openTable key.1 key.2).map fun entries => ⟨entries, key.1 ++ [key.2]⟩

def openElement (document : Document) (key : List String × String) : Option Document :=
  (document.entries.openElement key.1 key.2).map fun entries => ⟨entries, key.1 ++ [key.2]⟩

end Document

def endOfLine (tokens : List Token) : Option (List Token) :=
  match skipBlanks tokens with
  | [] => some []
  | .newline :: rest => some rest
  | [.comment] => some []
  | .comment :: .newline :: rest => some rest
  | _ => none

def line (document : Document) (tokens : List Token) : Option (Document × List Token) :=
  match tokens with
  | .mark '[' :: .mark '[' :: rest => do
      let (key, rest) ← key (skipBlanks rest)
      match skipBlanks rest with
      | .mark ']' :: .mark ']' :: rest =>
          (document.openElement key).map fun document => (document, rest)
      | _ => none
  | .mark '[' :: rest => do
      let (key, rest) ← key (skipBlanks rest)
      match skipBlanks rest with
      | .mark ']' :: rest => (document.openTable key).map fun document => (document, rest)
      | _ => none
  | tokens => do
      let ((key, value), rest) ← pair (2 * tokens.length + 2) deepest skipBlanks tokens
      (document.assign key value).map fun document => (document, rest)

def lines (fuel : Nat) (document : Document) (tokens : List Token) : Option Document :=
  match fuel with
  | 0 => none
  | fuel + 1 =>
      match skipLines tokens with
      | [] => some document
      | tokens => do
          let (document, rest) ← line document tokens
          let rest ← endOfLine rest
          lines fuel document rest

/-- The character that may stand before everything else and means nothing. -/
def byteOrderMark : Char := '\uFEFF'

def read? (text : String) : Option Value := do
  let characters := (Text.after? [byteOrderMark] text.toList).getD text.toList
  let tokens ← tokens characters.length characters
  let document ← lines (tokens.length + 1) {} tokens
  some (.record (Item.toFields document.entries))

end MetricReporting.Toml
