import MetricReporting.Text.Scan

/-!
# Tokens of TOML

A TOML text is a sequence of brackets and other marks, quoted texts, words, blanks and line ends.
Words are what stands between the others: bare keys and the unquoted values.
-/
namespace MetricReporting.Toml

open Text (Scanner Quotation)

inductive Token
  | mark (c : Char)
  | blank (text : String)
  | newline
  | comment
  /-- A quoted text; one that may go over several lines can be no key. -/
  | quoted (isLong : Bool) (content : String)
  | word (text : String)
deriving DecidableEq, Repr

def isBlank (c : Char) : Bool :=
  c = ' ' || c = '\t'

def isControl (c : Char) : Bool :=
  (c.toNat < 0x20 && c != '\t') || c.toNat = 0x7F

def afterNewline? : List Char → Option (List Char)
  | '\n' :: rest => some rest
  | '\r' :: '\n' :: rest => some rest
  | _ => none

/-! ## Quoted texts -/

/-- A piece of a quoted text. At a joint the text goes on behind the blanks and line ends. -/
inductive Piece
  | plain (c : Char)
  | escaped (c : Char)
  | joint
deriving DecidableEq, Repr

/-- Which mark ends a quoted text, whether it may have several lines and whether it has escapes. -/
structure Style where
  mark : Char
  isLong : Bool
deriving DecidableEq, Repr

def basic : Style := ⟨'"', false⟩
def literal : Style := ⟨'\'', false⟩
def longBasic : Style := ⟨'"', true⟩
def longLiteral : Style := ⟨'\'', true⟩

def Style.hasEscapes (style : Style) : Bool :=
  style.mark = '"'

def Style.delimiter (style : Style) : List Char :=
  List.replicate (if style.isLong then 3 else 1) style.mark

/-- The end of a quoted text. Before the three marks that end a long one up to two more may stand,
which belong to it. -/
def Style.close? (style : Style) (text : List Char) : Option (List Piece × List Char) :=
  let ending (more : Nat) : Option (List Piece × List Char) :=
    let own := List.replicate more style.mark
    (Text.after? (own ++ style.delimiter) text).map fun rest => (own.map Piece.plain, rest)
  if style.isLong then ending 2 <|> ending 1 <|> ending 0 else ending 0

def scalar? (n : Nat) : Option Char :=
  if n < 0xD800 ∨ (0xE000 ≤ n ∧ n < 0x110000) then some (Char.ofNat n) else none

def escaped? : List Char → Option (Char × Nat)
  | 'b' :: _ => some ('\x08', 1)
  | 'e' :: _ => some ('\x1b', 1)
  | 't' :: _ => some ('\t', 1)
  | 'n' :: _ => some ('\n', 1)
  | 'f' :: _ => some ('\x0c', 1)
  | 'r' :: _ => some ('\r', 1)
  | '"' :: _ => some ('"', 1)
  | '\\' :: _ => some ('\\', 1)
  | 'x' :: rest => ((Text.hexNumber? 2 rest).bind scalar?).map fun c => (c, 3)
  | 'u' :: rest => ((Text.hexNumber? 4 rest).bind scalar?).map fun c => (c, 5)
  | 'U' :: rest => ((Text.hexNumber? 8 rest).bind scalar?).map fun c => (c, 9)
  | _ => none

def endsLine (text : List Char) : Bool :=
  (afterNewline? (text.dropWhile isBlank)).isSome

def Style.piece? (style : Style) (c : Char) (rest : List Char) : Option (Piece × Nat) :=
  if c = '\\' ∧ style.hasEscapes then
    if style.isLong ∧ endsLine rest then some (.joint, 0)
    else (escaped? rest).map fun (c, more) => (.escaped c, more)
  else if c = '\n' ∨ (c = '\r' ∧ rest.head? = some '\n') then
    if style.isLong then some (.plain c, 0) else none
  else if isControl c then none
  else some (.plain c, 0)

def Style.quotation (style : Style) : Quotation Piece := ⟨style.close?, style.piece?⟩

/-- The characters of the pieces; behind a joint, blanks and line ends are left out. -/
def characters (joining : Bool) : List Piece → List Char
  | [] => []
  | .joint :: rest => characters true rest
  | .escaped c :: rest => c :: characters false rest
  | .plain c :: rest =>
      if joining && (isBlank c || c = '\n' || c = '\r') then characters true rest
      else c :: characters false rest

/-- A quoted text behind its opening marks. A line end right there is none of its own. -/
def Style.content (style : Style) : Scanner Token := fun text =>
  let text := if style.isLong then (afterNewline? text).getD text else text
  (style.quotation.scan 0 text).map fun (pieces, rest) =>
    (.quoted style.isLong (String.ofList (characters false pieces)), rest)

/-! ## Tokens -/

def isMark (c : Char) : Bool :=
  ['.', '=', ',', '[', ']', '\x7b', '\x7d'].contains c

def endsWord (c : Char) : Bool :=
  isMark c || isBlank c || c = '\n' || c = '\r' || c = '#'

def run (test : Char → Bool) (text : List Char) : String × List Char :=
  (String.ofList (text.takeWhile test), text.dropWhile test)

def comment : Scanner Token := fun text =>
  let (content, rest) := run (fun c => c != '\n' && c != '\r') text
  if content.toList.any isControl then none else some (.comment, rest)

def token (first : Char) (rest : List Char) : Option (Token × List Char) :=
  let text := first :: rest
  let opened := [longBasic, longLiteral, basic, literal].findSome? fun style =>
    (Text.after? style.delimiter text).map fun rest => (style, rest)
  match opened, afterNewline? text with
  | some (style, rest), _ => style.content rest
  | none, some rest => some (.newline, rest)
  | none, none =>
      if first = '\r' then none
      else if isMark first then some (.mark first, rest)
      else if isBlank first then
        let (blanks, rest) := run isBlank text
        some (.blank blanks, rest)
      else if first = '#' then comment rest
      else
        let (word, rest) := run (fun c => !endsWord c) text
        some (.word word, rest)

def tokens (fuel : Nat) (text : List Char) : Option (List Token) :=
  match fuel, text with
  | _, [] => some []
  | 0, _ :: _ => none
  | fuel + 1, first :: rest => do
      let (token, rest) ← token first rest
      let others ← tokens fuel rest
      some (token :: others)

end MetricReporting.Toml
