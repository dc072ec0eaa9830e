/-!
# Reading texts from the front

A scanner takes a value off the front of a text and leaves the rest. Here are the scanners that
several forms of text share: digits in a radix, fixed words, and quoted text piece by piece.
-/
namespace MetricReporting.Text

/-- Takes a value off the front of the text, if one stands there. -/
abbrev Scanner (α : Type) := List Char → Option (α × List Char)

def digitValue (radix : Nat) (c : Char) : Option Nat :=
  let value? :=
    if '0' ≤ c ∧ c ≤ '9' then some (c.toNat - '0'.toNat)
    else if 'a' ≤ c ∧ c ≤ 'f' then some (c.toNat - 'a'.toNat + 10)
    else if 'A' ≤ c ∧ c ≤ 'F' then some (c.toNat - 'A'.toNat + 10)
    else none
  value?.filter fun value => decide (value < radix)

def digits (radix : Nat) : List Char → List Nat × List Char
  | [] => ([], [])
  | c :: rest =>
      match digitValue radix c with
      | none => ([], c :: rest)
      | some value =>
          let (values, after) := digits radix rest
          (value :: values, after)

def ofDigits (radix : Nat) (values : List Nat) : Nat :=
  values.foldl (fun total value => total * radix + value) 0

def number? (radix : Nat) (text : List Char) : Option Nat :=
  match digits radix text with
  | (value :: values, []) => some (ofDigits radix (value :: values))
  | _ => none

def hexNumber? (width : Nat) (text : List Char) : Option Nat :=
  if width ≤ text.length then number? 16 (text.take width) else none

def after? : List Char → List Char → Option (List Char)
  | [], text => some text
  | _ :: _, [] => none
  | w :: word, c :: text => if c = w then after? word text else none

/-- How a text is quoted: what ends it and which piece stands at its front. -/
structure Quotation (π : Type) where
  /-- The last pieces and the rest, if the text ends here. -/
  close? : List Char → Option (List π × List Char)
  /-- The piece that begins with a character, and how many more characters it takes. -/
  piece? : Char → List Char → Option (π × Nat)

/-- The pieces up to the end of the quoted text, from behind the characters to be passed over. -/
def Quotation.scan {π : Type} (quotation : Quotation π) : Nat → Scanner (List π)
  | _, [] => none
  | skipped + 1, _ :: rest => quotation.scan skipped rest
  | 0, c :: rest =>
      match quotation.close? (c :: rest) with
      | some ending => some ending
      | none =>
          match quotation.piece? c rest with
          | none => none
          | some (piece, more) =>
              (quotation.scan more rest).map fun (pieces, after) => (piece :: pieces, after)

theorem after?_eq_some_iff {word text rest : List Char} :
    after? word text = some rest ↔ text = word ++ rest := by
  induction word generalizing text with
  | nil => simp [after?, eq_comm]
  | cons w word ih =>
    cases text with
    | nil => simp [after?]
    | cons c text =>
      by_cases h : c = w
      · simp [after?, h, ih]
      · simp [after?, h]

end MetricReporting.Text
