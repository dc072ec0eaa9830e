import MetricReporting.Text.Scan

/-!
# Socket addresses

The texts that name an address and a port: four decimal numbers, or up to eight hexadecimal groups
in brackets with an optional scope, and then the port. Names of hosts are none.
-/
namespace MetricReporting.SocketAddress

open Text (Scanner digits ofDigits)

structure NumberForm where
  radix : Nat
  maxDigits : Option Nat
  leadingZeros : Bool
  bound : Nat

def octet : NumberForm := ⟨10, some 3, false, 256⟩
def group : NumberForm := ⟨16, some 4, true, 65536⟩
def port : NumberForm := ⟨10, none, true, 65536⟩
def scope : NumberForm := ⟨10, none, true, 4294967296⟩

def number (form : NumberForm) : Scanner Nat := fun text =>
  let (values, rest) := digits form.radix text
  let value := ofDigits form.radix values
  if values = [] then none
  else if (form.maxDigits.any fun most => decide (most < values.length)) then none
  else if !form.leadingZeros && values.head? == some 0 && decide (1 < values.length) then none
  else if form.bound ≤ value then none
  else some (value, rest)

def char (wanted : Char) : Scanner Unit
  | c :: rest => if c = wanted then some ((), rest) else none
  | [] => none

def separated {α : Type} (separator : Char) (index : Nat) (item : Scanner α) : Scanner α :=
  fun text =>
    if index = 0 then item text
    else (char separator text).bind fun (_, rest) => item rest

def ipv4 : Scanner (List Nat) := fun text => do
  let (a, text) ← number octet text
  let (b, text) ← separated '.' 1 (number octet) text
  let (c, text) ← separated '.' 1 (number octet) text
  let (d, text) ← separated '.' 1 (number octet) text
  some ([a, b, c, d], text)

/-- Up to `room` groups; the last two may be written as four decimal numbers. Says how many
groups were read and whether they end so. -/
def groups : Nat → Nat → List Char → Nat × Bool × List Char
  | 0, index, text => (index, false, text)
  | room + 1, index, text =>
      let embedded := if room = 0 then none else separated ':' index ipv4 text
      match embedded with
      | some (_, rest) => (index + 2, true, rest)
      | none =>
          match separated ':' index (number group) text with
          | some (_, rest) => groups room (index + 1) rest
          | none => (index, false, text)

def ipv6 : Scanner Unit := fun text =>
  match groups 8 0 text with
  | (8, _, rest) => some ((), rest)
  | (_, true, _) => none
  | (size, false, rest) => do
      let (_, rest) ← char ':' rest
      let (_, rest) ← char ':' rest
      let (_, _, rest) := groups (8 - (size + 1)) 0 rest
      some ((), rest)

def v4 : Scanner Unit := fun text => do
  let (_, text) ← ipv4 text
  let (_, text) ← char ':' text
  let (_, text) ← number port text
  some ((), text)

def optionalScope : Scanner Unit := fun text =>
  match char '%' text with
  | none => some ((), text)
  | some (_, rest) =>
      match number scope rest with
      | none => some ((), text)
      | some (_, rest) => some ((), rest)

def v6 : Scanner Unit := fun text => do
  let (_, text) ← char '[' text
  let (_, text) ← ipv6 text
  let (_, text) ← optionalScope text
  let (_, text) ← char ']' text
  let (_, text) ← char ':' text
  let (_, text) ← number port text
  some ((), text)

def isValid (text : String) : Bool :=
  let whole (scanner : Scanner Unit) := (scanner text.toList).any fun (_, rest) => rest.isEmpty
  whole v4 || whole v6

end MetricReporting.SocketAddress
