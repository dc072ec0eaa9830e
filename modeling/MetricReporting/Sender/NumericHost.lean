import MetricReporting.Config.SocketAddress

/-!
# Hosts given by number

The texts that a lookup of hosts takes for addresses themselves: one to four numbers with points
between them, in decimal, octal or hexadecimal, the last of which fills all the bytes that are left;
or the groups of a longer address, perhaps with a scope. All others are names.
-/
namespace MetricReporting.NumericHost

/-- The number that a text stands for, in the radix that its first characters tell. -/
def part? : List Char → Option Nat
  | '0' :: 'x' :: rest => Text.number? 16 rest
  | '0' :: 'X' :: rest => Text.number? 16 rest
  | '0' :: rest => Text.number? 8 ('0' :: rest)
  | text => Text.number? 10 text

/-- Whether the numbers fit: one byte each, and the last one the bytes that are left. -/
def fits (room : Nat) : List Nat → Bool
  | [] => false
  | [last] => decide (0 < room) && decide (last < Nat.pow 256 room)
  | value :: rest => decide (0 < room) && decide (value < 256) && fits (room - 1) rest

def isShort (host : String) : Bool :=
  match (host.splitOn ".").mapM fun part => part? part.toList with
  | some values => fits 4 values
  | none => false

/-- What follows a percent sign must be the number of a scope. -/
def isScope : List Char → Bool
  | [] => true
  | '%' :: rest => (Text.number? 10 rest).any fun scope => decide (scope < UInt32.size)
  | _ => false

def isLong (host : String) : Bool :=
  (SocketAddress.ipv6 host.toList).any fun (_, rest) => isScope rest

def isNumeric (host : String) : Bool :=
  isShort host || isLong host

end MetricReporting.NumericHost
