/-!
# Blank characters

The characters with the property White_Space, and the text operations that depend on them.
-/
namespace MetricReporting.Text

def blankRanges : List (Nat × Nat) :=
  [(0x09, 0x0D), (0x20, 0x20), (0x85, 0x85), (0xA0, 0xA0), (0x1680, 0x1680), (0x2000, 0x200A),
    (0x2028, 0x2029), (0x202F, 0x202F), (0x205F, 0x205F), (0x3000, 0x3000)]

def isBlank (c : Char) : Bool :=
  blankRanges.any fun (low, high) => decide (low ≤ c.toNat ∧ c.toNat ≤ high)

def withoutBlanks (text : String) : String :=
  String.ofList (text.toList.filter fun c => !isBlank c)

def allBlank (text : String) : Bool :=
  text.toList.all isBlank

end MetricReporting.Text
