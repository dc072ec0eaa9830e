/-!
# Words as bytes

Words travel with their least significant byte first.
-/
namespace MetricReporting

abbrev Bytes := List UInt8

namespace Bytes

/-- The lowest `width` bytes of a number, least significant first. -/
def ofNat : Nat → Nat → Bytes
  | 0, _ => []
  | width + 1, n => UInt8.ofNat (n % 256) :: ofNat width (n / 256)

def toNat : Bytes → Nat
  | [] => 0
  | byte :: rest => byte.toNat + 256 * toNat rest

def ofInt32 (word : Int32) : Bytes :=
  ofNat 4 word.toUInt32.toNat

def ofInt64 (word : Int64) : Bytes :=
  ofNat 8 word.toUInt64.toNat

def toInt32 (bytes : Bytes) : Int32 :=
  Int32.ofNat bytes.toNat

def toInt64 (bytes : Bytes) : Int64 :=
  Int64.ofNat bytes.toNat

def ofText (text : String) : Bytes :=
  text.toUTF8.data.toList

def toText? (bytes : Bytes) : Option String :=
  String.fromUTF8? ⟨bytes.toArray⟩

theorem ofNat_length (width n : Nat) : (ofNat width n).length = width := by
  induction width generalizing n with
  | zero => rfl
  | succ width ih => simp [ofNat, ih]

theorem ofInt32_length (word : Int32) : (ofInt32 word).length = 4 :=
  ofNat_length 4 _

theorem ofInt64_length (word : Int64) : (ofInt64 word).length = 8 :=
  ofNat_length 8 _

end Bytes

end MetricReporting
