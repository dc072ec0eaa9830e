import MetricReporting.Payload.Bytes
import MetricReporting.Payload.Error
import MetricReporting.Ticks

/-!
# Reading fields

A reader takes fields off the front of the bytes that are left. What all formats share stands here:
words, counts, times given as a distance from a base, and the header.
-/
namespace MetricReporting.Payload

def version : Int64 := 1

/-- Takes a value off the front of the bytes, or says what is wrong with them. -/
abbrev Reader (α : Type) := StateT Bytes (Except DecodeError) α

namespace Reader

def bytes (field : Field) (count : Nat) : Reader Bytes := fun rest =>
  let head := rest.take count
  if head.length < count then .error (.truncated field count rest.length)
  else .ok (head, rest.drop count)

def int64 (field : Field) : Reader Int64 := do
  return (← bytes field 8).toInt64

def int32 (field : Field) : Reader Int32 := do
  return (← bytes field 4).toInt32

def count (field : Field) : Reader Nat := do
  let value ← int32 field
  if value < 0 then throw (.negativeCount field value) else return value.toInt.toNat

def ticks (base : Int64) : Reader Int64 := do
  let delta ← int32 .delta
  let sum := base.toInt + delta.toInt
  if Ticks.Representable sum then return Int64.ofInt sum else throw (.timestampOverflow base delta)

def header : Reader Int64 := do
  let found ← int64 .version
  if found ≠ version then throw (.unsupportedVersion found)
  int64 .baseTicks

def many {α : Type} (item : Reader α) : Nat → Reader (List α)
  | 0 => return []
  | n + 1 => do
      let head ← item
      let tail ← many item n
      return head :: tail

end Reader

end MetricReporting.Payload
