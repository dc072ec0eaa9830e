import MetricReporting.Config.Value
import MetricReporting.Payload.Decode
import MetricReporting.Ticks

/-!
# Listings of payloads

What a tagged payload holds, tag by tag in ascending order of the names: how many values, their
least and greatest, and the times of the first and the last. Times are in milliseconds since 1970;
one that fits no 64-bit word ends the listing.
-/
namespace MetricReporting

open Payload (TimedValue Message Pool DecodeError)

structure TimedMillis where
  millis : Int64
  value : Int64
deriving DecidableEq, Repr

structure TagSummary where
  tag : String
  count : Nat
  least : Int64
  greatest : Int64
  firstMillis : Int64
  lastMillis : Int64
  values : List TimedMillis
deriving DecidableEq, Repr

namespace TagSummary

def leastOf : List Int64 → Option Int64
  | [] => none
  | x :: rest => some (rest.foldl min x)

def greatestOf : List Int64 → Option Int64
  | [] => none
  | x :: rest => some (rest.foldl max x)

def timed? (item : TimedValue) : Option TimedMillis :=
  (Ticks.toUnixMillis? item.ticks).map fun millis => ⟨millis, item.value⟩

def ofValues? (withValues : Bool) (tag : String) (items : List TimedValue) : Option TagSummary := do
  let values := items.map (·.value)
  let ticks := items.map (·.ticks)
  let firstMillis ← Ticks.toUnixMillis? ((leastOf ticks).getD Ticks.unixEpoch)
  let lastMillis ← Ticks.toUnixMillis? ((greatestOf ticks).getD Ticks.unixEpoch)
  let shown ← if withValues then items.mapM timed? else some []
  some ⟨tag, items.length, (leastOf values).getD 0, (greatestOf values).getD 0, firstMillis,
    lastMillis, shown⟩

def displayName (summary : TagSummary) : String :=
  if summary.tag = "" then "<untagged>" else summary.tag

def text (summary : TagSummary) : String :=
  "  " ++ summary.displayName ++ ": n=" ++ toString summary.count ++
    " min=" ++ toString summary.least.toInt ++ " max=" ++ toString summary.greatest.toInt ++
    " span=" ++ toString (summary.lastMillis - summary.firstMillis).toInt ++ "ms\n" ++
    String.join (summary.values.map fun item =>
      "    " ++ toString item.millis.toInt ++ " " ++ toString item.value.toInt ++ "\n")

def valueFields (values : List TimedMillis) : List (String × Value) :=
  if values = [] then []
  else [("values", .list (values.map fun item =>
    .list [.integer item.millis.toInt, .integer item.value.toInt]))]

def toValue (summary : TagSummary) : Value :=
  .record ([("tag", .text summary.tag), ("count", .integer summary.count),
      ("min", .integer summary.least.toInt), ("max", .integer summary.greatest.toInt),
      ("first_ms", .integer summary.firstMillis.toInt),
      ("last_ms", .integer summary.lastMillis.toInt)] ++ valueFields summary.values)

end TagSummary

structure Listing where
  path : String
  bytes : Nat
  tags : List TagSummary
deriving DecidableEq, Repr

namespace Listing

inductive Fault
  | undecodable (error : DecodeError)
  | untimely
deriving DecidableEq, Repr

def byTag (messages : List Message) : List (String × List TimedValue) :=
  messages.foldl (fun tags message =>
    Keyed.adjustAscending (fun a b => decide (a < b)) message.tag
      (fun before => before.getD [] ++ message.values.toList) tags) []

/-- The listing of a payload. Its messages are back in the pool in any case. -/
def ofPayload (path : String) (payload : Bytes) (withValues : Bool) (pool : Pool) :
    Except Fault Listing × Pool :=
  match Payload.decodeTagged payload pool with
  | (.error error, pool) => (.error (.undecodable error), pool)
  | (.ok messages, pool) =>
      let pool := pool.releaseAll messages
      match (byTag messages).mapM fun (tag, items) => TagSummary.ofValues? withValues tag items with
      | none => (.error .untimely, pool)
      | some tags => (.ok ⟨path, payload.length, tags⟩, pool)

def entries (listing : Listing) : Nat :=
  (listing.tags.map TagSummary.count).foldr (· + ·) 0

def text (listing : Listing) : String :=
  "\n" ++ listing.path ++ " (" ++ toString listing.bytes ++ " bytes, " ++
    toString listing.entries ++ " entries)\n" ++ String.join (listing.tags.map TagSummary.text)

def toValue (listing : Listing) : Value :=
  .record [("path", .text listing.path), ("bytes", .integer listing.bytes),
    ("entries", .integer listing.entries), ("tags", .list (listing.tags.map TagSummary.toValue))]

end Listing

end MetricReporting
