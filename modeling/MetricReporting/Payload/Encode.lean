import MetricReporting.Entry
import MetricReporting.Payload.Bytes
import MetricReporting.Payload.Reader
import MetricReporting.TagTable

/-!
# Encoding a batch

A batch is put in order of ticks and written as a header (version and the ticks of its first entry),
for the tagged format a dictionary of the tags it uses, and one record per entry with the distance
of its ticks from the base. Distances are cut to 32 bits. A distance that does not fit a word of 64
makes the writer panic, and then there is no payload.
-/
namespace MetricReporting.Payload

inductive Format
  | longValue
  | occurrence
  | tagged
deriving DecidableEq, Repr

def baseTicks (sorted : List Entry) : Int64 :=
  match sorted with
  | [] => 0
  | entry :: _ => entry.ticks

/-- The distance of an entry from the base, cut to 32 bits. One that is no word has none. -/
def delta? (base : Int64) (entry : Entry) : Option Int32 :=
  let distance := entry.ticks.toInt - base.toInt
  if Ticks.Representable distance then some (Int32.ofInt distance) else none

def headerBytes (base : Int64) : Bytes :=
  Bytes.ofInt64 version ++ Bytes.ofInt64 base

def countBytes (count : Nat) : Bytes :=
  Bytes.ofInt32 (Int32.ofNat count)

def dedupAdjacent : List Int32 → List Int32
  | [] => []
  | [id] => [id]
  | a :: b :: rest => if a = b then dedupAdjacent (b :: rest) else a :: dedupAdjacent (b :: rest)

/-- The distinct tag ids of a batch in ascending order. -/
def tagIds (entries : List Entry) : List Int32 :=
  dedupAdjacent ((entries.map Entry.tag).mergeSort fun a b => decide (a ≤ b))

def dictionaryItem (tags : TagTable) (id : Int32) : Bytes :=
  let name := Bytes.ofText ((tags.name? id).getD "")
  Bytes.ofInt32 id ++ countBytes name.length ++ name

def dictionary (tags : TagTable) (ids : List Int32) : Bytes :=
  countBytes ids.length ++ ids.flatMap (dictionaryItem tags)

def frontBytes (tags : TagTable) (sorted : List Entry) : Format → Bytes
  | .longValue | .occurrence => headerBytes (baseTicks sorted) ++ countBytes sorted.length
  | .tagged =>
      headerBytes (baseTicks sorted) ++ dictionary tags (tagIds sorted) ++ countBytes sorted.length

def recordBytes (delta : Int32) (entry : Entry) : Format → Bytes
  | .longValue => Bytes.ofInt32 delta ++ Bytes.ofInt64 entry.value
  | .occurrence => Bytes.ofInt32 delta
  | .tagged => Bytes.ofInt32 delta ++ Bytes.ofInt32 entry.tag ++ Bytes.ofInt64 entry.value

def record? (format : Format) (base : Int64) (entry : Entry) : Option Bytes :=
  (delta? base entry).map fun delta => recordBytes delta entry format

def encodeSorted? (tags : TagTable) (sorted : List Entry) (format : Format) : Option Bytes :=
  (sorted.mapM (record? format (baseTicks sorted))).map fun records =>
    frontBytes tags sorted format ++ records.flatten

/-- The batch as it is left, and the buffer with the batch appended. -/
def write? (format : Format) (tags : TagTable) (entries : List Entry) (buffer : Bytes) :
    Option (List Entry × Bytes) :=
  let sorted := Entry.sortByTicks entries
  (encodeSorted? tags sorted format).map fun bytes => (sorted, buffer ++ bytes)

def encode? (format : Format) (tags : TagTable) (entries : List Entry) : Option Bytes :=
  encodeSorted? tags (Entry.sortByTicks entries) format

end MetricReporting.Payload
