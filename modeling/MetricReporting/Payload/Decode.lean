import MetricReporting.Keyed
import MetricReporting.Payload.Message
import MetricReporting.Payload.Reader

/-!
# Decoding a payload

The plain formats give a list of times and values. The tagged format gives messages: values are
gathered per tag id in one pass, a full message is set aside when its next value comes, and every
message leased is given back when the payload turns out to be bad.
-/
namespace MetricReporting.Payload

def longValueItem (base : Int64) : Reader TimedValue := do
  let ticks ← Reader.ticks base
  let value ← Reader.int64 .value
  return ⟨ticks, value⟩

def longValues : Reader (List TimedValue) := do
  let base ← Reader.header
  let count ← Reader.count .entryCount
  Reader.many (longValueItem base) count

def occurrences : Reader (List Int64) := do
  let base ← Reader.header
  let count ← Reader.count .entryCount
  Reader.many (Reader.ticks base) count

/-- What a reader makes of a payload; bytes that it leaves are of no account. -/
def result {α : Type} (reader : Reader α) (payload : Bytes) : Except DecodeError α :=
  (reader payload).map Prod.fst

def decodeLongValues (payload : Bytes) : Except DecodeError (List TimedValue) :=
  result longValues payload

def decodeOccurrences (payload : Bytes) : Except DecodeError (List Int64) :=
  result occurrences payload

structure TaggedItem where
  id : Int32
  item : TimedValue
deriving DecidableEq, Repr

def dictionaryEntry : Reader (Int32 × String) := do
  let id ← Reader.int32 .tagId
  let length ← Reader.count .tagLength
  let name ← Reader.bytes .tagName length
  match name.toText? with
  | some text => return (id, text)
  | none => throw (.invalidName id)

def taggedItem (base : Int64) : Reader TaggedItem := do
  let ticks ← Reader.ticks base
  let id ← Reader.int32 .tagId
  let value ← Reader.int64 .value
  return ⟨id, ⟨ticks, value⟩⟩

structure Preamble where
  base : Int64
  dictionary : List (Int32 × String)
  count : Nat
deriving DecidableEq, Repr

def preamble : Reader Preamble := do
  let base ← Reader.header
  let tagCount ← Reader.count .tagCount
  let dictionary ← Reader.many dictionaryEntry tagCount
  let count ← Reader.count .entryCount
  return ⟨base, dictionary, count⟩

/-- The name of an id; of several items for one id the last one counts. -/
def Preamble.name? (start : Preamble) (id : Int32) : Option String :=
  Keyed.find? id start.dictionary.reverse

structure Gathering where
  pool : Pool
  /-- The message being filled for each tag id, in ascending order of ids. -/
  active : List (Int32 × Message) := []
  /-- The messages that were full, in the order in which others took their place. -/
  finished : Array Message := #[]
deriving DecidableEq, Repr, Inhabited

namespace Gathering

def messages (state : Gathering) : List Message :=
  state.finished.toList ++ state.active.map Prod.snd

/-- Makes sure that a tag id has a message; the first value of an id needs its name. -/
def open? (state : Gathering) (name : Option String) (id : Int32) : Option (Message × Gathering) :=
  match Keyed.find? id state.active with
  | some message => some (message, state)
  | none =>
      name.map fun text =>
        let (fresh, pool) := state.pool.lease
        (fresh.retag text, { state with pool := pool })

def rolled (state : Gathering) (message : Message) : Message × Gathering :=
  if message.isFull then
    let (fresh, pool) := state.pool.lease
    (fresh.retag message.tag,
      { state with pool := pool, finished := state.finished.push message })
  else (message, state)

def put (state : Gathering) (id : Int32) (message : Message) : Gathering :=
  { state with
    active := Keyed.adjustAscending (fun a b => decide (a < b)) id (fun _ => message) state.active }

def gather (state : Gathering) (start : Preamble) (item : TaggedItem) :
    Except DecodeError Gathering :=
  match state.open? (start.name? item.id) item.id with
  | none => .error (.unknownTag item.id)
  | some (message, opened) =>
      let (message, opened) := opened.rolled message
      .ok (opened.put item.id (message.record item.item).2)

/-- Reads and gathers a number of values; a bad one leaves what was gathered before it. -/
def gatherAll (start : Preamble) : Nat → Bytes → Gathering → Gathering × Option DecodeError
  | 0, _, state => (state, none)
  | n + 1, bytes, state =>
      match taggedItem start.base bytes with
      | .error error => (state, some error)
      | .ok (item, rest) =>
          match state.gather start item with
          | .error error => (state, some error)
          | .ok next => gatherAll start n rest next

end Gathering

/-- Decodes a tagged payload into messages from the pool: those that were full, in that order, then
the others by ascending tag id. -/
def decodeTagged (payload : Bytes) (pool : Pool) : Except DecodeError (List Message) × Pool :=
  match preamble payload with
  | .error error => (.error error, pool)
  | .ok (start, rest) =>
      match Gathering.gatherAll start start.count rest { pool := pool } with
      | (state, none) => (.ok state.messages, state.pool)
      | (state, some error) => (.error error, state.pool.releaseAll state.messages)

end MetricReporting.Payload
