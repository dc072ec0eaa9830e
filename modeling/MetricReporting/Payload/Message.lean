/-!
# Messages and their pool

A message holds up to 512 values of one tag. Decoders take messages from a pool, the one given back
last first, and get a new one when the pool is empty.
-/
namespace MetricReporting.Payload

structure TimedValue where
  ticks : Int64
  value : Int64
deriving DecidableEq, Repr, Inhabited

structure Message where
  tag : String := ""
  values : Array TimedValue := #[]
deriving DecidableEq, Repr, Inhabited

namespace Message

def room : Nat := 512

def isFull (message : Message) : Bool :=
  decide (room ≤ message.values.size)

def isEmpty (message : Message) : Bool :=
  message.values.isEmpty

def retag (message : Message) (tag : String) : Message :=
  { message with tag := tag }

def record (message : Message) (item : TimedValue) : Bool × Message :=
  if message.isFull then (false, message)
  else (true, { message with values := message.values.push item })

/-- Records `count` values from `item` on, ticks and values counting up, and says how many had
room. -/
def recordRun : Nat → TimedValue → Message → Nat × Message
  | 0, _, message => (0, message)
  | count + 1, item, message =>
      let (recorded, message) := message.record item
      let (others, message) := recordRun count ⟨item.ticks + 1, item.value + 1⟩ message
      (if recorded then others + 1 else others, message)

def clear (_message : Message) : Message :=
  {}

end Message

/-- The messages that wait to be used again, the next one first. -/
structure Pool where
  free : List Message := []
deriving DecidableEq, Repr, Inhabited

namespace Pool

def available (pool : Pool) : Nat :=
  pool.free.length

def lease (pool : Pool) : Message × Pool :=
  match pool.free with
  | [] => ({}, pool)
  | message :: rest => (message, ⟨rest⟩)

def release (pool : Pool) (message : Message) : Pool :=
  ⟨message.clear :: pool.free⟩

def releaseAll (pool : Pool) (messages : List Message) : Pool :=
  messages.foldl release pool

theorem available_release (pool : Pool) (message : Message) :
    (pool.release message).available = pool.available + 1 := rfl

theorem available_releaseAll (pool : Pool) (messages : List Message) :
    (pool.releaseAll messages).available = pool.available + messages.length := by
  unfold releaseAll
  induction messages generalizing pool with
  | nil => rfl
  | cons message rest ih =>
    rw [List.foldl_cons, ih, available_release, List.length_cons]
    omega

end Pool

end MetricReporting.Payload
