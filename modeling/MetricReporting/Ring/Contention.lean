import MetricReporting.MetricBuffer

/-!
# Writers in contention

Several producers write their own runs of values into one buffer while one consumer drains it. They
take turns: each producer tries its next value once, and then the consumer takes what it can.
-/
namespace MetricReporting.Contention

/-- How much each producer writes, and under how many tags in turn. -/
structure Plan where
  producers : Nat
  perProducer : Nat
  tags : Nat
  chunk : Nat

def Plan.tagOf (plan : Plan) (value : Nat) : String :=
  "tag-" ++ toString (value % plan.perProducer % plan.tags)

structure State where
  buffer : MetricBuffer
  accepted : List Nat
  last : List (Option Nat)
  seen : Nat := 0
  sum : Int64 := 0
  inOrder : Bool := true
  tagsRight : Bool := true

def attempt (plan : Plan) (state : State) (producer : Nat) : State :=
  let done := state.accepted.getD producer plan.perProducer
  if done < plan.perProducer then
    let value := producer * plan.perProducer + done
    let (id, tags) := state.buffer.tags.intern (plan.tagOf value)
    let (accepted, ring) := state.buffer.ring.tryWrite (Int64.ofNat value) id
    { state with
      buffer := { state.buffer with tags := tags, ring := ring }
      accepted := if accepted then state.accepted.set producer (done + 1) else state.accepted }
  else state

def check (plan : Plan) (state : State) (entry : Entry) : State :=
  let value := entry.value.toInt.toNat
  let producer := value / plan.perProducer
  { state with
    seen := state.seen + 1
    sum := state.sum + entry.value
    last := state.last.set producer (some value)
    inOrder := state.inOrder && (state.last.getD producer none).all fun before => before < value
    tagsRight := state.tagsRight && state.buffer.tags.name? entry.tag == some (plan.tagOf value) }

def round (plan : Plan) (state : State) : State :=
  let state := (List.range plan.producers).foldl (attempt plan) state
  let (entries, buffer) := state.buffer.drain plan.chunk
  entries.foldl (check plan) { state with buffer := buffer }

def rounds (plan : Plan) : Nat → State → State
  | 0, state => state
  | fuel + 1, state =>
      if plan.producers * plan.perProducer ≤ state.seen then state
      else rounds plan fuel (round plan state)

/-- Everything written and consumed. Each round with values left consumes one of them at least. -/
def run (plan : Plan) (capacity : Nat) : State :=
  rounds plan (plan.producers * plan.perProducer + 1)
    { buffer := MetricBuffer.ofCapacity "" capacity
      accepted := List.replicate plan.producers 0
      last := List.replicate plan.producers none }

end MetricReporting.Contention
