import MetricReporting.Entry
import MetricReporting.Ticks

/-!
# The ring of slots

A ring is shared by many writers and one consumer. Positions count up for ever; position `p` lives
in slot `p % capacity`, and the capacity is a power of two. A writer owns the position it claimed
until it raises the slot's fence; the consumer owns raised slots until it moves `consumed` past
them. The operations here are the single accesses that concurrent threads interleave.
-/
namespace MetricReporting

def Ring.defaultCapacity : Nat := 4096

structure Ring where
  slots : Array Entry
  /-- Per slot the ticks of its entry once that is fully stored, and zero before. -/
  fences : Array Int64
  /-- Positions claimed so far. -/
  written : Nat := 0
  /-- Positions released so far. -/
  consumed : Nat := 0
  /-- Whether some thread holds the right to consume. -/
  guarded : Bool := false
  clock : Clock := {}
deriving DecidableEq, Repr

namespace Ring

def roundedCapacity (requested : Nat) : Nat :=
  (max requested 2).nextPowerOfTwo

def ofCapacity (requested : Nat) (clock : Clock := {}) : Ring where
  slots := Array.replicate (roundedCapacity requested) Entry.blank
  fences := Array.replicate (roundedCapacity requested) 0
  clock := clock

instance : Inhabited Ring := ⟨ofCapacity defaultCapacity⟩

def capacity (ring : Ring) : Nat :=
  ring.slots.size

def outstanding (ring : Ring) : Nat :=
  ring.written - ring.consumed

def index (ring : Ring) (position : Nat) : Nat :=
  position % ring.capacity

def entryAt (ring : Ring) (position : Nat) : Entry :=
  ring.slots.getD (ring.index position) Entry.blank

def fenceAt (ring : Ring) (position : Nat) : Int64 :=
  ring.fences.getD (ring.index position) 0

def setEntry (ring : Ring) (position : Nat) (entry : Entry) : Ring :=
  let place := ring.index position
  { ring with slots := ring.slots.setIfInBounds place entry }

def setFence (ring : Ring) (position : Nat) (fence : Int64) : Ring :=
  let place := ring.index position
  { ring with fences := ring.fences.setIfInBounds place fence }

/-- The fence that announces an entry: its ticks, or one where those are not positive. -/
def raisedFence (ticks : Int64) : Int64 :=
  if ticks < 1 then 1 else ticks

def chunk (ring : Ring) (start len : Nat) : List Entry :=
  (List.range len).map fun i => ring.entryAt (start + i)

def overwrite (ring : Ring) (start : Nat) : List Entry → Ring
  | [] => ring
  | entry :: rest => (ring.setEntry start entry).overwrite (start + 1) rest

def describe (ring : Ring) : String :=
  "RingBuffer \x7b capacity: " ++ toString ring.capacity ++ ", written: " ++
    toString ring.written ++ ", consumed: " ++ toString ring.consumed ++ " \x7d"

theorem setEntry_capacity (ring : Ring) (position : Nat) (entry : Entry) :
    (ring.setEntry position entry).capacity = ring.capacity := by
  simp [setEntry, capacity]

theorem setFence_capacity (ring : Ring) (position : Nat) (fence : Int64) :
    (ring.setFence position fence).capacity = ring.capacity := rfl

theorem ofCapacity_capacity (requested : Nat) (clock : Clock) :
    (ofCapacity requested clock).capacity = roundedCapacity requested := by
  simp [ofCapacity, capacity]

theorem chunk_length (ring : Ring) (start len : Nat) : (ring.chunk start len).length = len := by
  simp [chunk]

end Ring

end MetricReporting
