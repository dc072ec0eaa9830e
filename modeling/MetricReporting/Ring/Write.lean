import MetricReporting.Ring.Basic

/-!
# Writing into the ring

A write loads the two positions, claims its own by a compare-and-exchange that may also fail for no
reason, reads the clock, stores the entry and raises the fence. `Write.step` makes one of these
accesses, so that several writes can be interleaved; `tryWrite` makes them all in a row.
-/
namespace MetricReporting.Ring

/-- Where a write stands: the access it makes next. -/
inductive Write
  | starting
  | loaded (position : Nat)
  | room (position : Nat)
  | claimed (position : Nat)
  | stamped (position : Nat) (ticks : Int64)
  | stored (position : Nat) (ticks : Int64)
  | returned (accepted : Bool)
deriving DecidableEq, Repr, Inhabited

namespace Write

def full (ring : Ring) (position : Nat) : Bool :=
  decide (ring.capacity ≤ position - ring.consumed)

/-- One access of a write of `value` under `tag`; `spurious` fails the compare-and-exchange. -/
def step (value : Int64) (tag : Int32) (spurious : Bool) (ring : Ring) : Write → Ring × Write
  | starting => (ring, loaded ring.written)
  | loaded position =>
      if full ring position then (ring, returned false) else (ring, room position)
  | room position =>
      if spurious || ring.written != position then (ring, loaded ring.written)
      else ({ ring with written := position + 1 }, claimed position)
  | claimed position =>
      let (ticks, clock) := ring.clock.read
      ({ ring with clock := clock }, stamped position ticks)
  | stamped position ticks =>
      (ring.setEntry position ⟨ticks, value, tag⟩, stored position ticks)
  | stored position ticks =>
      (ring.setFence position (raisedFence ticks), returned true)
  | returned accepted => (ring, returned accepted)

def steps (value : Int64) (tag : Int32) : Nat → Ring × Write → Ring × Write
  | 0, state => state
  | n + 1, (ring, write) => steps value tag n (step value tag false ring write)

def claim (value : Int64) (tag : Int32) (ring : Ring) : Ring × Write :=
  steps value tag 3 (ring, starting)

def publish (value : Int64) (tag : Int32) (state : Ring × Write) : Ring × Write :=
  steps value tag 3 state

def accepted : Write → Bool
  | returned result => result
  | _ => false

def isClaimed : Write → Bool
  | claimed _ => true
  | _ => false

end Write

/-- Appends a value unless as many entries as there are slots are outstanding. -/
def tryWrite (ring : Ring) (value : Int64) (tag : Int32) : Bool × Ring :=
  let (ring, write) := Write.publish value tag (Write.claim value tag ring)
  (write.accepted, ring)

def writeAttempts : Nat := 15

def writeWithin (value : Int64) (tag : Int32) : Nat → Ring → Bool × Ring
  | 0, ring => (false, ring)
  | attempts + 1, ring =>
      match ring.tryWrite value tag with
      | (true, ring) => (true, ring)
      | (false, ring) => writeWithin value tag attempts ring

def writeWithRetry (ring : Ring) (value : Int64) (tag : Int32) : Bool × Ring :=
  writeWithin value tag writeAttempts ring

/-- Writes `count` values from `value` on, one attempt each, and says how many were accepted. -/
def writeRun (tag : Int32) : Nat → Int64 → Ring → Nat × Ring
  | 0, _, ring => (0, ring)
  | count + 1, value, ring =>
      let (accepted, ring) := ring.tryWrite value tag
      let (others, ring) := writeRun tag count (value + 1) ring
      (if accepted then others + 1 else others, ring)

end MetricReporting.Ring
