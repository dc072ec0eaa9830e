import MetricReporting.Ring.Basic

/-!
# Draining the ring

A consume takes the guard, loads both positions, tests fences one by one, hands the raised run to
its callback, clears entries and fences, and moves the consume position on. `Consume.step` makes one
of these accesses; `consume` makes them all in a row with a callback that only looks.
-/
namespace MetricReporting.Ring

/-- Where a consume stands: the access it makes next. -/
inductive Consume
  | starting (most : Nat)
  | guarding (most : Nat)
  | positioned (most start : Nat)
  | scanning (start limit len : Nat)
  | delivering (start len : Nat)
  | blanking (start len done : Nat)
  | lowering (start len done : Nat)
  | advancing (start len : Nat)
  | releasing (count : Nat)
  | returned (count : Nat)
deriving DecidableEq, Repr, Inhabited

namespace Consume

/-- How many positions one consume may hand out: it stops at the end of the array. -/
def reach (ring : Ring) (most start : Nat) : Nat :=
  min (min (ring.written - start) most) (ring.capacity - ring.index start)

/-- The first position of the round through the array that a position is in. -/
def epoch (ring : Ring) (position : Nat) : Nat :=
  position - ring.index position

/-- One access of a consume. At `delivering` the callback has the chunk and returns. -/
def step (ring : Ring) : Consume → Ring × Consume
  | starting most =>
      if most = 0 || ring.guarded then (ring, returned 0)
      else ({ ring with guarded := true }, guarding most)
  | guarding most => (ring, positioned most ring.consumed)
  | positioned most start => (ring, scanning start (reach ring most start) 0)
  | scanning start limit len =>
      if len < limit ∧ epoch ring (start + len) = epoch ring start ∧
          ring.fenceAt (start + len) ≠ 0 then
        (ring, scanning start limit (len + 1))
      else if len = 0 then (ring, releasing 0)
      else (ring, delivering start len)
  | delivering start len => (ring, blanking start len 0)
  | blanking start len done =>
      if done < len then (ring.setEntry (start + done) Entry.blank, blanking start len (done + 1))
      else (ring, lowering start len 0)
  | lowering start len done =>
      if done < len then (ring.setFence (start + done) 0, lowering start len (done + 1))
      else (ring, advancing start len)
  | advancing _ len => ({ ring with consumed := ring.consumed + len }, releasing len)
  | releasing count => ({ ring with guarded := false }, returned count)
  | returned count => (ring, returned count)

/-- A consume whose callback panics: the guard goes back and nothing else happens. -/
def unwind (ring : Ring) : Consume → Ring
  | returned _ => ring
  | _ => { ring with guarded := false }

def isDelivering : Consume → Bool
  | delivering _ _ => true
  | _ => false

def isReturned : Consume → Bool
  | returned _ => true
  | _ => false

def count : Consume → Nat
  | returned count => count
  | _ => 0

def held (ring : Ring) : Consume → Option (List Entry)
  | delivering start len => some (ring.chunk start len)
  | _ => none

def stepsUntil (stop : Consume → Bool) : Nat → Ring × Consume → Ring × Consume
  | 0, state => state
  | fuel + 1, (ring, consume) =>
      if stop consume then (ring, consume) else stepsUntil stop fuel (step ring consume)

/-- The accesses up to the callback, or to the return where there is nothing to hand out. -/
def opened (ring : Ring) (most : Nat) : Ring × Consume :=
  stepsUntil (fun c => c.isDelivering || c.isReturned) (ring.capacity + 6) (ring, starting most)

def closed (state : Ring × Consume) : Ring × Consume :=
  stepsUntil isReturned (2 * state.1.capacity + 6) state

end Consume

/-- Drains up to `most` published entries: the chunk, empty if there is none, and the ring after. -/
def consume (ring : Ring) (most : Nat) : List Entry × Ring :=
  let (ring, state) := Consume.opened ring most
  let chunk := (Consume.held ring state).getD []
  let (ring, _) := Consume.closed (ring, state)
  (chunk, ring)

end MetricReporting.Ring
