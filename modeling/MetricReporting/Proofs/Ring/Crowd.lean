import MetricReporting.Proofs.Ring.Traffic

/-!
# A crowd at a ring

Any number of write calls and any number of consume calls share a ring, whichever threads they are
made by. A consume that is begun while another one's callback runs may be that callback's own. One
act is one access of one call, or one store of a callback into its chunk, so a list of acts is one
interleaving. Beside the ring the state remembers which call claimed which position; nothing reads
that back.
-/
namespace MetricReporting.Ring

namespace Consume

def isInside : Consume → Bool
  | starting _ | returned _ => false
  | _ => true

/-- The chunk that a consume has made for its callback and not yet released: its first position, and
how many. -/
def chunk? : Consume → Option (Nat × Nat)
  | delivering start len | blanking start len _ | lowering start len _ | advancing start len =>
      some (start, len)
  | _ => none

/-- The next access may read, edit or clear the slot of this position: the callback may go to all of
its chunk, and clearing goes from slot to slot. -/
def Touches : Consume → Nat → Prop
  | delivering start len, p => start ≤ p ∧ p < start + len
  | blanking start len done, p => done < len ∧ p = start + done
  | lowering start len done, p => done < len ∧ p = start + done
  | _, _ => False

end Consume

structure Crowd where
  ring : Ring
  /-- All write calls begun so far; a call's number is its place here. -/
  calls : List WriteCall := []
  /-- The number of the call that claimed each position. -/
  claims : List Nat := []
  /-- All consume calls begun so far. -/
  consumes : List Consume := []
deriving DecidableEq, Repr

namespace Crowd

inductive Act
  | call (value : Int64) (tag : Int32)
  /-- One access of the write with this number; `spurious` fails a compare-and-exchange. -/
  | access (number : Nat) (spurious : Bool)
  | tick (clock : Clock)
  | consume (most : Nat)
  /-- One access of the consume at this place; a callback at work returns. -/
  | proceed (place : Nat)
  /-- The callback of the consume at this place stores an entry into its chunk. -/
  | edit (place offset : Nat) (entry : Entry)
  | panic (place : Nat)
deriving DecidableEq, Repr

def access (crowd : Crowd) (number : Nat) (spurious : Bool) : Crowd :=
  match crowd.calls[number]? with
  | none => crowd
  | some call =>
      let (ring, call) := call.step spurious crowd.ring
      { crowd with
        ring := ring
        calls := crowd.calls.set number call
        claims := if call.phase.isClaimed then crowd.claims ++ [number] else crowd.claims }

def enter (crowd : Crowd) (place : Nat) (ring : Ring) (consume : Consume) : Crowd :=
  { crowd with ring := ring, consumes := crowd.consumes.set place consume }

def proceed (crowd : Crowd) (place : Nat) : Crowd :=
  match crowd.consumes[place]? with
  | none => crowd
  | some consume =>
      let (ring, consume) := consume.step crowd.ring
      crowd.enter place ring consume

def edit (crowd : Crowd) (place offset : Nat) (entry : Entry) : Crowd :=
  match crowd.consumes[place]? with
  | some (.delivering start len) =>
      if offset < len then { crowd with ring := crowd.ring.setEntry (start + offset) entry }
      else crowd
  | _ => crowd

def panic (crowd : Crowd) (place : Nat) : Crowd :=
  match crowd.consumes[place]? with
  | some (.delivering start len) =>
      crowd.enter place (Consume.unwind crowd.ring (.delivering start len)) (.returned 0)
  | _ => crowd

def act (crowd : Crowd) : Act → Crowd
  | .call value tag => { crowd with calls := crowd.calls ++ [{ value := value, tag := tag }] }
  | .access number spurious => crowd.access number spurious
  | .tick clock => { crowd with ring := { crowd.ring with clock := clock } }
  | .consume most => { crowd with consumes := crowd.consumes ++ [.starting most] }
  | .proceed place => crowd.proceed place
  | .edit place offset entry => crowd.edit place offset entry
  | .panic place => crowd.panic place

def run (crowd : Crowd) (acts : List Act) : Crowd :=
  acts.foldl act crowd

/-- The call that claimed this position has raised its fence and returned. -/
def Published (crowd : Crowd) (p : Nat) : Prop :=
  ∃ number call, crowd.claims[p]? = some number ∧ crowd.calls[number]? = some call ∧
    call.phase = .returned true

/-- The write with this number has claimed this position and not yet raised its fence. -/
def Owns (crowd : Crowd) (number p : Nat) : Prop :=
  ∃ call, crowd.calls[number]? = some call ∧ call.phase.holding? = some p

/-- The next access of the write with this number stores into the slot of this position: first the
entry and then the fence. -/
def Stores (crowd : Crowd) (number p : Nat) : Prop :=
  ∃ call ticks, crowd.calls[number]? = some call ∧
    (call.phase = .stamped p ticks ∨ call.phase = .stored p ticks)

def Inside (crowd : Crowd) (place : Nat) : Prop :=
  ∃ consume, crowd.consumes[place]? = some consume ∧ consume.isInside = true

def InChunk (crowd : Crowd) (place p : Nat) : Prop :=
  ∃ consume start len, crowd.consumes[place]? = some consume ∧
    consume.chunk? = some (start, len) ∧ start ≤ p ∧ p < start + len

def Touches (crowd : Crowd) (place p : Nat) : Prop :=
  ∃ consume, crowd.consumes[place]? = some consume ∧ consume.Touches p

end Crowd

end MetricReporting.Ring
