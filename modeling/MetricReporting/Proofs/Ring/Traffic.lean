import MetricReporting.Ring.Consume
import MetricReporting.Ring.Write

/-!
# Traffic on a ring

Any number of write calls and one consumer share a ring. One act is one access of one of them, so a
run, a list of acts, is one interleaving. Beside the ring the state remembers which call claimed
which position and which chunks were handed out; nothing reads that back.
-/
namespace MetricReporting.Ring

def Write.carried? : Write → Option Int64
  | .stamped _ ticks => some ticks
  | .stored _ ticks => some ticks
  | _ => none

def Write.holding? : Write → Option Nat
  | .claimed position => some position
  | .stamped position _ => some position
  | .stored position _ => some position
  | _ => none

/-- How many positions from the consume position on are out of the callback's hands and not yet
released. -/
def Consume.releasable : Consume → Nat
  | .blanking _ len _ => len
  | .lowering _ len _ => len
  | .advancing _ len => len
  | _ => 0

structure WriteCall where
  value : Int64
  tag : Int32
  phase : Write := .starting
  ticks : Option Int64 := none
deriving DecidableEq, Repr

namespace WriteCall

def written? (call : WriteCall) : Option Entry :=
  call.ticks.map fun ticks => ⟨ticks, call.value, call.tag⟩

def moved (call : WriteCall) (phase : Write) : WriteCall :=
  { call with phase := phase, ticks := phase.carried? <|> call.ticks }

def step (call : WriteCall) (spurious : Bool) (ring : Ring) : Ring × WriteCall :=
  let (ring, phase) := Write.step call.value call.tag spurious ring call.phase
  (ring, call.moved phase)

end WriteCall

structure Traffic where
  ring : Ring
  origin : Nat
  /-- All calls begun so far; a call's number is its place here. -/
  calls : List WriteCall := []
  /-- The number of the call that claimed each position, from the origin on. -/
  claims : List Nat := []
  consumer : Consume := .returned 0
  /-- The chunks of all callbacks that have returned. -/
  handed : List (List Entry) := []
deriving DecidableEq, Repr

namespace Traffic

def ofRing (ring : Ring) : Traffic where
  ring := ring
  origin := ring.consumed

inductive Act
  | call (value : Int64) (tag : Int32)
  /-- One access of the call with this number; `spurious` fails a compare-and-exchange. -/
  | access (number : Nat) (spurious : Bool)
  | tick (clock : Clock)
  | consume (most : Nat)
  /-- One access of the consumer; a callback that returns here has put `edit` into its chunk. -/
  | proceed (edit : List Entry)
  | panic
deriving DecidableEq, Repr

/-- What a returning callback leaves in its chunk. -/
def edited (ring : Ring) (consumer : Consume) (edit : List Entry) : Ring :=
  match consumer with
  | .delivering start len => ring.overwrite start (edit.take len)
  | _ => ring

def proceed (traffic : Traffic) (edit : List Entry) : Traffic :=
  let ring := edited traffic.ring traffic.consumer edit
  let (ring, consumer) := Consume.step ring traffic.consumer
  { traffic with
    ring := ring
    consumer := consumer
    handed := traffic.handed ++ (Consume.held traffic.ring traffic.consumer).toList }

def access (traffic : Traffic) (number : Nat) (spurious : Bool) : Traffic :=
  match traffic.calls[number]? with
  | none => traffic
  | some call =>
      let (ring, call) := call.step spurious traffic.ring
      { traffic with
        ring := ring
        calls := traffic.calls.set number call
        claims := if call.phase.isClaimed then traffic.claims ++ [number] else traffic.claims }

def act (traffic : Traffic) : Act → Traffic
  | .call value tag => { traffic with calls := traffic.calls ++ [{ value := value, tag := tag }] }
  | .access number spurious => traffic.access number spurious
  | .tick clock => { traffic with ring := { traffic.ring with clock := clock } }
  | .consume most =>
      if traffic.consumer.isReturned then { traffic with consumer := .starting most } else traffic
  | .proceed edit => traffic.proceed edit
  | .panic =>
      if traffic.consumer.isDelivering then
        { traffic with ring := traffic.consumer.unwind traffic.ring, consumer := .returned 0 }
      else traffic

def run (traffic : Traffic) (acts : List Act) : Traffic :=
  acts.foldl act traffic

def written? (traffic : Traffic) (number : Nat) : Option Entry :=
  traffic.calls[number]?.bind WriteCall.written?

def recorded? (traffic : Traffic) (p : Nat) : Option Entry :=
  traffic.claims[p - traffic.origin]?.bind traffic.written?

/-- The first position that no callback has returned from. -/
def reached (traffic : Traffic) : Nat :=
  traffic.ring.consumed + Consume.releasable traffic.consumer

/-! ## What an access leaves alone -/

variable {ring : Ring} {value : Int64} {tag : Int32} {spurious : Bool}

theorem write_step_consumed (write : Write) :
    (Write.step value tag spurious ring write).1.consumed = ring.consumed := by
  cases write with
  | loaded position =>
    simp only [Write.step]
    split <;> rfl
  | room position =>
    simp only [Write.step]
    split <;> rfl
  | _ => rfl

theorem le_write_step_written (write : Write) :
    ring.written ≤ (Write.step value tag spurious ring write).1.written := by
  cases write with
  | loaded position =>
    simp only [Write.step]
    split <;> exact Nat.le_refl _
  | room position =>
    simp only [Write.step]
    split
    · exact Nat.le_refl _
    · rename_i hclaim
      have heq : ring.written = position := by simp_all
      exact heq ▸ Nat.le_succ _
  | _ => exact Nat.le_refl _

theorem consume_step_written (consume : Consume) :
    (Consume.step ring consume).1.written = ring.written := by
  cases consume with
  | starting most =>
    simp only [Consume.step]
    split <;> rfl
  | scanning start limit len =>
    simp only [Consume.step]
    split
    · rfl
    · split <;> rfl
  | blanking start len done =>
    simp only [Consume.step]
    split <;> rfl
  | lowering start len done =>
    simp only [Consume.step]
    split <;> rfl
  | _ => rfl

variable (t : Traffic) (number : Nat)

theorem access_calls {t : Traffic} {number : Nat} {call : WriteCall}
    (h : t.calls[number]? = some call) (spurious : Bool) :
    ∃ call', (t.access number spurious).calls = t.calls.set number call' ∧
      call'.value = call.value ∧ call'.tag = call.tag := by
  simp only [access, h]
  exact ⟨_, rfl, rfl, rfl⟩

theorem access_consumer : (t.access number spurious).consumer = t.consumer := by
  unfold access
  split <;> rfl

theorem access_handed : (t.access number spurious).handed = t.handed := by
  unfold access
  split <;> rfl

theorem access_consumed : (t.access number spurious).ring.consumed = t.ring.consumed := by
  unfold access
  split
  · rfl
  · exact write_step_consumed _

theorem written_le_access : t.ring.written ≤ (t.access number spurious).ring.written := by
  unfold access
  split
  · exact Nat.le_refl _
  · exact le_write_step_written _

theorem act_consume_written (most : Nat) :
    (t.act (.consume most)).ring.written = t.ring.written := by
  simp only [act]
  split <;> rfl

theorem edited_nil (ring : Ring) (consumer : Consume) : edited ring consumer [] = ring := by
  cases consumer with
  | delivering start len => rw [edited, List.take_nil, overwrite]
  | _ => rfl

theorem proceed_written : (t.proceed []).ring.written = t.ring.written := by
  simp only [proceed, edited_nil]
  exact consume_step_written _

end Traffic

end MetricReporting.Ring
