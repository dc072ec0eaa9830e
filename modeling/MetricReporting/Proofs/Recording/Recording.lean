import MetricReporting.Proofs.Reporter.DrainOnStop
import MetricReporting.Proofs.Tags.Interning
import MetricReporting.Payload.Message

/-!
# Records on their way

Any number of callers record values under tags while a reporter drains their buffer. A record looks
its tag up, inserts it if need be, and then tries a bounded number of writes, of which each is a
call on the ring. Every step of a record is an act on the reporter at work, so what holds of that
holds here.
-/
namespace MetricReporting

namespace RecordCall

inductive Phase
  | looking
  | inserting
  /-- About to begin a write, with some attempts left. -/
  | trying (id : Int32) (left : Nat)
  /-- In the write call with this number. -/
  | writing (id : Int32) (left call : Nat)
  | accepted (call : Nat)
  | dropped
deriving DecidableEq, Repr

/-- What follows one access of the write call, which is where `write` says afterwards. -/
def Phase.after (id : Int32) (left call : Nat) (write : Option Ring.Write) : Phase :=
  match write with
  | some (.returned true) => .accepted call
  | some (.returned false) => .trying id left
  | _ => .writing id left call

end RecordCall

structure RecordCall where
  value : Int64
  tag : String
  phase : RecordCall.Phase := .looking
deriving DecidableEq, Repr

structure Recording where
  drainage : Drainage
  records : List RecordCall := []
  /-- The number of the record that each write call belongs to. -/
  owners : List Nat := []

namespace Recording

inductive Act
  | record (value : Int64) (tag : String)
  | step (number : Nat) (spurious : Bool)
  /-- An act that is no writer's. -/
  | other (act : Drainage.Act)

def enter (r : Recording) (number : Nat) (record : RecordCall) (phase : RecordCall.Phase) :
    List RecordCall :=
  r.records.set number { record with phase := phase }

def calls (r : Recording) : List Ring.WriteCall :=
  r.drainage.traffic.calls

def step (r : Recording) (number : Nat) (spurious : Bool) : Recording :=
  match r.records[number]? with
  | none => r
  | some record =>
      match record.phase with
      | .looking =>
          match r.drainage.tags.lookup? record.tag with
          | some id => { r with records := r.enter number record (.trying id Ring.writeAttempts) }
          | none => { r with records := r.enter number record .inserting }
      | .inserting =>
          let (id, tags) := r.drainage.tags.insert record.tag
          { r with
            drainage := r.drainage.act (.retag tags)
            records := r.enter number record (.trying id Ring.writeAttempts) }
      | .trying _ 0 =>
          { r with
            drainage := r.drainage.act .drop
            records := r.enter number record .dropped }
      | .trying id (left + 1) =>
          { r with
            drainage := r.drainage.act (.write record.value id)
            records := r.enter number record (.writing id left r.calls.length)
            owners := r.owners ++ [number] }
      | .writing id left call =>
          let drainage := r.drainage.act (.access call spurious)
          let write := drainage.traffic.calls[call]?.map Ring.WriteCall.phase
          { r with
            drainage := drainage
            records := r.enter number record (.after id left call write) }
      | .accepted _ | .dropped => r

def act (r : Recording) : Act → Recording
  | .record value tag => { r with records := r.records ++ [{ value := value, tag := tag }] }
  | .step number spurious => r.step number spurious
  | .other act => if act.isOther then { r with drainage := r.drainage.act act } else r

def run (r : Recording) (acts : List Act) : Recording :=
  acts.foldl act r

/-- The record that owns a claimed position. -/
def owner? (r : Recording) (p : Nat) : Option Nat :=
  r.drainage.traffic.claims[p - r.drainage.traffic.origin]?.bind fun call => r.owners[call]?

def accepted? (r : Recording) (p : Nat) : Option (String × Payload.TimedValue) := do
  let call ← r.drainage.traffic.claims[p - r.drainage.traffic.origin]?
  let number ← r.owners[call]?
  let record ← r.records[number]?
  let ticks ← r.calls[call]?.bind Ring.WriteCall.ticks
  if record.phase = .accepted call then some (record.tag, ⟨ticks, record.value⟩) else none

def ready (metricType : String) (settings : DrainSettings) (ring : Ring) (earlier : List String) :
    Recording where
  drainage := .ready metricType settings (.ofFormat .tagged) ring (TagTable.internAll {} earlier).2

end Recording

end MetricReporting
