import MetricReporting.Proofs.Ring.Traffic
import MetricReporting.Reporter.Drain

/-!
# A reporter at work

A reporter drains a ring while any number of calls write into it. One act is one access of a writer
or of the loop's consume, another step of the loop, a step of one send, or the request to stop, so a
list of acts is one interleaving. The journal says what was encoded, submitted, called and answered;
nothing reads it back.
-/
namespace MetricReporting

structure Journal where
  encoded : List (List Entry × Bytes) := []
  /-- The payloads submitted; the place of a payload is its number. -/
  submitted : List Bytes := []
  /-- The calls of the sender, each with the number of its payload. -/
  called : List (Nat × Bytes) := []
  answered : List (Nat × SendOutcome) := []
  /-- The write position at the moment the stop was asked for. -/
  stopMark : Option Nat := none
deriving DecidableEq, Repr

namespace Journal

def batches (journal : Journal) : List (List Entry) :=
  journal.encoded.map Prod.fst

/-- How many entries there are in the batches before the one with this number. -/
def before (journal : Journal) (number : Nat) : Nat :=
  (journal.batches.take number).flatten.length

theorem getElem?_batches {journal : Journal} {number : Nat} {batch : List Entry} {payload : Bytes}
    (h : journal.encoded[number]? = some (batch, payload)) :
    journal.batches[number]? = some batch := by
  rw [batches, List.getElem?_map, h, Option.map_some]

/-- Notes what a step of the loop, from one state of it to another, encodes and submits. -/
def noted (journal : Journal) (before after : DrainLoop) : Journal :=
  match before.phase, after.phase with
  | .encoding _, .submitting payload _ _ =>
      { journal with encoded := journal.encoded ++ [(before.pending, payload)] }
  | .submitting _ _ _, .submitting _ _ _ => journal
  | .submitting payload _ _, _ =>
      if before.closed then journal
      else { journal with submitted := journal.submitted ++ [payload] }
  | _, _ => journal

/-- Notes what a step of a task says to the sender and hears from it. -/
def heard (journal : Journal) (task : SendTask) (answer : Option SendOutcome) : Journal :=
  match task.phase, answer with
  | .counted, _ => { journal with called := journal.called ++ [(task.number, task.payload)] }
  | .calling, some outcome =>
      { journal with answered := journal.answered ++ [(task.number, outcome)] }
  | _, _ => journal

end Journal

def DrainLoop.dormant : DrainLoop :=
  { phase := .turning 0, permits := 0 }

structure Drainage where
  traffic : Ring.Traffic
  tags : TagTable := {}
  metricType : String
  telemetry : Telemetry := {}
  reporter : Reporter
  journal : Journal := {}

namespace Drainage

inductive Act
  | write (value : Int64) (tag : Int32)
  /-- One access of the write with this number. -/
  | access (number : Nat) (spurious : Bool)
  | tick (clock : Clock)
  | retag (tags : TagTable)
  | drop
  | start (now : Nat) (runtime : Bool)
  | loop (now : Nat)
  /-- One step of the task at this place; `answer` is how the call of the sender ends, if so. -/
  | send (place : Nat) (answer : Option SendOutcome)
  | stop

def stream (d : Drainage) : MetricStream where
  buffer := ⟨d.metricType, d.traffic.ring, d.tags⟩
  telemetry := d.telemetry
  reporter := d.reporter

def put (d : Drainage) (result : MetricStream × DrainLoop) : Drainage :=
  { d with
    telemetry := result.1.telemetry
    reporter := { result.1.reporter with loop := some result.2 } }

def step (d : Drainage) (now : Nat) (loop : DrainLoop) : Drainage :=
  let result := d.stream.loopStep now loop
  { d.put result with journal := d.journal.noted loop result.2 }

/-- One access of the loop's consume, whose callback copies its chunk into the batch. -/
def consume (d : Drainage) (loop : DrainLoop) (target : Nat) (final : Bool) : Drainage :=
  let chunk := (Ring.Consume.held d.traffic.ring d.traffic.consumer).getD []
  let filled := { loop with pending := loop.pending ++ chunk }
  let d := { d with traffic := d.traffic.proceed [] }
  match d.traffic.consumer with
  | .returned count => d.put (d.stream.afterConsume filled target final count)
  | _ => d.put (d.stream, filled)

def loopAct (d : Drainage) (now : Nat) : Drainage :=
  match d.reporter.loop with
  | none => d
  | some loop =>
      match loop.phase with
      | .draining target final =>
          if !d.traffic.consumer.isReturned then d.consume loop target final
          else if d.traffic.ring.consumed < target then
            { d with traffic := d.traffic.act (.consume (d.stream.room loop)) }
          else d.step now loop
      | _ => d.step now loop

def send (d : Drainage) (place : Nat) (answer : Option SendOutcome) : Drainage :=
  match d.reporter.loop with
  | none => d
  | some loop =>
      match loop.tasks[place]? with
      | none => d
      | some task =>
          let moment :=
            SendTask.Moment.step d.reporter.metricType answer
              ⟨task, d.reporter.metrics, d.telemetry⟩
          let freed := if moment.task.isEnded && !task.isEnded then 1 else 0
          let loop :=
            { loop with
              tasks := loop.tasks.set place moment.task
              permits := loop.permits + freed }
          { d with
            telemetry := moment.telemetry
            reporter := { d.reporter with metrics := moment.metrics, loop := some loop }
            journal := d.journal.heard task answer }

def stop (d : Drainage) : Drainage :=
  let mark := if d.reporter.attached then some d.traffic.ring.written else d.journal.stopMark
  { d with reporter := d.reporter.requestStop, journal := { d.journal with stopMark := mark } }

def act (d : Drainage) : Act → Drainage
  | .write value tag => { d with traffic := d.traffic.act (.call value tag) }
  | .access number spurious => { d with traffic := d.traffic.act (.access number spurious) }
  | .tick clock => { d with traffic := d.traffic.act (.tick clock) }
  | .retag tags => { d with tags := tags }
  | .drop => { d with telemetry := d.telemetry.dropped d.metricType }
  | .start now runtime =>
      match d.reporter.start now runtime with
      | .ok reporter => { d with reporter := reporter }
      | .error _ => d
  | .loop now => d.loopAct now
  | .send place answer => d.send place answer
  | .stop => d.stop

def run (d : Drainage) (acts : List Act) : Drainage :=
  acts.foldl act d

def ready (metricType : String) (settings : DrainSettings) (writer : PayloadWriter) (ring : Ring)
    (tags : TagTable) : Drainage where
  traffic := .ofRing ring
  tags := tags
  metricType := metricType
  reporter := Reporter.create metricType settings writer

def loop (d : Drainage) : DrainLoop :=
  d.reporter.loop.getD .dormant

end Drainage

end MetricReporting
