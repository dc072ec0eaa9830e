import MetricReporting.Reporter.Settle
import MetricReporting.Sender.Script

/-!
# Rehearsals

A stream with a scripted sender, in which nothing happens by itself: time stands still but where a
wait is waited out, and the loop and its sends only run when told to.
-/
namespace MetricReporting

structure Rehearsal where
  stream : MetricStream
  script : SendScript
  now : Nat := 0

namespace Rehearsal

def settle (r : Rehearsal) : Rehearsal :=
  let (script, stream) := r.stream.settle SendScript.model r.now r.script
  { r with script := script, stream := stream }

def awaitFlush (r : Rehearsal) : Rehearsal :=
  let r := r.settle
  if r.stream.buffer.ring.outstanding = 0 then r
  else { r with now := max r.now (r.stream.spinningEnds?.getD r.now) }.settle

def permit (r : Rehearsal) (count : Nat) : Rehearsal :=
  { r with script := { r.script with permits := r.script.permits + count } }

def stop (r : Rehearsal) : Rehearsal :=
  let (script, stream) := r.stream.stop SendScript.model r.now r.script
  { r with script := script, stream := stream }

def dispose (r : Rehearsal) : Rehearsal :=
  { r with stream := { r.stream with reporter := r.stream.reporter.dispose } }

def start (r : Rehearsal) (runtime : Bool) : Except ReporterError Rehearsal :=
  (r.stream.reporter.start r.now runtime).map fun reporter =>
    { r with stream := { r.stream with reporter := reporter } }

def mapRing (r : Rehearsal) (change : Ring → Ring) : Rehearsal :=
  { r with stream := { r.stream with
    buffer := { r.stream.buffer with ring := change r.stream.buffer.ring } } }

def record (r : Rehearsal) (value : Int64) (tag : String) : Bool × Rehearsal :=
  let (accepted, buffer, telemetry) := r.stream.buffer.record r.stream.telemetry value tag
  (accepted, { r with stream := { r.stream with buffer := buffer, telemetry := telemetry } })

def callsSince (r : Rehearsal) (before : Nat) : List Bytes :=
  (r.script.calls.take (r.script.calls.length - before)).reverse

end Rehearsal

end MetricReporting
