import MetricReporting.Reporter.Basic

/-!
# The drain loop

The loop waits until enough entries are buffered, the wait has been long enough or a stop is asked
for. It then drains up to the position written at that moment: one payload per full batch and one
for the rest, each submitted as soon as a permit is free. `loopStep` is one step of it; other
threads write and sends end between any two steps.
-/
namespace MetricReporting

/-- A metric buffer with its reporter and the telemetry that both report to. -/
structure MetricStream where
  buffer : MetricBuffer
  telemetry : Telemetry := {}
  reporter : Reporter

namespace DrainLoop

def idleYields : Nat := 10

def millisecond : Nat := 1000000

def maxRest : Nat := 50 * millisecond

def rest (idle remaining : Nat) : Nat :=
  if idle < idleYields then 0
  else min (min ((1 <<< min (idle - idleYields) 6) * millisecond) maxRest) remaining

end DrainLoop

namespace MetricStream

def settings (stream : MetricStream) : DrainSettings :=
  stream.reporter.settings

def waitIsOver (stream : MetricStream) (now since : Nat) : Bool :=
  decide (stream.settings.flushSize ≤ stream.buffer.ring.outstanding) ||
    stream.reporter.stopRequested || decide (stream.settings.maxSpinning ≤ now - since)

def room (stream : MetricStream) (loop : DrainLoop) : Nat :=
  stream.settings.maxFlushSize - loop.pending.length

/-- What follows a consume that handed out `count` entries, which are in the batch already. -/
def afterConsume (stream : MetricStream) (loop : DrainLoop) (target : Nat) (final : Bool)
    (count : Nat) : MetricStream × DrainLoop :=
  if count = 0 then (stream, if final then loop else { loop with phase := .closing final })
  else
    let reporter := { stream.reporter with metrics := stream.reporter.metrics.addFlushed count }
    let phase :=
      if stream.settings.maxFlushSize ≤ loop.pending.length then .encoding (.draining target final)
      else .draining target final
    ({ stream with reporter := reporter }, { loop with phase := phase })

def drainStep (stream : MetricStream) (loop : DrainLoop) (target : Nat) (final : Bool) :
    MetricStream × DrainLoop :=
  let (chunk, buffer) := stream.buffer.drain (stream.room loop)
  let loop := { loop with pending := loop.pending ++ chunk }
  afterConsume { stream with buffer := buffer } loop target final chunk.length

def loopStep (now : Nat) (stream : MetricStream) (loop : DrainLoop) : MetricStream × DrainLoop :=
  match loop.phase with
  | .turning lastFlush =>
      if stream.reporter.stopRequested then (stream, { loop with phase := .aiming true })
      else (stream, { loop with phase := .watching lastFlush 0 })
  | .watching since idle =>
      let loop := loop.reaped
      if stream.waitIsOver now since then
        let telemetry :=
          stream.telemetry.depth stream.reporter.metricType stream.buffer.ring.outstanding
        ({ stream with telemetry := telemetry }, { loop with phase := .woken })
      else
        let remaining := stream.settings.maxSpinning - (now - since)
        (stream, { loop with phase := .resting since idle (now + DrainLoop.rest idle remaining) })
  | .resting since idle _ => (stream, { loop with phase := .watching since (idle + 1) })
  | .woken => (stream, { loop with phase := .aiming stream.reporter.stopRequested })
  | .aiming final => (stream, { loop with phase := .draining stream.buffer.ring.written final })
  | .draining target final =>
      if stream.buffer.ring.consumed < target then stream.drainStep loop target final
      else (stream, { loop with phase := .closing final })
  | .closing final =>
      (stream, { loop with
        phase := if loop.pending.isEmpty then .drained final else .encoding (.drained final) })
  | .encoding next =>
      match stream.reporter.writer.encode? stream.buffer.tags loop.pending with
      | none => (stream, loop.torn .panicked)
      | some payload =>
          let entries := loop.pending.length
          (stream, { loop.reaped with pending := [], phase := .submitting payload entries next })
  | .submitting payload entries next =>
      -- Where the permits are closed the payload is dropped.
      if loop.closed then (stream, { loop with phase := next.phase })
      else if loop.permits = 0 then (stream, loop)
      else
        (stream, { loop with
          phase := next.phase
          permits := loop.permits - 1
          submitted := loop.submitted + 1
          tasks := loop.tasks ++ [⟨loop.submitted, payload, entries, .spawned⟩] })
  | .drained final =>
      (stream, { loop with phase := if final then .finishing else .turning now })
  | .finishing =>
      (stream, if loop.allEnded then { loop.reaped with phase := .ended } else loop)
  | .ended | .panicked | .aborted => (stream, loop)

/-- Whether the loop has something to do at the time `now` without anyone else's doing. -/
def loopReady (now : Nat) (stream : MetricStream) (loop : DrainLoop) : Bool :=
  match loop.phase with
  | .resting since _ _ => stream.waitIsOver now since
  | .submitting _ _ _ => loop.closed || decide (0 < loop.permits)
  | .finishing => loop.allEnded
  | .ended | .panicked | .aborted => false
  | _ => true

/-- Whether the loop has something to do at the time `now`, a rest lasting as long as it was
meant to. -/
def loopAwake (now : Nat) (stream : MetricStream) (loop : DrainLoop) : Bool :=
  match loop.phase with
  | .resting _ _ wakeAt => decide (wakeAt ≤ now)
  | _ => loopReady now stream loop

def runLoop (ready : MetricStream → DrainLoop → Bool) (now : Nat) :
    Nat → MetricStream → DrainLoop → MetricStream × DrainLoop
  | 0, stream, loop => (stream, loop)
  | fuel + 1, stream, loop =>
      if ready stream loop then
        let (stream, loop) := loopStep now stream loop
        runLoop ready now fuel stream loop
      else (stream, loop)

end MetricStream

end MetricReporting
