import MetricReporting.MetricBuffer
import MetricReporting.Payload.Encode
import MetricReporting.Reporter.SendTask
import MetricReporting.Reporter.Settings
import MetricReporting.ReportingError

/-!
# Reporters

A reporter drains one metric buffer with a loop of its own. It is started once; a stop lets the
loop drain all that was written and wait for its sends, and disposal ends it at once.
-/
namespace MetricReporting

/-- Turns a batch into a payload; one that panics gives none. -/
structure PayloadWriter where
  encode? : TagTable → List Entry → Option Bytes

def PayloadWriter.ofFormat (format : Payload.Format) : PayloadWriter :=
  ⟨Payload.encode? format⟩

namespace DrainLoop

/-- What the loop goes on with when its payload is submitted. -/
inductive Next
  | draining (target : Nat) (final : Bool)
  | drained (final : Bool)
deriving DecidableEq, Repr

/-- What the loop does next. `final` tells the last drain, which takes all that was claimed. -/
inductive Phase
  | turning (lastFlush : Nat)
  | watching (since idle : Nat)
  | resting (since idle wakeAt : Nat)
  | woken
  /-- Whether to stop is settled, and how far to drain is not. -/
  | aiming (final : Bool)
  | draining (target : Nat) (final : Bool)
  | closing (final : Bool)
  | encoding (next : Next)
  | submitting (payload : Bytes) (entries : Nat) (next : Next)
  | drained (final : Bool)
  | finishing
  | ended
  | panicked
  | aborted
deriving DecidableEq, Repr

def Next.phase : Next → Phase
  | draining target final => .draining target final
  | drained final => .drained final

end DrainLoop

structure DrainLoop where
  phase : DrainLoop.Phase
  /-- Entries drained and not yet encoded. -/
  pending : List Entry := []
  /-- Permits that no send holds. -/
  permits : Nat
  submitted : Nat := 0
  tasks : List SendTask := []
  /-- Whether the permits are closed, so that none is given any more. -/
  closed : Bool := false
deriving DecidableEq, Repr

namespace DrainLoop

def isOver (loop : DrainLoop) : Bool :=
  match loop.phase with
  | .ended | .panicked | .aborted => true
  | _ => false

def reaped (loop : DrainLoop) : DrainLoop :=
  { loop with tasks := loop.tasks.filter fun task => !task.isEnded }

/-- The end of a loop that does not wait for its sends: they are aborted where they stand. -/
def torn (loop : DrainLoop) (phase : Phase) : DrainLoop :=
  { loop with phase := phase, tasks := [] }

def allEnded (loop : DrainLoop) : Bool :=
  loop.tasks.all SendTask.isEnded

end DrainLoop

structure Reporter where
  metricType : String
  settings : DrainSettings
  writer : PayloadWriter
  metrics : ReporterMetrics := {}
  started : Bool := false
  stopRequested : Bool := false
  sendsCancelled : Bool := false
  /-- Whether the reporter still has its loop's handle. -/
  attached : Bool := false
  loop : Option DrainLoop := none

namespace Reporter

def create (metricType : String) (settings : DrainSettings) (writer : PayloadWriter) :
    Reporter where
  metricType := metricType
  settings := settings.normalized
  writer := writer

def forBuffer (buffer : MetricBuffer) (settings : DrainSettings) : Reporter :=
  create buffer.metricType settings (PayloadWriter.ofFormat .tagged)

/-- Starts the loop, once; without a runtime there is nothing to run it on. -/
def start (reporter : Reporter) (now : Nat) (runtime : Bool := true) :
    Except ReporterError Reporter :=
  if reporter.started then .error (.start reporter.metricType .alreadyStarted)
  else if !runtime then .error (.start reporter.metricType .noRuntime)
  else
    .ok { reporter with
      started := true
      attached := true
      loop := some { phase := .turning now, permits := reporter.settings.maxParallel } }

/-- The first half of a stop: gives up the handle and asks the loop to stop. Without a loop at hand
nothing is asked. -/
def requestStop (reporter : Reporter) : Reporter :=
  if reporter.attached then { reporter with attached := false, stopRequested := true }
  else reporter

/-- Cancels everything; a loop at hand is aborted with its sends. -/
def dispose (reporter : Reporter) : Reporter :=
  { reporter with
    stopRequested := true
    sendsCancelled := true
    attached := false
    loop :=
      if reporter.attached then
        reporter.loop.map fun loop => if loop.isOver then loop else loop.torn .aborted
      else reporter.loop }

def isRunning (reporter : Reporter) : Bool :=
  reporter.attached && reporter.loop.any fun loop => !loop.isOver

theorem start_twice {reporter : Reporter} (h : reporter.started = true) (now : Nat)
    (runtime : Bool) :
    reporter.start now runtime = .error (.start reporter.metricType .alreadyStarted) := by
  simp [start, h]

end Reporter

end MetricReporting
