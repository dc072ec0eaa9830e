import MetricReporting.Reporter.Drain

/-!
# Letting a stream come to rest

Runs the loop and its sends in turns on one thread, the sends in the order in which they were
submitted, until neither has anything to do.
-/
namespace MetricReporting.MetricStream

variable {σ : Type}

/-- Lets every send go as far as it can; one that ends gives its permit back. -/
def pollTasks (model : SenderModel σ) (metricType : String) :
    List SendTask → σ → ReporterMetrics → Telemetry → Nat →
      List SendTask × σ × ReporterMetrics × Telemetry × Nat
  | [], sender, metrics, telemetry, freed => ([], sender, metrics, telemetry, freed)
  | task :: rest, sender, metrics, telemetry, freed =>
      let (sender, moment) := model.poll metricType (sender, ⟨task, metrics, telemetry⟩)
      let freed := if moment.task.isEnded && !task.isEnded then freed + 1 else freed
      let (tasks, result) :=
        pollTasks model metricType rest sender moment.metrics moment.telemetry freed
      (moment.task :: tasks, result)

def loopFuel (stream : MetricStream) (loop : DrainLoop) : Nat :=
  12 * (stream.buffer.ring.outstanding + loop.pending.length + loop.tasks.length + 4)

/-- One turn of the loop, as long as it is `ready`, and then one of each send. -/
def turn (ready : MetricStream → DrainLoop → Bool) (model : SenderModel σ) (now : Nat)
    (sender : σ) (stream : MetricStream) (loop : DrainLoop) : σ × MetricStream × DrainLoop :=
  let (stream, loop) := runLoop ready now (stream.loopFuel loop) stream loop
  let (tasks, sender, metrics, telemetry, freed) :=
    pollTasks model stream.reporter.metricType loop.tasks sender stream.reporter.metrics
      stream.telemetry 0
  (sender,
    { stream with telemetry := telemetry, reporter := { stream.reporter with metrics := metrics } },
    { loop with tasks := tasks, permits := loop.permits + freed })

def turns (ready : MetricStream → DrainLoop → Bool) (model : SenderModel σ) (now : Nat) :
    Nat → σ → MetricStream → DrainLoop → σ × MetricStream × DrainLoop
  | 0, sender, stream, loop => (sender, stream, loop)
  | fuel + 1, sender, stream, loop =>
      let (sender, stream, loop) := turn ready model now sender stream loop
      if ready stream loop then turns ready model now fuel sender stream loop
      else (sender, stream, loop)

def runDown (ready : MetricStream → DrainLoop → Bool) (model : SenderModel σ) (now : Nat)
    (sender : σ) (stream : MetricStream) : σ × MetricStream :=
  match stream.reporter.loop with
  | none => (sender, stream)
  | some loop =>
      let fuel := stream.buffer.ring.outstanding + loop.pending.length + loop.tasks.length + 4
      let (sender, stream, loop) := turns ready model now fuel sender stream loop
      (sender, { stream with reporter := { stream.reporter with loop := some loop } })

/-- What comes about without any time passing but that of rests. -/
def settle (model : SenderModel σ) (now : Nat) (sender : σ) (stream : MetricStream) :
    σ × MetricStream :=
  runDown (loopReady now) model now sender stream

def moment (model : SenderModel σ) (now : Nat) (sender : σ) (stream : MetricStream) :
    σ × MetricStream :=
  runDown (loopAwake now) model now sender stream

def stop (model : SenderModel σ) (now : Nat) (sender : σ) (stream : MetricStream) :
    σ × MetricStream :=
  if stream.reporter.attached then
    settle model now sender { stream with reporter := stream.reporter.requestStop }
  else (sender, stream)

def spinningEnds? (stream : MetricStream) : Option Nat :=
  stream.reporter.loop.bind fun loop =>
    match loop.phase with
    | .resting since _ _ => some (since + stream.settings.maxSpinning)
    | _ => none

end MetricReporting.MetricStream
