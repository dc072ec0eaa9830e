import MetricReporting.Payload.Bytes
import MetricReporting.Reporter.Metrics
import MetricReporting.Telemetry

/-!
# Sends on their way

Every payload is sent by a task of its own, which holds one permit from its start to its end. The
task counts itself, calls the sender, counts itself off when the call returns, and then counts the
result. A call that panics or is aborted leaves the task where it stands.
-/
namespace MetricReporting

inductive SendOutcome
  | delivered
  | failed
  | cancelled
  | panicked
deriving DecidableEq, Repr

namespace SendTask

inductive Phase
  | spawned
  | counted
  | calling
  | returned (outcome : SendOutcome)
  | uncounted (outcome : SendOutcome)
  | ended
deriving DecidableEq, Repr, Inhabited

end SendTask

structure SendTask where
  /-- How many payloads were submitted before this one. -/
  number : Nat
  payload : Bytes
  entries : Nat
  phase : SendTask.Phase := .spawned
deriving DecidableEq, Repr

/-- What a task and the counters it moves are at some moment. -/
structure SendTask.Moment where
  task : SendTask
  metrics : ReporterMetrics
  telemetry : Telemetry
deriving DecidableEq, Repr

namespace SendTask

def isEnded (task : SendTask) : Bool :=
  task.phase == .ended

def isCalling (task : SendTask) : Bool :=
  task.phase == .calling

namespace Moment

def enter (moment : Moment) (phase : Phase) : Moment :=
  { moment with task := { moment.task with phase := phase } }

def settle (metricType : String) (moment : Moment) : SendOutcome → Moment
  | .delivered =>
      let bytes := moment.task.payload.length
      { moment with
        metrics := moment.metrics.payloadSent moment.task.entries bytes
        telemetry := moment.telemetry.sent metricType bytes moment.task.entries }
  | .cancelled => { moment with metrics := moment.metrics.sendCancelled }
  | .failed =>
      { moment with
        metrics := moment.metrics.sendFailed
        telemetry := moment.telemetry.failed metricType }
  | .panicked => moment

def step (metricType : String) (answer : Option SendOutcome) (moment : Moment) : Moment :=
  match moment.task.phase, answer with
  | .spawned, _ => { moment with metrics := moment.metrics.sendStarted }.enter .counted
  | .counted, _ => moment.enter .calling
  | .calling, none => moment
  | .calling, some .panicked => moment.enter .ended
  | .calling, some outcome => moment.enter (.returned outcome)
  | .returned outcome, _ =>
      { moment with metrics := moment.metrics.sendFinished }.enter (.uncounted outcome)
  | .uncounted outcome, _ => (moment.settle metricType outcome).enter .ended
  | .ended, _ => moment

end Moment

end SendTask

/-- How a sender behaves, over states of its own: it takes a call, and later says how it ends. -/
structure SenderModel (σ : Type) where
  called : σ → SendTask → σ
  answer : σ → SendTask → Option SendOutcome × σ

namespace SenderModel

variable {σ : Type}

def step (model : SenderModel σ) (metricType : String) (state : σ × SendTask.Moment) :
    σ × SendTask.Moment :=
  match state.2.task.phase with
  | .counted => (model.called state.1 state.2.task, state.2.step metricType none)
  | .calling =>
      let (answer, sender) := model.answer state.1 state.2.task
      (sender, state.2.step metricType answer)
  | _ => (state.1, state.2.step metricType none)

def poll (model : SenderModel σ) (metricType : String) (state : σ × SendTask.Moment) :
    σ × SendTask.Moment :=
  let steps := [(), (), (), (), ()]
  steps.foldl (fun state _ => model.step metricType state) state

end SenderModel

end MetricReporting
