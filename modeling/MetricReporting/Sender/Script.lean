import MetricReporting.Reporter.SendTask
import MetricReporting.Sender.Selection

/-!
# How senders behave

A scripted sender follows a plan, one line per call, the last line for all further calls; a call may
wait for a permit, first come first served. The configured senders answer at once.
-/
namespace MetricReporting

inductive SendPlan
  | deliver
  | fail
  | cancel
  | panic
  /-- Waits for disposal. -/
  | hang
  /-- Waits for one permit and then delivers. -/
  | gate
  | gateThenFail
deriving DecidableEq, Repr

structure SendScript where
  plans : List SendPlan
  permits : Nat := 0
  /-- The payloads of the calls so far, the latest first. -/
  calls : List Bytes := []
deriving DecidableEq, Repr

namespace SendScript

def planOf (script : SendScript) (number : Nat) : SendPlan :=
  (script.plans[number]? <|> script.plans.getLast?).getD .deliver

def gated (script : SendScript) (outcome : SendOutcome) : Option SendOutcome × SendScript :=
  if script.permits = 0 then (none, script)
  else (some outcome, { script with permits := script.permits - 1 })

def answer (script : SendScript) (task : SendTask) : Option SendOutcome × SendScript :=
  match script.planOf task.number with
  | .deliver => (some .delivered, script)
  | .fail => (some .failed, script)
  | .cancel => (some .cancelled, script)
  | .panic => (some .panicked, script)
  | .hang => (none, script)
  | .gate => script.gated .delivered
  | .gateThenFail => script.gated .failed

def model : SenderModel SendScript where
  called script task := { script with calls := task.payload :: script.calls }
  answer := answer

end SendScript

def SendOutcome.ofResult : Except ReportingError Unit → SendOutcome
  | .ok () => .delivered
  | .error error => if error.isCancelled then .cancelled else .failed

def Sender.model (network : Network) (cancelled : Bool) : SenderModel (Sender × FileTree) where
  called state _ := state
  answer state task :=
    let (result, sender, files) := state.1.send network cancelled state.2 task.payload
    (some (SendOutcome.ofResult result), (sender, files))

end MetricReporting
