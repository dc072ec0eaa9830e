import MetricReporting.Pipeline.Producer
import MetricReporting.Pipeline.RunStats
import MetricReporting.Session

/-!
# Running a pipeline

Producers emit events until the run is over; then every buffer is drained. Time is counted in full
milliseconds: in each one the producers come first and the drain loops that are awake after them.
-/
namespace MetricReporting

structure PipelineConfig where
  reporting : ReportingConfig
  /-- The length of the run in milliseconds; without it the run lasts until shutdown. -/
  duration : Option Nat
  producers : Nat
  rate : Nat
  bufferCapacity : Nat

/-- An error with the context in which it came up, outermost first. -/
structure Failure where
  context : List String
  cause : ReporterError
deriving DecidableEq, Repr

def Failure.chain (failure : Failure) : List String :=
  failure.context ++ failure.cause.chain

namespace Pipeline

structure State where
  floor : Producer.Floor
  session : Session
  network : Network
  files : FileTree

def memberMoment (now : Nat) (member : Session.Member) (around : Surroundings) :
    Session.Member × Surroundings :=
  Session.within
    (MetricStream.moment (Sender.model around.network member.reporter.sendsCancelled) now)
    member around

def tick (producers period : Nat) (state : State) (millis : Nat) : State :=
  let floor := state.floor.produce producers period millis
  let (members, around) :=
    Session.overMembers (memberMoment (millis * DrainLoop.millisecond)) state.session.members
      ⟨state.network, floor.registry, state.files⟩
  { state with
    floor := { floor with registry := around.registry }
    session := ⟨members⟩
    files := around.files }

def ending (config : PipelineConfig) (shutdown : Option Nat) : Nat :=
  match config.duration, shutdown with
  | some a, some b => min a b
  | some a, none => a
  | none, some b => b
  | none, none => 0

def statisticsObserver : String := "statistics"

def run (network : Network) (host : HostInformation) (config : PipelineConfig)
    (shutdown : Option Nat) (files : FileTree) : Except Failure (RunStats × FileTree) :=
  let registry := (({} : Registry).observe statisticsObserver).attach config.bufferCapacity
  match Session.ofConfig config.reporting host registry.buffers.size ⟨network, registry, files⟩ with
  | .error cause => .error ⟨["Failed to create reporters"], cause⟩
  | .ok (session, around) =>
      match session.start 0 with
      | (_, some cause) => .error ⟨["Failed to start reporters"], cause⟩
      | (session, none) =>
          let stop := ending config shutdown
          let period := Producer.period config.rate
          let begun : State := ⟨⟨around.registry, {}, 0⟩, session, network, around.files⟩
          let ended := (List.range stop).foldl (tick config.producers period) begun
          let (session, around) :=
            ended.session.stop (stop * DrainLoop.millisecond)
              ⟨network, ended.floor.registry, ended.files⟩
          let flushed :=
            (session.metrics.map fun pair => pair.2.entriesFlushed.toNat).foldr (· + ·) 0
          let emitted := ended.floor.emitted
          let stats : RunStats :=
            { duration := TimeSpan.ofMillis stop
              producers := config.producers
              eventsEmitted := emitted
              summary := ended.floor.aggregate.recordDropped (emitted - flushed)
              reporters := session.metrics }
          .ok (stats, around.files)

end Pipeline

end MetricReporting
