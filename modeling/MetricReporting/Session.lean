import MetricReporting.Probe.Registry
import MetricReporting.Reporter.Settle
import MetricReporting.Sender.Script

/-!
# Reporting sessions

A session has one reporter with its sender for each metric buffer. All are started together, and
stopped together; afterwards they stand in the order of their metric types.
-/
namespace MetricReporting

structure Session.Member where
  source : Nat
  sender : Sender
  reporter : Reporter

structure Session where
  members : List Session.Member := []

structure Surroundings where
  network : Network
  registry : Registry := {}
  files : FileTree := {}

namespace Session

def build (network : Network) (config : ReportingConfig) (host : HostInformation) :
    List (Nat × MetricBuffer) → FileTree → Except ReporterError (List Member × FileTree)
  | [], files => .ok ([], files)
  | (number, buffer) :: rest, files => do
      let (sender, files) ← Sender.create network files config host buffer.metricType
      let settings := DrainSettings.ofConfig config.reporter config.reportingInterval
      let (members, files) ← build network config host rest files
      return (⟨number, sender, Reporter.forBuffer buffer settings⟩ :: members, files)

def ofConfig (config : ReportingConfig) (host : HostInformation) (count : Nat)
    (around : Surroundings) : Except ReporterError (Session × Surroundings) := do
  let buffers := around.registry.buffers.toList.take count
  let numbered := (List.range buffers.length).zip buffers
  let (members, files) ← build around.network config host numbered around.files
  return (⟨members⟩, { around with files := files })

def size (session : Session) : Nat :=
  session.members.length

def metrics (session : Session) : List (String × ReporterMetrics) :=
  session.members.map fun member => (member.reporter.metricType, member.reporter.metrics)

/-- Starts the reporters in turn, up to the first that does not start. -/
def startMembers (now : Nat) : List Member → List Member × Option ReporterError
  | [] => ([], none)
  | member :: rest =>
      match member.reporter.start now with
      | .error error => (member :: rest, some error)
      | .ok reporter =>
          let (rest, error?) := startMembers now rest
          ({ member with reporter := reporter } :: rest, error?)

def start (session : Session) (now : Nat) : Session × Option ReporterError :=
  let (members, error?) := startMembers now session.members
  (⟨members⟩, error?)

abbrev Act := (Sender × FileTree) → MetricStream → (Sender × FileTree) × MetricStream

def within (act : Act) (member : Member) (around : Surroundings) : Member × Surroundings :=
  match around.registry.buffers[member.source]? with
  | none => (member, around)
  | some buffer =>
      let ((sender, files), stream) :=
        act (member.sender, around.files) ⟨buffer, around.registry.telemetry, member.reporter⟩
      let registry := { around.registry with
        buffers := around.registry.buffers.setIfInBounds member.source stream.buffer
        telemetry := stream.telemetry }
      ({ member with sender := sender, reporter := stream.reporter },
        { around with registry := registry, files := files })

def settleMember (now : Nat) (member : Member) (around : Surroundings) : Member × Surroundings :=
  within (MetricStream.settle (Sender.model around.network member.reporter.sendsCancelled) now)
    member around

def stopMember (now : Nat) (member : Member) (around : Surroundings) : Member × Surroundings :=
  let (member, around) :=
    within (MetricStream.stop (Sender.model around.network member.reporter.sendsCancelled) now)
      member around
  ({ member with reporter := member.reporter.dispose }, around)

def overMembers (act : Member → Surroundings → Member × Surroundings) :
    List Member → Surroundings → List Member × Surroundings
  | [], around => ([], around)
  | member :: rest, around =>
      let (member, around) := act member around
      let (rest, around) := overMembers act rest around
      (member :: rest, around)

def settle (session : Session) (now : Nat) (around : Surroundings) : Session × Surroundings :=
  let (members, around) := overMembers (settleMember now) session.members around
  (⟨members⟩, around)

/-- The members in ascending order of metric types, ties in the order given. -/
def ordered (members : List Member) : List Member :=
  members.mergeSort fun a b => decide (a.reporter.metricType ≤ b.reporter.metricType)

def stop (session : Session) (now : Nat) (around : Surroundings) : Session × Surroundings :=
  let (members, around) := overMembers (stopMember now) session.members around
  (⟨ordered members⟩, around)

def describe (session : Session) : String :=
  let names := session.members.map fun member => "\"" ++ member.reporter.metricType ++ "\""
  "ReportingSession \x7b reporters: [" ++ String.intercalate ", " names ++ "] \x7d"

theorem ordered_perm (members : List Member) : (ordered members).Perm members :=
  List.mergeSort_perm members _

end Session

end MetricReporting
