import MetricReporting.Payload.Bytes
import MetricReporting.Text.Digits

/-!
# The reporting host

The identity under which a process reports: an id of sixteen bytes, a display name and the name of
the machine, which is taken from the environment.
-/
namespace MetricReporting

abbrev Environment := String → Option String

structure HostInformation where
  hostId : Bytes
  displayName : String
  machineName : String
deriving DecidableEq, Repr, Inhabited

namespace HostInformation

/-- The first of the two variables that is set names the machine, unless it is empty. -/
def localName (environment : Environment) : String :=
  match environment "HOSTNAME" <|> environment "COMPUTERNAME" with
  | some name => if name.isEmpty then "localhost" else name
  | none => "localhost"

def ofEnvironment (environment : Environment) (hostId : Bytes) : HostInformation :=
  ⟨hostId, localName environment, localName environment⟩

def hostIdText (host : HostInformation) : String :=
  Text.hex host.hostId

end HostInformation

end MetricReporting
