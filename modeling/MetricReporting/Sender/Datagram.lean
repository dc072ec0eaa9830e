import MetricReporting.Config.SocketAddress
import MetricReporting.Payload.Bytes
import MetricReporting.ReportingError
import MetricReporting.Sender.NumericHost
import MetricReporting.Text.Digits

/-!
# Payloads as datagrams

Each payload is one datagram, unless it is longer than the largest packet allowed. An address is
checked and connected to when the sender is made.
-/
namespace MetricReporting

structure Network where
  connect : String → Except OsError Unit
  /-- Sends one datagram to an address. -/
  transmit : String → Bytes → Except OsError Unit

def Network.offline : Network where
  connect _ := .error .networkUnreachable
  transmit _ _ := .error .networkUnreachable

structure DatagramSink where
  name : String
  address : String
  maxPacketSize : Nat
deriving DecidableEq, Repr

namespace DatagramSink

def hostAndPort? (address : String) : Option (String × String) :=
  match (address.splitOn ":").reverse with
  | port :: part :: parts => some (":".intercalate (part :: parts).reverse, port)
  | _ => none

/-- Why an address names no socket. Names of hosts are looked up nowhere. -/
def addressRefusal? (address : String) : Option OsError :=
  if SocketAddress.isValid address then none
  else
    match hostAndPort? address with
    | none => some .badSocketAddress
    | some (host, port) =>
        if (Text.decimalBelow? 65536 port).isNone then some .badPort
        else if host.toList.contains '\x00' then some .zeroInPath
        else if NumericHost.isNumeric host then none
        else some
          (.other "failed to lookup address information: Temporary failure in name resolution")

def create (network : Network) (name address : String) (maxPacketSize : Nat) :
    Except OsError DatagramSink :=
  match addressRefusal? address with
  | some refusal => .error refusal
  | none => (network.connect address).map fun _ => ⟨name, address, maxPacketSize⟩

def oversize (sink : DatagramSink) (payload : Bytes) : ReportingError :=
  .send sink.name ("payload of " ++ toString payload.length ++ " bytes exceeds max packet size " ++
    toString sink.maxPacketSize)

/-- Sends a payload as one datagram; a cancelled send sends nothing. -/
def send (sink : DatagramSink) (network : Network) (cancelled : Bool) (payload : Bytes) :
    Except ReportingError Unit :=
  if sink.maxPacketSize < payload.length then .error (sink.oversize payload)
  else if cancelled then .error .cancelled
  else (network.transmit sink.address payload).mapError fun error => .send sink.name error.message

theorem send_of_long (sink : DatagramSink) (network : Network) (cancelled : Bool) {payload : Bytes}
    (h : sink.maxPacketSize < payload.length) :
    sink.send network cancelled payload = .error (sink.oversize payload) := by
  simp [send, h]

end DatagramSink

end MetricReporting
