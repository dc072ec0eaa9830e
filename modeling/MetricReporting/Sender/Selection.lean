import MetricReporting.Sender.Datagram
import MetricReporting.Sender.Envelope
import MetricReporting.Sender.FileSink

/-!
# The sender that the configuration selects

Payloads go to the log in monitoring messages, out as datagrams, or into files. A sender that
cannot be made says why under the name of its metric type.
-/
namespace MetricReporting

inductive Sender
  | log (template : EnvelopeTemplate)
  | udp (sink : DatagramSink)
  | file (sink : FileSink)
deriving DecidableEq, Repr

namespace Sender

def name : Sender → String
  | log template => template.destination
  | udp sink => sink.name
  | file sink => sink.name

def kind : Sender → String
  | log _ => "log"
  | udp _ => "udp"
  | file _ => "file"

def create (network : Network) (files : FileTree) (config : ReportingConfig)
    (host : HostInformation) (metricType : String) : Except ReporterError (Sender × FileTree) :=
  match config.sender with
  | .log => .ok (log (EnvelopeTemplate.ofConfig config host metricType), files)
  | .udp address maxPacketSize =>
      match DatagramSink.create network metricType address maxPacketSize with
      | .ok sink => .ok (udp sink, files)
      | .error refusal => .error (.senderCreation metricType refusal.message)
  | .file directory =>
      match FileSink.create files metricType directory with
      | .ok (sink, files) => .ok (file sink, files)
      | .error refusal => .error (.senderCreation metricType refusal.message)

def send (sender : Sender) (network : Network) (cancelled : Bool) (files : FileTree)
    (payload : Bytes) : Except ReportingError Unit × Sender × FileTree :=
  match sender with
  | log template => (.ok (), log template, files)
  | udp sink => (sink.send network cancelled payload, udp sink, files)
  | file sink =>
      let (result, sink, files) := sink.send files payload
      (result, file sink, files)

end Sender

end MetricReporting
