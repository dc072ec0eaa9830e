import MetricReporting.Config.Basic
import MetricReporting.Host
import MetricReporting.Keyed

/-!
# Monitoring messages

A payload for the collector travels in a message with headers that name the endpoint, the host, the
content and the metric type. Headers are kept in ascending order of their names.
-/
namespace MetricReporting

abbrev Headers := List (String × String)

namespace Headers

def originatingEndpoint : String := "NServiceBus.OriginatingEndpoint"
def originatingMachine : String := "NServiceBus.OriginatingMachine"
def originatingHostId : String := "$.diagnostics.originating.hostid"
def hostDisplayName : String := "$.diagnostics.hostdisplayname"
def contentType : String := "NServiceBus.ContentType"
def metricType : String := "NServiceBus.Metric.Type"
def metricInstanceId : String := "NServiceBus.Metric.InstanceId"

def taggedContent : String := "TaggedLongValueWriterOccurrence"

def set (headers : Headers) (name value : String) : Headers :=
  Keyed.adjustAscending (fun a b => decide (a < b)) name (fun _ => value) headers

def identifying (config : ReportingConfig) (host : HostInformation) : Headers :=
  let headers := Headers.set [] originatingEndpoint config.endpointName
  let headers := Headers.set headers originatingMachine host.machineName
  let headers := Headers.set headers originatingHostId host.hostIdText
  let headers := Headers.set headers hostDisplayName host.displayName
  match config.effectiveInstanceId with
  | none => headers
  | some id => Headers.set headers metricInstanceId id

end Headers

structure Envelope where
  id : String
  headers : Headers
  body : Bytes
  destination : String
  timeToBeReceived : TimeSpan
deriving DecidableEq, Repr

/-- What all messages of one metric stream share. -/
structure EnvelopeTemplate where
  destination : String
  headers : Headers
  timeToBeReceived : TimeSpan
deriving DecidableEq, Repr

namespace EnvelopeTemplate

def ofConfig (config : ReportingConfig) (host : HostInformation) (metricType : String) :
    EnvelopeTemplate where
  destination := config.metricsAddress
  headers :=
    ((Headers.identifying config host).set Headers.contentType Headers.taggedContent).set
      Headers.metricType metricType
  timeToBeReceived := config.timeToBeReceived

def wrap (template : EnvelopeTemplate) (id : String) (body : Bytes) : Envelope where
  id := id
  headers := template.headers
  body := body
  destination := template.destination
  timeToBeReceived := template.timeToBeReceived

end EnvelopeTemplate

end MetricReporting
