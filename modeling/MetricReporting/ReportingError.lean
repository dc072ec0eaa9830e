import MetricReporting.OsError

/-!
# Errors of reporting

What can go wrong between a configuration and a delivered payload, with the wording of each cause.
-/
namespace MetricReporting

inductive ReportingError
  | configParse (detail : String)
  | configValidation (field detail : String)
  | send (sender detail : String)
  | dispatch (destination detail : String)
  | cancelled
  | io (error : OsError)
deriving DecidableEq, Repr

namespace ReportingError

def message : ReportingError → String
  | configParse detail => "config parse error: " ++ detail
  | configValidation field detail => "config validation error at '" ++ field ++ "': " ++ detail
  | send sender detail => "sender '" ++ sender ++ "' error: " ++ detail
  | dispatch destination detail => "dispatch to '" ++ destination ++ "' failed: " ++ detail
  | cancelled => "operation cancelled"
  | io error => "io error: " ++ error.message

def isCancelled : ReportingError → Bool
  | cancelled => true
  | _ => false

def chain (error : ReportingError) : List String :=
  match error with
  | io cause => [error.message, cause.message]
  | _ => [error.message]

end ReportingError

inductive StartRefusal
  | alreadyStarted
  | noRuntime
  | other (text : String)
deriving DecidableEq, Repr

def StartRefusal.message : StartRefusal → String
  | alreadyStarted => "already started"
  | noRuntime => "no runtime is running"
  | other text => text

inductive ReporterError
  | senderCreation (name detail : String)
  | start (metricType : String) (refusal : StartRefusal)
  | contract (error : ReportingError)
  | io (error : OsError)
deriving DecidableEq, Repr

def ReporterError.message : ReporterError → String
  | senderCreation name detail => "failed to create sender '" ++ name ++ "': " ++ detail
  | start metricType refusal =>
      "reporter '" ++ metricType ++ "' cannot start: " ++ refusal.message
  | contract error => "contract error: " ++ error.message
  | io error => "io error: " ++ error.message

def ReporterError.chain (error : ReporterError) : List String :=
  match error with
  | contract cause => error.message :: cause.chain
  | io cause => [error.message, cause.message]
  | _ => [error.message]

end MetricReporting
