/-!
# Why a payload is rejected

Each cause carries what its message shows. A payload is read field by field, and the first field
that fails its check decides.
-/
namespace MetricReporting.Payload

inductive Field
  | version
  | baseTicks
  | tagCount
  | tagId
  | tagLength
  | tagName
  | entryCount
  | delta
  | value
deriving DecidableEq, Repr

def Field.name : Field → String
  | version => "version"
  | baseTicks => "base ticks"
  | tagCount => "tag count"
  | tagId => "tag id"
  | tagLength => "tag length"
  | tagName => "tag name"
  | entryCount => "entry count"
  | delta => "delta"
  | value => "value"

inductive DecodeError
  | unsupportedVersion (version : Int64)
  | truncated (field : Field) (needed remaining : Nat)
  | unknownTag (id : Int32)
  | invalidName (id : Int32)
  | negativeCount (field : Field) (value : Int32)
  | timestampOverflow (base : Int64) (delta : Int32)
deriving DecidableEq, Repr

def DecodeError.message : DecodeError → String
  | unsupportedVersion version => s!"unsupported payload version {version}"
  | truncated field needed remaining =>
      "payload truncated: needed " ++ toString needed ++ " bytes for " ++ field.name ++ ", " ++
        toString remaining ++ " remaining"
  | unknownTag id => s!"entry references unknown tag id {id}"
  | invalidName id => s!"tag {id} is not valid utf-8"
  | negativeCount field value => "negative " ++ field.name ++ ": " ++ toString value
  | timestampOverflow base delta => s!"timestamp overflow: base {base} + delta {delta}"

end MetricReporting.Payload
