/-!
# Refusals of the operating system

Why an access to a file or to the network was refused, in the system's own words.
-/
namespace MetricReporting

inductive OsError
  | noSuchFile
  | alreadyExists
  | notADirectory
  | isADirectory
  | nameTooLong
  | networkUnreachable
  | zeroInPath
  | notText
  | badSocketAddress
  | badPort
  | other (text : String)
deriving DecidableEq, Repr

def OsError.message : OsError → String
  | noSuchFile => "No such file or directory (os error 2)"
  | alreadyExists => "File exists (os error 17)"
  | notADirectory => "Not a directory (os error 20)"
  | isADirectory => "Is a directory (os error 21)"
  | nameTooLong => "File name too long (os error 36)"
  | networkUnreachable => "Network is unreachable (os error 101)"
  | zeroInPath => "file name contained an unexpected NUL byte"
  | notText => "stream did not contain valid UTF-8"
  | badSocketAddress => "invalid socket address"
  | badPort => "invalid port value"
  | other text => text

end MetricReporting
