import MetricReporting.FileTree
import MetricReporting.ReportingError
import MetricReporting.Text.Digits

/-!
# Payloads as files

Each payload becomes a file of its own, named by the stream and a number that counts up with every
send, whether it succeeds or not.
-/
namespace MetricReporting

structure FileSink where
  name : String
  directory : String
  sequence : UInt64 := 0
deriving DecidableEq, Repr

namespace FileSink

def fileName (name : String) (sequence : UInt64) : String :=
  name ++ "-" ++ Text.padded 6 sequence.toNat ++ ".bin"

def path (sink : FileSink) : String :=
  FileTree.join sink.directory (fileName sink.name sink.sequence)

def create (files : FileTree) (name directory : String) : Except OsError (FileSink × FileTree) :=
  (files.makeDirectories directory).map fun files => (⟨name, directory, 0⟩, files)

def next (sink : FileSink) : FileSink :=
  { sink with sequence := sink.sequence + 1 }

def send (sink : FileSink) (files : FileTree) (payload : Bytes) :
    Except ReportingError Unit × FileSink × FileTree :=
  match files.write sink.path payload with
  | .ok files => (.ok (), sink.next, files)
  | .error refusal => (.error (.io refusal), sink.next, files)

end FileSink

end MetricReporting
