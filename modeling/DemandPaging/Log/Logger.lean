import DemandPaging.Log.LineBuffer
import DemandPaging.Log.Record

/-!
# The logger

Records that the threshold keeps are written to a descriptor, each as one line
through a buffer of its own. A process installs one logger for good.
-/

namespace DemandPaging.Log

/-- The bytes of text. -/
def textBytes (s : String) : List UInt8 := s.toUTF8.toList

/-- Write text that is put together of fragments. -/
def Descriptor.writeText (d : Descriptor) (fragments : List String) : Bool × Descriptor :=
  d.writeLine (fragments.map textBytes)

/-- Write a record, if the threshold keeps it. A failed write is not reported anywhere. -/
def Descriptor.log (d : Descriptor) (threshold : Threshold) (r : Record) : Descriptor :=
  if threshold.keeps r.level then (d.writeText (r.fragments ++ ["\n"])).2 else d

/-- Why a logger was not installed. -/
inductive InstallError where
  /-- The process has a logger already. -/
  | alreadyInstalled
  deriving DecidableEq, Repr

/-- The text of a failure. -/
def InstallError.message : InstallError → String
  | alreadyInstalled =>
      "attempted to set a logger after the logging system was already initialized"

/-- Install a logger with the given threshold in a process whose present logger is `current`. -/
def install (current : Option Threshold) (threshold : Threshold) : Except InstallError Threshold :=
  if current.isSome then .error .alreadyInstalled else .ok threshold

end DemandPaging.Log
