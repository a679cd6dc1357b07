import DemandPaging.HostError.Description

/-!
# Refusals of the host

The host refuses a call with an error number; a caller of its own may refuse
with a text.
-/

namespace DemandPaging

/-- Why the host refused a call. -/
inductive HostError where
  /-- An error number of the operating system. -/
  | code (number : Int)
  /-- A refusal with a text of its own. -/
  | custom (text : String)
  deriving DecidableEq, Repr

namespace HostError

/-- A path that does not exist. -/
def notFound : HostError := code 2

/-- A bad address range for a protection change, and an exhausted address space. -/
def outOfMemory : HostError := code 12

/-- A directory that takes no new files. -/
def permissionDenied : HostError := code 13

/-- An argument that the host does not accept. -/
def invalidArgument : HostError := code 22

/-- A file that would grow beyond its limit. -/
def fileTooLarge : HostError := code 27

/-- A path that is too long. -/
def nameTooLong : HostError := code 36

/-- A path with too many links on the way. -/
def tooManyLinks : HostError := code 40

/-- The form of a refusal in messages. -/
def text : HostError → String
  | code number => description number ++ " (os error " ++ toString number ++ ")"
  | custom text => text

end HostError

end DemandPaging
