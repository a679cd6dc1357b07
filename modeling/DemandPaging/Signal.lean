/-!
# Signals

The signals that the pager handles, and those that end a process.
-/

namespace DemandPaging

/-- A signal of the host. -/
inductive Signal where
  /-- An access that the protection of memory forbids. -/
  | segmentation
  /-- An expired timer. -/
  | alarm
  /-- The process gave up. -/
  | abort
  deriving DecidableEq, Repr

namespace Signal

/-- The number of the signal. -/
def number : Signal → Nat
  | segmentation => 11
  | alarm => 14
  | abort => 6

/-- The name of the signal. -/
def text : Signal → String
  | segmentation => "SIGSEGV"
  | alarm => "SIGALRM"
  | abort => "SIGABRT"

end Signal

end DemandPaging
