/-!
# The timer signal

A signal that can be blocked. Signals raised while it is blocked are pending,
all of them together as one, and the pending one is delivered as soon as the
signal is unblocked.
-/

namespace DemandPaging

/-- The state of the timer signal. -/
structure Alarm where
  /-- The signal is not delivered. -/
  blocked : Bool := false
  /-- A signal waits for its delivery. -/
  pending : Bool := false
  deriving DecidableEq, Repr

namespace Alarm

/-- Raise the signal; tells whether it is delivered now. -/
def raise (a : Alarm) : Bool × Alarm :=
  if a.blocked then (false, { a with pending := true }) else (true, a)

/-- Block the signal; tells whether it was blocked before. -/
def block (a : Alarm) : Bool × Alarm := (a.blocked, { a with blocked := true })

/-- Put the former state of the signal back; tells whether a pending signal is delivered now. -/
def restore (a : Alarm) (previous : Bool) : Bool × Alarm :=
  (!previous && a.pending, { blocked := previous, pending := previous && a.pending })

end Alarm

end DemandPaging
