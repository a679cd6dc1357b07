import DemandPaging.Error
import DemandPaging.Policy.Kind

/-!
# Configuration

The settings of a pager and the conditions that they have to meet.
-/

namespace DemandPaging

/-- The settings of a pager. -/
structure Config where
  /-- Pages that may be resident at once. -/
  budget : Nat := defaultBudget
  /-- How victims are chosen. -/
  policy : PolicyKind := .clock
  /-- The interval between ticks; without one, ticks are delivered by hand. -/
  timer : Option Interval := some ⟨timeslice⟩
  /-- The directory of the swap file; without one, the host chooses. -/
  swapDirectory : Option String := none
  /-- The seed of the random policy; without one, the host supplies randomness. -/
  seed : Option UInt64 := none
  deriving DecidableEq, Repr

namespace Config

/-- The settings used when nothing is said. -/
def default : Config := {}

/-- The budget admits a page and no more pages than there are; a timer is not finer than its resolution. -/
def validate (c : Config) : Except PagerError Unit :=
  if c.budget = 0 ∨ pageCount < c.budget then .error (.residentBudget c.budget)
  else match c.timer with
    | some interval =>
      if interval.nanoseconds < timerResolution then .error (.timerInterval interval) else .ok ()
    | none => .ok ()

end Config

end DemandPaging
