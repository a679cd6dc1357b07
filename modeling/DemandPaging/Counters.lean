/-!
# Counters

What the pager counts, and a snapshot of it. A running pager counts in machine
words. The counts here have no bound, so they agree with its counts below
`wordLimit` events; what a count does beyond its last word is not considered.
-/

namespace DemandPaging

/-- Counts over the life of a pager, taken as natural numbers. -/
structure Counters where
  /-- Faults that were classified. -/
  faults : Nat := 0
  /-- Pages loaded from swap. -/
  loads : Nat := 0
  /-- Pages evicted to make room. -/
  evictions : Nat := 0
  /-- Written pages saved to swap. -/
  flushes : Nat := 0
  /-- Ticks delivered to the policy. -/
  ticks : Nat := 0
  deriving DecidableEq, Repr

/-- The counts and the number of resident pages at one moment. -/
structure Stats extends Counters where
  /-- Pages resident at that moment. -/
  resident : Nat := 0
  deriving DecidableEq, Repr

/-- The counts in the order in which they are listed. -/
def Stats.toList (s : Stats) : List Nat :=
  [s.faults, s.loads, s.evictions, s.flushes, s.ticks, s.resident]

end DemandPaging
