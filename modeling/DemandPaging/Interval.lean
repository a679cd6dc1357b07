import DemandPaging.Text.Align

/-!
# Time intervals

A span of time in whole nanoseconds, written in the largest unit that it
fills: seconds, milliseconds, microseconds or nanoseconds.
-/

namespace DemandPaging

/-- A span of time. -/
structure Interval where
  /-- Its length in nanoseconds. -/
  nanoseconds : Nat
  deriving DecidableEq, Repr

namespace Interval

/-- The units larger than a nanosecond. -/
inductive Scale where
  /-- A thousand nanoseconds. -/
  | microsecond
  /-- A million nanoseconds. -/
  | millisecond
  /-- A thousand million nanoseconds. -/
  | second
  deriving DecidableEq, Repr

namespace Scale

/-- Nanoseconds in one unit. -/
def length : Scale → Nat
  | microsecond => 1000
  | millisecond => 1000000
  | second => 1000000000

/-- Decimal places that a nanosecond takes after the point. -/
def places : Scale → Nat
  | microsecond => 3
  | millisecond => 6
  | second => 9

/-- The name of the unit. -/
def text : Scale → String
  | microsecond => "µs"
  | millisecond => "ms"
  | second => "s"

end Scale

/-- The digits of `part`, filled up to the given places, after a decimal point. Trailing zeros and an empty point are
left out. -/
def fraction (places part : Nat) : String :=
  let digits := (Text.alignRight places '0' (toString part)).toList
  match (digits.reverse.dropWhile (· == '0')).reverse with
  | [] => ""
  | kept => "." ++ String.ofList kept

/-- The interval in the given unit. -/
def inScale (i : Interval) (u : Scale) : String :=
  toString (i.nanoseconds / u.length) ++ fraction u.places (i.nanoseconds % u.length) ++ u.text

/-- The written form of an interval. -/
def text (i : Interval) : String :=
  if Scale.second.length ≤ i.nanoseconds then i.inScale .second
  else if Scale.millisecond.length ≤ i.nanoseconds then i.inScale .millisecond
  else if Scale.microsecond.length ≤ i.nanoseconds then i.inScale .microsecond
  else toString i.nanoseconds ++ "ns"

end Interval

end DemandPaging
