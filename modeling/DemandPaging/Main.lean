import DemandPaging.Demo.Run
import Mathlib.Tactic.Common

/-!
# The command line

Reads the environment, runs the demo and prints what it leaves behind.
-/

open DemandPaging

/-- The seconds since the epoch; one, if the clock is set to a time before it. -/
def clockSeconds : IO Nat := do
  let seconds := (← Std.Time.Timestamp.now).toSecondsSinceUnixEpoch.val
  return if seconds < 0 then 1 else seconds.toNat

/-- Run the demo with the given arguments. -/
def main (arguments : List String) : IO UInt32 := do
  let outcome := Demo.execute Host.willing (← clockSeconds)
    (← IO.getEnv Log.Threshold.variableName) arguments
  IO.print outcome.output
  IO.eprint outcome.errors
  return match outcome.exit, outcome.signal with
    | some status, _ => UInt32.ofNat status
    | none, some signal => UInt32.ofNat (128 + signal.number)
    | none, none => 0
