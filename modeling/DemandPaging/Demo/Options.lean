import DemandPaging.Config
import DemandPaging.Text.Unsigned

/-!
# The command line of the demo

The grammar of the arguments: options with a value each, and one size, in any
order. An option takes the argument that follows it, whatever it looks like;
of a repeated option the last one counts.
-/

namespace DemandPaging.Demo

/-- A command line that is not understood. -/
inductive UsageError where
  /-- The user asked for help. -/
  | helpWanted
  /-- The last argument is an option that wants a value. -/
  | missingValue (option : String)
  /-- A value that is not a number, or too large. -/
  | notANumber (text : String)
  /-- An option that does not exist. -/
  | unknownOption (text : String)
  /-- A second size. -/
  | unexpectedArgument (text : String)
  /-- No size. -/
  | sizeMissing
  /-- A policy that does not exist. -/
  | policy (cause : PolicyError)
  deriving DecidableEq, Repr

/-- The options that take a value. -/
inductive OptionName where
  /-- The seed of the elements. -/
  | seed
  /-- The budget of resident pages. -/
  | budget
  /-- The eviction policy. -/
  | policy
  deriving DecidableEq, Repr

/-- The spelling of an option in messages. -/
def OptionName.text : OptionName → String
  | seed => "--seed"
  | budget => "--max-resident"
  | policy => "--policy"

/-- What an argument is, when it is not the value of an option. -/
inductive Argument where
  /-- An option that takes the next argument. -/
  | option (name : OptionName)
  /-- A wish for help. -/
  | help
  /-- Some other argument that begins with a dash. -/
  | unknown
  /-- An argument without a dash at its beginning. -/
  | plain
  deriving DecidableEq, Repr

/-- Tell what an argument is. -/
def Argument.ofText (s : String) : Argument :=
  if s = "--seed" ∨ s = "-s" then option .seed
  else if s = "--max-resident" ∨ s = "--max_resident" ∨ s = "-m" then option .budget
  else if s = "--policy" ∨ s = "-p" then option .policy
  else if s = "--help" ∨ s = "-h" then help
  else if s.toList.head? = some '-' then unknown
  else plain

/-- The settings read so far. -/
structure Draft where
  /-- The seed, if one was given. -/
  seed : Option Nat := none
  /-- The budget of resident pages. -/
  budget : Nat := defaultBudget
  /-- The eviction policy. -/
  policy : PolicyKind := .clock
  /-- The size of the matrices, if it was given. -/
  size : Option Nat := none
  deriving DecidableEq, Repr

/-- Read a machine word. -/
def number (s : String) : Except UsageError Nat :=
  match Text.unsigned? wordLimit s with
  | some n => .ok n
  | none => .error (.notANumber s)

namespace Draft

/-- Set an option. -/
def setOption (d : Draft) : OptionName → String → Except UsageError Draft
  | .seed, value => return { d with seed := some (← number value) }
  | .budget, value => return { d with budget := ← number value }
  | .policy, value =>
    match PolicyKind.ofText? value with
    | some policy => .ok { d with policy }
    | none => .error (.policy (.unknownPolicy value))

/-- Set the size, unless it was given before. -/
def setSize (d : Draft) (s : String) : Except UsageError Draft :=
  if d.size.isSome then .error (.unexpectedArgument s)
  else return { d with size := some (← number s) }

/-- Read the arguments in order. -/
def readAll : List String → Draft → Except UsageError Draft
  | [], d => .ok d
  | argument :: rest, d =>
    match Argument.ofText argument, rest with
    | .option name, [] => .error (.missingValue name.text)
    | .option name, value :: rest => do readAll rest (← d.setOption name value)
    | .help, _ => .error .helpWanted
    | .unknown, _ => .error (.unknownOption argument)
    | .plain, rest => do readAll rest (← d.setSize argument)

end Draft

/-- The settings of a run. -/
structure Options where
  /-- The seed of the elements and of a random policy. -/
  seed : Nat
  /-- The budget of resident pages. -/
  budget : Nat
  /-- The eviction policy. -/
  policy : PolicyKind
  /-- The matrices have this many rows and columns. -/
  size : Nat
  deriving DecidableEq, Repr

/-- Read a command line. A seed that is missing or zero is replaced by the time `now`. -/
def Options.ofArguments (now : Nat) (arguments : List String) : Except UsageError Options := do
  let d ← Draft.readAll arguments {}
  match d.size with
  | none => .error .sizeMissing
  | some size => return { seed := (d.seed.filter (· ≠ 0)).getD now, budget := d.budget, policy := d.policy, size }

/-- The description of the command line. -/
def usage : String :=
  "usage: matrix-demo [--seed N] [--max-resident N] [--policy fifo|clock|random] SIZE\n" ++
  "\n" ++
  "Generates two SIZE x SIZE matrices in paged memory and multiplies them\n" ++
  "into a third one.\n" ++
  "\n" ++
  "  --seed, -s N          seed for the random values (default: current time)\n" ++
  "  --max-resident, -m N  pages that may be resident at once (default: 64)\n" ++
  "  --policy, -p NAME     eviction policy (default: clock)\n" ++
  "  UVM_LOG=LEVEL         pager log level (default: info)"

namespace UsageError

/-- The complaint about a command line. -/
def message : UsageError → String
  | helpWanted => ""
  | missingValue option => option ++ " needs a value"
  | notANumber text => "\x60" ++ text ++ "\x60 is not a valid number"
  | unknownOption text => "unknown option " ++ text
  | unexpectedArgument text => "unexpected argument " ++ text
  | sizeMissing => "SIZE is required"
  | policy cause => cause.message

/-- What is printed about a command line: the complaint, and the description of the command line unless the policy is
at fault. -/
def text : UsageError → String
  | helpWanted => usage ++ "\n"
  | policy cause => cause.message ++ "\n"
  | e => e.message ++ "\n\n" ++ usage ++ "\n"

end UsageError

end DemandPaging.Demo
