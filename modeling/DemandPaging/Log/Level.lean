import DemandPaging.Text.Blank

/-!
# Log levels

How grave a log record is, and down to which level records are kept.
-/

namespace DemandPaging.Log

/-- How grave a record is, the gravest first. -/
inductive Level where
  | error
  | warn
  | info
  | debug
  | trace
  deriving DecidableEq, Repr

namespace Level

/-- The position of a level; graver levels come first. -/
def rank : Level → Nat
  | error => 1
  | warn => 2
  | info => 3
  | debug => 4
  | trace => 5

/-- The name of the level in a log line. -/
def text : Level → String
  | error => "ERROR"
  | warn => "WARN"
  | info => "INFO"
  | debug => "DEBUG"
  | trace => "TRACE"

end Level

/-- The least grave records that are kept, if any are. -/
inductive Threshold where
  /-- No record is kept. -/
  | off
  /-- Records of this level and all graver ones are kept. -/
  | upTo (level : Level)
  deriving DecidableEq, Repr

namespace Threshold

/-- Every threshold, the strictest first. -/
def all : List Threshold :=
  [off, upTo .error, upTo .warn, upTo .info, upTo .debug, upTo .trace]

/-- The name of the threshold. -/
def text : Threshold → String
  | off => "OFF"
  | upTo level => level.text

/-- Records of the given level are kept. -/
def keeps : Threshold → Level → Bool
  | off, _ => false
  | upTo limit, level => level.rank ≤ limit.rank

/-- Read a threshold, whatever its case and the blanks around it. -/
def ofText? (s : String) : Option Threshold :=
  all.find? fun t => Text.spells s t.text

/-- The name of the environment variable that sets the threshold. -/
def variableName : String := "UVM_LOG"

/-- The threshold set by the environment; `default` when it is unset or names no threshold. -/
def ofEnvironment (value : Option String) (default : Threshold) : Threshold :=
  (value.bind ofText?).getD default

end Threshold

end DemandPaging.Log
