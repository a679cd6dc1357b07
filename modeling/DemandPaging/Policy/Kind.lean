import DemandPaging.Text.Blank

/-!
# Eviction policies by name

The three ways of choosing the page that makes room for another one.
-/

namespace DemandPaging

/-- The name of an eviction policy. -/
inductive PolicyKind where
  /-- The page loaded first leaves first. -/
  | fifo
  /-- The page that has gone longest without demonstrating use leaves first. -/
  | clock
  /-- A page drawn at random leaves. -/
  | random
  deriving DecidableEq, Repr

namespace PolicyKind

/-- The policy used when none is configured. -/
instance : Inhabited PolicyKind := ⟨clock⟩

/-- The name of the policy on the command line and in messages. -/
def text : PolicyKind → String
  | fifo => "fifo"
  | clock => "clock"
  | random => "random"

/-- The name of the policy as a field value. -/
def fieldText : PolicyKind → String
  | fifo => "Fifo"
  | clock => "Clock"
  | random => "Random"

/-- Read the name of a policy, whatever its case and the blanks around it. -/
def ofText? (s : String) : Option PolicyKind :=
  [fifo, clock, random].find? fun kind => Text.spells s kind.text

end PolicyKind

end DemandPaging
