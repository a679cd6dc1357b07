import DemandPaging.Event
import DemandPaging.Panic

/-!
# Steps

A step works on a state, may report events and may stop early. A stopped step
leaves the state and the journal as they are at that point: nothing is undone.
-/

namespace DemandPaging

/-- Why a step did not run to its end. -/
inductive Stop where
  /-- A failure of the pager. -/
  | error (e : PagerError)
  /-- A call that breaks a rule. -/
  | panic (p : Panic)
  /-- The process is ended by a signal. -/
  | killed (s : Signal)
  deriving DecidableEq, Repr

/-- A state and the events reported on the way to it. -/
structure Traced (σ : Type) where
  /-- The state. -/
  state : σ
  /-- The events, in the order of their reports. -/
  journal : Array Event

/-- A step on states `σ` with result `α`. -/
abbrev Step (σ α : Type) := EStateM Stop (Traced σ) α

namespace Step

variable {σ α : Type}

/-- Add an event to the journal. -/
def report (e : Event) : Step σ Unit := fun t => .ok () { t with journal := t.journal.push e }

/-- Look at the state. -/
def query (f : σ → α) : Step σ α := fun t => .ok (f t.state) t

/-- Change the state. -/
def update (f : σ → σ) : Step σ Unit := fun t => .ok () { t with state := f t.state }

/-- Change the state and hand out a value. -/
def apply (f : σ → α × σ) : Step σ α := fun t =>
  let r := f t.state
  .ok r.1 { t with state := r.2 }

/-- Stop with a failure. -/
def fail (e : PagerError) : Step σ α := fun t => .error (.error e) t

/-- Stop with a panic. -/
def panic (p : Panic) : Step σ α := fun t => .error (.panic p) t

/-- Continue with the value of `r`, or stop with its failure. -/
def ofExcept : Except PagerError α → Step σ α
  | .ok a => fun t => .ok a t
  | .error e => fail e

/-- Continue with the value of `r`, or stop with its panic. -/
def ofChecked : Except Panic α → Step σ α
  | .ok a => fun t => .ok a t
  | .error p => panic p

/-- Continue with the value of `r`, or stop as it did. -/
def ofOutcome : Except Stop α → Step σ α
  | .ok a => fun t => .ok a t
  | .error s => fun t => .error s t

/-- Stop with the failure `e`, if there is one. -/
def refuse : Option PagerError → Step σ Unit
  | some e => fail e
  | none => fun t => .ok () t

/-- Run a step to its end or its stop, whichever comes first, and hand out how it ended. -/
def attempt (x : Step σ α) : Step σ (Except Stop α) := fun t =>
  match x t with
  | .ok a t => .ok (.ok a) t
  | .error e t => .ok (.error e) t

/-- Run a step on a state, with an empty journal: how it ended, the state it left and what it reported. -/
def start (x : Step σ α) (s : σ) : Except Stop α × σ × Array Event :=
  match x ⟨s, #[]⟩ with
  | .ok a t => (.ok a, t.state, t.journal)
  | .error e t => (.error e, t.state, t.journal)

/-- The state that a step leaves behind, whether it ran to its end or stopped. -/
def after (x : Step σ α) (t : Traced σ) : Traced σ :=
  match x t with
  | .ok _ t => t
  | .error _ t => t

end Step

end DemandPaging
