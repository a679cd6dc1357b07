/-!
# The spin lock

A value behind a flag. Whoever sets the flag holds a guard, and dropping any
guard clears the flag. An attempt to take the lock makes its guard before the
outcome is known: a failed attempt drops that guard again and so clears the
flag that somebody else had set.
-/

namespace DemandPaging

/-- A value and the flag that protects it. -/
structure SpinLock (α : Type) where
  /-- The flag is set. -/
  locked : Bool
  /-- The protected value. -/
  value : α
  deriving DecidableEq, Repr

namespace SpinLock

variable {α : Type}

/-- A free lock. -/
def new (a : α) : SpinLock α := ⟨false, a⟩

/-- Clear the flag, as the drop of a guard does. -/
def release (l : SpinLock α) : SpinLock α := { l with locked := false }

/-- Set the flag, unless it is set already: a caller that waits has to go on waiting then. -/
def acquire? (l : SpinLock α) : Option (SpinLock α) :=
  if l.locked then none else some { l with locked := true }

/-- Try once to take the lock; tells whether a guard was handed out. -/
def tryAcquire (l : SpinLock α) : Bool × SpinLock α :=
  match l.acquire? with
  | some l => (true, l)
  | none => (false, l.release)

/-- Change the value while the lock is held; nothing, if a caller has to wait for the lock. -/
def withLock {β : Type} (l : SpinLock α) (f : α → β × α) : Option (β × SpinLock α) :=
  l.acquire?.map fun l =>
    let r := f l.value
    (r.1, { l with value := r.2 }.release)

/-- The lock after `n` increments of its value, each while the lock is held. -/
def increment (l : SpinLock Nat) (n : Nat) : SpinLock Nat :=
  (List.range n).foldl (fun l _ =>
    match l.withLock fun x => ((), x + 1) with
    | some r => r.2
    | none => l) l

end SpinLock

end DemandPaging
