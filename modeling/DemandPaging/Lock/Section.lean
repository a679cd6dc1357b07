import DemandPaging.Lock.Alarm
import DemandPaging.Lock.SpinLock

/-!
# Critical sections

One spin lock, the timer signal of the thread that uses it, and the guards and
masks that are alive. Guards and masks are numbered in the order in which they
are made. A masked guard blocks the signal before it takes the lock; when it is
dropped, the lock is released first and the signal is unblocked after that.
-/

namespace DemandPaging

/-- A guard that is alive. -/
inductive Guard where
  /-- A guard of the lock alone. -/
  | plain
  /-- A guard that also keeps the signal blocked; it remembers whether the signal was blocked before. -/
  | masked (previous : Bool)
  deriving DecidableEq, Repr

/-- A lock in use. -/
structure Section (α : Type) where
  /-- The lock. -/
  lock : SpinLock α
  /-- The timer signal. -/
  alarm : Alarm := {}
  /-- Signals delivered so far. -/
  delivered : Nat := 0
  /-- The guards by number; nothing where a guard was dropped. -/
  guards : List (Option Guard) := []
  /-- The masks by number, with what they found; nothing where a mask was dropped. -/
  masks : List (Option Bool) := []

namespace Section

variable {α : Type}

/-- A free lock in a thread that does not block the signal. -/
def new (a : α) : Section α := { lock := .new a }

/-- The guard with number `g`, if it is alive. -/
def guard? (s : Section α) (g : Nat) : Option Guard := (s.guards[g]?).join

/-- A guard is alive. -/
def isBorrowed (s : Section α) : Bool := s.guards.any (·.isSome)

/-- Hand out a guard. -/
def addGuard (s : Section α) (g : Guard) : Section α := { s with guards := s.guards ++ [some g] }

/-- Count a delivery. -/
def deliver (s : Section α) (delivered : Bool) : Section α :=
  { s with delivered := s.delivered + delivered.toNat }

/-- Block the signal; tells whether it was blocked before. -/
def block (s : Section α) : Bool × Section α :=
  let r := s.alarm.block
  (r.1, { s with alarm := r.2 })

/-- Put the former state of the signal back. -/
def restore (s : Section α) (previous : Bool) : Section α :=
  let r := s.alarm.restore previous
  { s with alarm := r.2 }.deliver r.1

/-- Raise the signal. -/
def raise (s : Section α) : Section α :=
  let r := s.alarm.raise
  { s with alarm := r.2 }.deliver r.1

/-- Take the lock; nothing, if the caller has to wait. -/
def acquire? (s : Section α) : Option (Section α) :=
  s.lock.acquire?.map fun lock => { s with lock }.addGuard .plain

/-- Block the signal and take the lock; nothing, if the caller has to wait. -/
def acquireMasked? (s : Section α) : Option (Section α) :=
  let r := s.block
  r.2.lock.acquire?.map fun lock => { r.2 with lock }.addGuard (.masked r.1)

/-- Try once to take the lock; tells whether a guard was handed out. -/
def tryAcquire (s : Section α) : Bool × Section α :=
  let r := s.lock.tryAcquire
  let s := { s with lock := r.2 }
  (r.1, if r.1 then s.addGuard .plain else s)

/-- Drop the guard with number `g`; nothing, if it is not alive. -/
def drop? (s : Section α) (g : Nat) : Option (Section α) :=
  (s.guard? g).map fun guard =>
    let s := { s with lock := s.lock.release, guards := s.guards.set g none }
    match guard with
    | .plain => s
    | .masked previous => s.restore previous

/-- The value, seen through the guard with number `g`. -/
def read? (s : Section α) (g : Nat) : Option α := (s.guard? g).map fun _ => s.lock.value

/-- Replace the value through the guard with number `g`; hands out the former value. -/
def write? (s : Section α) (g : Nat) (a : α) : Option (α × Section α) :=
  (s.guard? g).map fun _ => (s.lock.value, { s with lock := { s.lock with value := a } })

/-- Change the value while the lock is held; nothing, if the caller has to wait. -/
def withLock? {β : Type} (s : Section α) (f : α → β × α) : Option (β × Section α) :=
  (s.lock.withLock f).map fun r => (r.1, { s with lock := r.2 })

/-- Replace the value without the lock, which needs that no guard is alive; hands out the former value. -/
def exchange? (s : Section α) (a : α) : Option (α × Section α) :=
  if s.isBorrowed then none
  else some (s.lock.value, { s with lock := { s.lock with value := a } })

/-- Make a mask; tells whether the signal was blocked before. -/
def mask (s : Section α) : Bool × Section α :=
  let r := s.block
  (r.1, { r.2 with masks := r.2.masks ++ [some r.1] })

/-- Drop the mask with number `m`; nothing, if it is not alive. -/
def unmask? (s : Section α) (m : Nat) : Option (Section α) :=
  ((s.masks[m]?).join).map fun previous => { s with masks := s.masks.set m none }.restore previous

/-- Drop the guards that are alive, then the masks, each in the order of their numbers. -/
def dropAll (s : Section α) : Section α :=
  let s := (List.range s.guards.length).foldl (fun s g => (s.drop? g).getD s) s
  (List.range s.masks.length).foldl (fun s m => (s.unmask? m).getD s) s

end Section

end DemandPaging
