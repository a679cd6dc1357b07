import DemandPaging.Lock.Section
import DemandPaging.Proofs.Lock.Contention
import DemandPaging.Signal
import Mathlib.Data.Finset.Insert
import Mathlib.Data.Finset.Lattice.Lemmas

/-!
# Callbacks on the thread that they interrupt

One thread at the grain of its single steps: blocking the timer signal, waiting for the lock,
taking it, releasing it, putting the signals back. Between any two of them the timer may expire, a
fault may be raised and other threads may do to the lock what they like. The thread is in the middle
of a stack of activities: masks, sections of the program, and the callbacks of the timer and of
faults, which may interrupt each other. Each of them remembers the signals that were blocked before
it, and blocks the timer signal. So the timer can only interrupt a thread that is in the middle of
nothing, and on the way back every activity finds what it left.
-/

namespace DemandPaging

namespace Alarm

theorem blocked_raise (a : Alarm) : a.raise.2.blocked = a.blocked := by
  unfold raise
  split <;> rfl

/-- A signal is delivered at once only if it is not blocked. -/
theorem blocked_eq_false_of_raise {a : Alarm} (h : a.raise.1 = true) : a.blocked = false := by
  by_contra hblocked
  rw [Bool.not_eq_false] at hblocked
  simp [raise, hblocked] at h

/-- A pending signal is delivered only if it is not blocked any more. -/
theorem blocked_eq_false_of_restore {a : Alarm} {previous : Bool}
    (h : (a.restore previous).1 = true) : (a.restore previous).2.blocked = false := by
  simp only [restore, Bool.and_eq_true, Bool.not_eq_true'] at h ⊢
  exact h.1

end Alarm

/-- The signals that a thread does not take. -/
structure SignalMask where
  /-- The timer signal is one of them. -/
  alarm : Bool
  /-- The numbers of the others. -/
  others : Finset Nat
  deriving DecidableEq

/-- On whose behalf a thread uses the lock. -/
inductive User where
  /-- The program itself. -/
  | program
  /-- The callback of the timer. -/
  | timer
  /-- The callback of faults. -/
  | fault
  deriving DecidableEq, Repr

/-- How far a use of the lock has come. -/
inductive Phase where
  /-- The timer signal is blocked, and the lock is not taken yet. -/
  | waiting
  /-- A guard is alive. -/
  | holding
  /-- The guard was dropped, or there was none, and the signals are not put back yet. -/
  | left
  deriving DecidableEq, Repr

/-- Something that a thread is in the middle of. -/
inductive Activity where
  /-- A mask is alive. -/
  | mask (previous : SignalMask)
  /-- The lock is used. -/
  | critical (user : User) (phase : Phase) (previous : SignalMask)
  deriving DecidableEq

/-- The signals apart from the timer signal that are blocked while the lock is used. The host does
not interrupt the callback of a fault by a fault. -/
def User.blocks : User → Finset Nat
  | program | timer => ∅
  | fault => {Signal.segmentation.number}

/-- One try for the lock: how far it brings the user, and the lock after it. The timer does not
wait, it gives up. -/
def User.reach {α : Type} (user : User) (lock : SpinLock α) : Phase × SpinLock α :=
  match user with
  | timer => (if lock.tryAcquire.1 then .holding else .left, lock.tryAcquire.2)
  | program | fault =>
    match lock.acquire? with
    | some lock => (.holding, lock)
    | none => (.waiting, lock)

namespace Activity

/-- The signals that were blocked before. -/
def previous : Activity → SignalMask
  | mask previous | critical _ _ previous => previous

/-- The signals that are blocked in the meantime. -/
def inside : Activity → SignalMask
  | mask previous => ⟨true, previous.others⟩
  | critical user _ previous => ⟨true, previous.others ∪ user.blocks⟩

/-- A guard of the lock is alive. -/
def holds : Activity → Bool
  | critical _ .holding _ => true
  | _ => false

end Activity

/-- A thread that uses the lock. -/
structure Interruption (α : Type) where
  /-- The lock. -/
  lock : SpinLock α
  /-- The timer signal. -/
  alarm : Alarm
  /-- The numbers of the other signals that are blocked. -/
  others : Finset Nat := ∅
  /-- What the thread is in the middle of, the innermost first. -/
  stack : List Activity := []
  /-- The number of callbacks that were started. -/
  callbacks : Nat := 0

namespace Interruption

variable {α : Type}

/-- The signals that are blocked. -/
def mask (t : Interruption α) : SignalMask := ⟨t.alarm.blocked, t.others⟩

/-- The thread holds the lock. -/
def holds (t : Interruption α) : Bool := t.stack.any (·.holds)

/-- Signals are blocked, and the lock is going to be used. -/
def opened (t : Interruption α) (user : User) : Interruption α :=
  { t with
    alarm := t.alarm.block.2
    others := t.others ∪ user.blocks
    stack := .critical user .waiting t.mask :: t.stack }

/-- A callback starts. -/
def interrupted (t : Interruption α) (user : User) : Interruption α :=
  { t.opened user with callbacks := t.callbacks + 1 }

/-- The timer signal is delivered, or not. -/
def deliver (t : Interruption α) (delivered : Bool) : Interruption α :=
  if delivered then t.interrupted .timer else t

/-- The former signals are put back. -/
def restore (t : Interruption α) (previous : SignalMask) : Interruption α :=
  let r := t.alarm.restore previous.alarm
  { t with alarm := r.2, others := previous.others }.deliver r.1

/-- The next step of the innermost activity. -/
def proceed? (t : Interruption α) : Option (Interruption α) :=
  match t.stack with
  | [] => none
  | .mask previous :: stack => some ({ t with stack }.restore previous)
  | .critical user .waiting previous :: stack =>
    let r := user.reach t.lock
    some { t with lock := r.2, stack := .critical user r.1 previous :: stack }
  | .critical user .holding previous :: stack =>
    some { t with lock := t.lock.release, stack := .critical user .left previous :: stack }
  | .critical _ .left previous :: stack => some ({ t with stack }.restore previous)

/-- Something that happens to a thread or that it does. -/
inductive Move (α : Type) where
  /-- The timer expires. -/
  | raise
  /-- An access of the thread faults. -/
  | fault
  /-- Other threads leave the lock like this. -/
  | elsewhere (lock : SpinLock α)
  /-- A mask is made. -/
  | mask
  /-- A section begins: the timer signal is blocked. -/
  | enter
  /-- The value is replaced under the lock. -/
  | write (a : α)
  /-- The innermost activity goes on. -/
  | proceed

/-- The thread after a move; nothing, if it cannot happen. Faults happen while the thread does not
hold the lock. -/
def next? (t : Interruption α) : Move α → Option (Interruption α)
  | .raise =>
    let r := t.alarm.raise
    some ({ t with alarm := r.2 }.deliver r.1)
  | .fault =>
    if t.holds || decide (Signal.segmentation.number ∈ t.others) then none
    else some (t.interrupted .fault)
  | .elsewhere lock => some { t with lock }
  | .mask => some { t with alarm := t.alarm.block.2, stack := .mask t.mask :: t.stack }
  | .enter => some (t.opened .program)
  | .write a => if t.holds then some { t with lock := { t.lock with value := a } } else none
  | .proceed => t.proceed?

/-- The thread after moves in a row. -/
def run? (t : Interruption α) (moves : List (Move α)) : Option (Interruption α) :=
  moves.foldlM next? t

variable {t u v : Interruption α} {base : SignalMask} {stack : List Activity} {user : User}
  {m : Move α}

/-! ## Single steps -/

@[simp] theorem lock_deliver (t : Interruption α) (delivered : Bool) :
    (t.deliver delivered).lock = t.lock := by
  cases delivered <;> rfl

/-- A callback that was just started does not hold the lock. -/
@[simp] theorem holds_deliver (t : Interruption α) (delivered : Bool) :
    (t.deliver delivered).holds = t.holds := by
  cases delivered <;> rfl

@[simp] theorem lock_restore (t : Interruption α) (previous : SignalMask) :
    (t.restore previous).lock = t.lock := by
  simp [restore]

@[simp] theorem holds_restore (t : Interruption α) (previous : SignalMask) :
    (t.restore previous).holds = t.holds := by
  rw [restore, holds_deliver]
  rfl

/-- A flag that is set after a try was set before, or the try succeeded. -/
theorem reach_of_locked {lock : SpinLock α} (h : (user.reach lock).2.locked = true) :
    (user.reach lock).1 = .holding ∨ lock.locked = true := by
  cases hl : lock.locked with
  | true => exact Or.inr rfl
  | false =>
    left
    have hfree := Contention.acquire?_of_free hl
    cases user <;> simp [User.reach, SpinLock.tryAcquire, hfree]

/-- Nobody has to wait for a free lock. -/
theorem reach_of_free (user : User) {lock : SpinLock α} (h : lock.locked = false) :
    user.reach lock = (.holding, { lock with locked := true }) := by
  have hfree := Contention.acquire?_of_free h
  cases user <;> simp [User.reach, SpinLock.tryAcquire, hfree]

/-- What the innermost activity can do next. -/
inductive Proceeds (t u : Interruption α) : Prop
  /-- It ends, and it does not hold the lock. -/
  | ended (top : Activity) (rest : List Activity) (hstack : t.stack = top :: rest)
      (htop : top.holds = false) (hu : u = { t with stack := rest }.restore top.previous)
  /-- It tries to take the lock. -/
  | tried (user : User) (previous : SignalMask) (rest : List Activity)
      (hstack : t.stack = .critical user .waiting previous :: rest)
      (hu : u = { t with
        lock := (user.reach t.lock).2
        stack := .critical user (user.reach t.lock).1 previous :: rest })
  /-- It releases the lock. -/
  | released (user : User) (previous : SignalMask) (rest : List Activity)
      (hstack : t.stack = .critical user .holding previous :: rest)
      (hu : u = { t with
        lock := t.lock.release, stack := .critical user .left previous :: rest })

theorem proceeds_of_proceed? (h : t.proceed? = some u) : Proceeds t u := by
  unfold proceed? at h
  split at h
  · cases h
  · rename_i previous rest hstack
    exact .ended _ rest hstack rfl (Option.some.inj h).symm
  · rename_i user previous rest hstack
    exact .tried user previous rest hstack (Option.some.inj h).symm
  · rename_i user previous rest hstack
    exact .released user previous rest hstack (Option.some.inj h).symm
  · rename_i user previous rest hstack
    exact .ended _ rest hstack rfl (Option.some.inj h).symm

/-- What every move of a run keeps, the run keeps. -/
theorem run?_keeps {P : Interruption α → Prop} {moves : List (Move α)} (ht : P t)
    (hrun : t.run? moves = some u)
    (hstep : ∀ m ∈ moves, ∀ t u : Interruption α, P t → t.next? m = some u → P u) : P u := by
  induction moves generalizing t with
  | nil =>
    cases hrun
    exact ht
  | cons m moves ih =>
    obtain ⟨hm, hrest⟩ := List.forall_mem_cons.mp hstep
    rw [run?, List.foldlM_cons] at hrun
    obtain ⟨v, hv, hrun'⟩ := Option.bind_eq_some_iff.mp hrun
    exact ih (hm t v ht hv) hrun' hrest

/-! ## The operations of a section -/

/-- A thread at the place where a section stands. -/
def ofSection (s : Section α) (others : Finset Nat) (stack : List Activity) (callbacks : Nat) :
    Interruption α :=
  { lock := s.lock, alarm := s.alarm, others, stack, callbacks }

variable {s s' : Section α} {others : Finset Nat} {previous : SignalMask} {callbacks : Nat}

/-- A masked guard is made in two steps: the signal is blocked, and then the lock is taken. -/
theorem run?_acquireMasked (h : s.acquireMasked? = some s') :
    s'.guards = s.guards ++ [some (.masked s.alarm.blocked)] ∧
      (ofSection s others stack callbacks).run? [.enter, .proceed] = some (ofSection s' others
        (.critical .program .holding ⟨s.alarm.blocked, others⟩ :: stack) callbacks) := by
  obtain ⟨lock, hlock, rfl⟩ := Option.map_eq_some_iff.mp h
  have hreach : User.program.reach s.lock = (.holding, lock) := by
    have htake : s.lock.acquire? = some lock := hlock
    simp only [User.reach, htake]
  have hblocks : others ∪ User.program.blocks = others := Finset.union_empty others
  constructor
  · rfl
  · simp only [run?, List.foldlM_cons, List.foldlM_nil, next?, opened, proceed?, ofSection, hblocks,
      bind, Option.bind_some, hreach]
    rfl

/-- What a section counts as a delivery starts a callback. -/
theorem deliver_ofSection (s : Section α) (delivered : Bool) :
    (ofSection (s.deliver delivered) others stack callbacks).deliver
        (decide (s.delivered < (s.deliver delivered).delivered)) =
      (ofSection s others stack callbacks).deliver delivered := by
  cases delivered <;> simp [Section.deliver, ofSection, deliver]

/-- A masked guard is dropped in two steps: the lock is released, and then the signals are put
back. -/
theorem run?_drop {g : Nat} (hg : s.guard? g = some (.masked previous.alarm))
    (h : s.drop? g = some s') :
    (ofSection s others (.critical .program .holding previous :: stack) callbacks).run?
        [.proceed, .proceed] =
      some ((ofSection s' previous.others stack callbacks).deliver
        (decide (s.delivered < s'.delivered))) := by
  rw [Section.drop?, hg] at h
  cases h
  exact congrArg some (deliver_ofSection
    { s with
      lock := s.lock.release
      guards := s.guards.set g none
      alarm := (s.alarm.restore previous.alarm).2 }
    (s.alarm.restore previous.alarm).1).symm

/-- A mask is dropped in one step. -/
theorem next?_unmask {k : Nat} (hk : (s.masks[k]?).join = some previous.alarm)
    (h : s.unmask? k = some s') :
    (ofSection s others (.mask previous :: stack) callbacks).next? .proceed =
      some ((ofSection s' previous.others stack callbacks).deliver
        (decide (s.delivered < s'.delivered))) := by
  rw [Section.unmask?, hk] at h
  cases h
  exact congrArg some (deliver_ofSection
    { s with masks := s.masks.set k none, alarm := (s.alarm.restore previous.alarm).2 }
    (s.alarm.restore previous.alarm).1).symm

/-- A mask is made in one step. -/
theorem next?_mask (s : Section α) : (ofSection s others stack callbacks).next? .mask =
    some (ofSection s.mask.2 others (.mask ⟨s.mask.1, others⟩ :: stack) callbacks) := rfl

/-- The signal is raised in one step. -/
theorem next?_raise (s : Section α) : (ofSection s others stack callbacks).next? .raise =
    some ((ofSection s.raise others stack callbacks).deliver
      (decide (s.delivered < s.raise.delivered))) :=
  congrArg some (deliver_ofSection { s with alarm := s.alarm.raise.2 } s.alarm.raise.1).symm

/-! ## Callbacks that start -/

/-- A callback was just started, on a thread that did not hold the lock. -/
def StartedFree (u : Interruption α) : Prop :=
  ∃ (t : Interruption α) (user : User), t.holds = false ∧ u = t.interrupted user

theorem StartedFree.holds_eq_false (h : u.StartedFree) : u.holds = false := by
  obtain ⟨t, user, ht, rfl⟩ := h
  exact ht

/-- Where the lock is free, the callback takes it at once. -/
theorem StartedFree.exists_holds (h : u.StartedFree) (hfree : u.lock.locked = false) :
    ∃ v, u.next? .proceed = some v ∧ v.holds = true := by
  obtain ⟨t, user, -, rfl⟩ := h
  have hreach : user.reach t.lock = (.holding, { t.lock with locked := true }) :=
    reach_of_free user hfree
  refine ⟨_, rfl, ?_⟩
  simp [interrupted, opened, hreach, holds, Activity.holds]

/-! ## What is blocked -/

/-- Every activity remembers what was blocked before it, and `base` was blocked before all of
them. -/
def Nested (base : SignalMask) : List Activity → SignalMask → Prop
  | [], mask => mask = base
  | top :: stack, mask => mask = top.inside ∧ Nested base stack top.previous

/-- In the middle of anything, the timer signal is blocked. -/
theorem Nested.alarm_eq_true {mask : SignalMask} (h : Nested base stack mask)
    (hopen : stack ≠ []) : mask.alarm = true := by
  cases stack with
  | nil => exact absurd rfl hopen
  | cons top stack =>
    rw [h.1]
    cases top <;> rfl

/-- What is blocked depends on what the thread is in the middle of. -/
theorem Nested.unique {mask mask' : SignalMask} (h : Nested base stack mask)
    (h' : Nested base stack mask') : mask = mask' := by
  cases stack with
  | nil => rw [h, h']
  | cons top stack => rw [h.1, h'.1]

/-- The activities of the thread account for what is blocked. -/
def Orderly (base : SignalMask) (t : Interruption α) : Prop := Nested base t.stack t.mask

namespace Orderly

/-- While the timer signal can be delivered, the thread is in the middle of nothing. -/
theorem stack_eq_nil (h : t.Orderly base) (hfree : t.alarm.blocked = false) : t.stack = [] := by
  by_contra hopen
  have hblocked : t.alarm.blocked = true := h.alarm_eq_true hopen
  rw [hfree] at hblocked
  cases hblocked

theorem opened (h : t.Orderly base) (user : User) : (t.opened user).Orderly base := ⟨rfl, h⟩

theorem masked (h : t.Orderly base) :
    Orderly base { t with alarm := t.alarm.block.2, stack := .mask t.mask :: t.stack } :=
  ⟨rfl, h⟩

/-- The timer only interrupts a thread that is in the middle of nothing. -/
theorem deliver (h : t.Orderly base) {delivered : Bool}
    (hfree : delivered = true → t.alarm.blocked = false) :
    (t.deliver delivered).Orderly base ∧
      ((t.deliver delivered).callbacks ≠ t.callbacks → (t.deliver delivered).StartedFree) := by
  cases delivered with
  | false => exact ⟨h, fun hstart => absurd rfl hstart⟩
  | true =>
    have hnothing : t.holds = false := by
      rw [holds, h.stack_eq_nil (hfree rfl)]
      rfl
    exact ⟨h.opened .timer, fun _ => ⟨t, .timer, hnothing, rfl⟩⟩

/-- When an activity is left, what was blocked before it is blocked again. -/
theorem restore {top : Activity} (h : t.Orderly base) (hstack : t.stack = top :: stack) :
    ({ t with stack }.restore top.previous).Orderly base ∧
      (({ t with stack }.restore top.previous).callbacks ≠ t.callbacks →
        ({ t with stack }.restore top.previous).StartedFree) := by
  rw [Orderly, hstack] at h
  have hback : Orderly base
      { t with
        stack
        alarm := (t.alarm.restore top.previous.alarm).2
        others := top.previous.others } := h.2
  exact hback.deliver Alarm.blocked_eq_false_of_restore

/-- The innermost activity goes on. -/
theorem proceed (h : t.Orderly base) (hu : t.proceed? = some u) :
    u.Orderly base ∧ (u.callbacks ≠ t.callbacks → u.StartedFree) := by
  cases proceeds_of_proceed? hu with
  | ended top rest hstack htop hu =>
    subst hu
    exact h.restore hstack
  | tried user previous rest hstack hu =>
    subst hu
    rw [Orderly, hstack] at h
    exact ⟨h, fun hstart => absurd rfl hstart⟩
  | released user previous rest hstack hu =>
    subst hu
    rw [Orderly, hstack] at h
    exact ⟨h, fun hstart => absurd rfl hstart⟩

/-- A move keeps the account, and a callback that it starts finds that the thread does not hold the
lock. -/
theorem next (h : t.Orderly base) (hm : t.next? m = some u) :
    u.Orderly base ∧ (u.callbacks ≠ t.callbacks → u.StartedFree) := by
  cases m with
  | raise =>
    cases hm
    have hraised : Orderly base { t with alarm := t.alarm.raise.2 } := by
      change Nested base t.stack ⟨t.alarm.raise.2.blocked, t.others⟩
      rw [Alarm.blocked_raise]
      exact h
    apply hraised.deliver
    intro hdelivered
    change t.alarm.raise.2.blocked = false
    rw [Alarm.blocked_raise]
    exact Alarm.blocked_eq_false_of_raise hdelivered
  | fault =>
    obtain ⟨houtside, hu⟩ := Option.ite_none_left_eq_some.mp hm
    cases hu
    simp only [Bool.or_eq_true, not_or, Bool.not_eq_true] at houtside
    exact ⟨h.opened .fault, fun _ => ⟨t, .fault, houtside.1, rfl⟩⟩
  | elsewhere lock =>
    cases hm
    exact ⟨h, fun hstart => absurd rfl hstart⟩
  | mask =>
    cases hm
    exact ⟨h.masked, fun hstart => absurd rfl hstart⟩
  | enter =>
    cases hm
    exact ⟨h.opened .program, fun hstart => absurd rfl hstart⟩
  | write a =>
    obtain ⟨-, hu⟩ := Option.ite_none_right_eq_some.mp hm
    cases hu
    exact ⟨h, fun hstart => absurd rfl hstart⟩
  | proceed => exact h.proceed hm

/-- Moves in a row keep the account. -/
theorem run (h : t.Orderly base) {moves : List (Move α)} (hrun : t.run? moves = some u) :
    u.Orderly base :=
  run?_keeps h hrun fun _ _ _ _ ht hm => (ht.next hm).1

end Orderly

/-! ## Threads that use the lock alone -/

/-- A flag that is set is set by the thread itself. -/
def Alone (t : Interruption α) : Prop := t.lock.locked = true → t.holds = true

namespace Alone

/-- An activity that holds no guard can be closed. -/
theorem restore {top : Activity} (h : t.Alone) (hstack : t.stack = top :: stack)
    (htop : top.holds = false) (previous : SignalMask) :
    ({ t with stack }.restore previous).Alone := by
  intro hlocked
  rw [lock_restore] at hlocked
  have hbelow := h hlocked
  rw [holds, hstack, List.any_cons, htop, Bool.false_or] at hbelow
  rw [holds_restore]
  exact hbelow

theorem proceed (h : t.Alone) (hu : t.proceed? = some u) : u.Alone := by
  cases proceeds_of_proceed? hu with
  | ended top rest hstack htop hu =>
    subst hu
    exact h.restore hstack htop top.previous
  | tried user previous rest hstack hu =>
    subst hu
    intro hlocked
    rcases reach_of_locked hlocked with hreach | hbefore
    · simp [holds, hreach, Activity.holds]
    · -- the activity that waits does not hold the lock, so one below it does
      have hwaits : (Activity.critical user .waiting previous).holds = false := rfl
      have hbelow := h hbefore
      rw [holds, hstack, List.any_cons, hwaits, Bool.false_or] at hbelow
      rw [holds, List.any_cons, hbelow, Bool.or_true]
  | released user previous rest hstack hu =>
    subst hu
    intro hlocked
    cases hlocked

/-- No move but those of other threads sets the flag while the thread does not hold the lock. -/
theorem next (h : t.Alone) (hm : t.next? m = some u) (hown : ∀ lock, m ≠ .elsewhere lock) :
    u.Alone := by
  cases m with
  | raise =>
    cases hm
    intro hlocked
    rw [lock_deliver] at hlocked
    rw [holds_deliver]
    exact h hlocked
  | fault =>
    obtain ⟨-, hu⟩ := Option.ite_none_left_eq_some.mp hm
    cases hu
    exact h
  | elsewhere lock => exact absurd rfl (hown lock)
  | mask =>
    cases hm
    exact h
  | enter =>
    cases hm
    exact h
  | write a =>
    obtain ⟨-, hu⟩ := Option.ite_none_right_eq_some.mp hm
    cases hu
    exact h
  | proceed => exact h.proceed hm

theorem run (h : t.Alone) {moves : List (Move α)} (hrun : t.run? moves = some u)
    (hown : ∀ lock, .elsewhere lock ∉ moves) : u.Alone := by
  apply run?_keeps h hrun
  intro m hmem t u ht hm
  apply ht.next hm
  rintro lock rfl
  exact hown lock hmem

end Alone

/-- Along every run of a thread that was in the middle of nothing, whatever other threads do: while
a mask, a section or a callback is open, which is from before the lock is taken until after it is
released, the timer signal is blocked; at two moments when the thread is in the middle of the same,
the same signals are blocked, so when everything that was opened is closed again, those that were
blocked at first; and a callback only starts while the thread does not hold the lock. If no other
thread touches the lock, the callback takes it at once. -/
theorem holds_eq_false_of_callback_of_run {moves : List (Move α)} (hstart : t.stack = [])
    (hrun : t.run? moves = some u) :
    (u.stack ≠ [] → u.alarm.blocked = true) ∧
      (∀ earlier w, t.run? earlier = some w → u.stack = w.stack → u.mask = w.mask) ∧
      ∀ m v, u.next? m = some v → v.callbacks ≠ u.callbacks →
        v.holds = false ∧
        (t.lock.locked = false → (∀ lock, .elsewhere lock ∉ moves) →
          ∃ w, v.next? .proceed = some w ∧ w.holds = true) := by
  have horderly : t.Orderly t.mask := by
    rw [Orderly, hstart]
    rfl
  have hu := horderly.run hrun
  refine ⟨fun hopen => hu.alarm_eq_true hopen, ?_, ?_⟩
  · intro earlier w hw hstack
    have hearlier := horderly.run hw
    rw [Orderly, ← hstack] at hearlier
    exact hu.unique hearlier
  · intro m v hm hcallback
    have hstarted := (hu.next hm).2 hcallback
    refine ⟨hstarted.holds_eq_false, ?_⟩
    intro hfree hown
    have halone : t.Alone := by
      intro hlocked
      rw [hfree] at hlocked
      cases hlocked
    have hv : v.Alone := by
      apply (halone.run hrun hown).next hm
      rintro lock rfl
      cases hm
      exact hcallback rfl
    apply hstarted.exists_holds
    by_contra hlocked
    rw [Bool.not_eq_false] at hlocked
    have hholds := hv hlocked
    rw [hstarted.holds_eq_false] at hholds
    cases hholds

/-- The timer expires in a section inside of a mask, and its callback starts when both are closed.
-/
theorem holds_eq_false_of_callback_of_run_pending : ∃ t u v w : Interruption Nat,
    t = { lock := .new 0, alarm := {} } ∧
      t.run? [.mask, .enter, .raise, .proceed, .write 5, .proceed, .proceed] = some u ∧
      u.alarm = ⟨true, true⟩ ∧ u.next? .proceed = some v ∧ v.callbacks = 1 ∧ v.holds = false ∧
      v.next? .proceed = some w ∧ w.holds = true := by
  let t : Interruption Nat := { lock := .new 0, alarm := {} }
  obtain ⟨u, hu⟩ : ∃ u, t.run?
      [.mask, .enter, .raise, .proceed, .write 5, .proceed, .proceed] = some u := ⟨_, rfl⟩
  obtain ⟨v, hv⟩ : ∃ v, u.next? .proceed = some v := by
    cases hu
    exact ⟨_, rfl⟩
  have hcallback : v.callbacks = u.callbacks + 1 := by
    cases hu
    cases hv
    rfl
  obtain ⟨-, -, hstarts⟩ := holds_eq_false_of_callback_of_run rfl hu
  obtain ⟨hholds, htakes⟩ := hstarts .proceed v hv (by omega)
  obtain ⟨w, hw, hw'⟩ := htakes rfl (by simp)
  refine ⟨t, u, v, w, rfl, hu, ?_, hv, ?_, hholds, hw, hw'⟩
  · cases hu
    rfl
  · cases hu
    exact hcallback

/-- The callback runs to its end, and nothing is blocked any more. -/
example : ∃ u : Interruption Nat, run? { lock := .new 0, alarm := {} }
    [.mask, .enter, .raise, .proceed, .write 5, .proceed, .proceed, .proceed, .proceed, .proceed,
      .proceed] = some u ∧ u.stack = [] ∧ u.mask = ⟨false, ∅⟩ ∧ u.callbacks = 1 :=
  ⟨_, rfl, rfl, rfl, rfl⟩

end Interruption

end DemandPaging
