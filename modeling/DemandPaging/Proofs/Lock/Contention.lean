import DemandPaging.Lock.SpinLock
import Mathlib.Data.List.Induction

/-!
# Contention for a spin lock

Any number of parties, threads and the handlers that interrupt them, share one
lock. Every move is one access to the flag: a round of the loop in which a
caller waits, the single round of an attempt, or the drop of a guard. A failed
attempt is two moves. It made a guard before its outcome was known, and this
spare guard clears the flag when it is dropped, whoever holds the lock by then.
The lock therefore excludes exactly as long as no spare guard is dropped while
another guard is alive.
-/

namespace DemandPaging

/-- A thread, or a handler that interrupted one. -/
abbrev Party := Nat

/-- A lock and those who use it. -/
structure Contention (α : Type) where
  /-- The lock. -/
  lock : SpinLock α
  /-- The parties that were handed out the guards that are alive, one entry for each guard. -/
  live : List Party := []
  /-- The parties whose attempt failed and that have not dropped the spare guard yet. -/
  spare : List Party := []
  deriving DecidableEq, Repr

namespace Contention

/-- One access to the lock. -/
inductive Move (α : Type) where
  /-- A round in which a caller waits for the lock. -/
  | acquire (t : Party)
  /-- The round of an attempt. -/
  | attempt (t : Party)
  /-- The drop of the spare guard of a failed attempt. -/
  | retreat (t : Party)
  /-- The drop of a guard that is alive. -/
  | drop (t : Party)
  /-- The value is replaced through a guard that is alive. -/
  | write (t : Party) (a : α)
  deriving DecidableEq, Repr

variable {α : Type}

/-- A free lock that nobody uses yet. -/
def start (a : α) : Contention α := { lock := .new a }

/-- The state after a move; nothing, if there is no such guard. -/
def next? (c : Contention α) : Move α → Option (Contention α)
  | .acquire t =>
    match c.lock.acquire? with
    | some lock => some { c with lock, live := t :: c.live }
    | none => some c
  | .attempt t =>
    match c.lock.acquire? with
    | some lock => some { c with lock, live := t :: c.live }
    | none => some { c with spare := t :: c.spare }
  | .retreat t =>
    if t ∈ c.spare then some { c with lock := c.lock.release, spare := c.spare.erase t } else none
  | .drop t =>
    if t ∈ c.live then some { c with lock := c.lock.release, live := c.live.erase t } else none
  | .write t a => if t ∈ c.live then some { c with lock := { c.lock with value := a } } else none

/-- The state after moves in a row. -/
def run? (c : Contention α) (moves : List (Move α)) : Option (Contention α) :=
  moves.foldlM next? c

/-- One guard is alive at most, and the flag is set while one is. -/
structure Exclusive (c : Contention α) : Prop where
  /-- No two guards are alive. -/
  single : c.live.length ≤ 1
  /-- The flag is set. -/
  locked : c.live ≠ [] → c.lock.locked = true

variable {c d : Contention α} {m : Move α} {t : Party}

/-! ## The operations of the lock -/

theorem acquire?_of_locked {l : SpinLock α} (h : l.locked = true) : l.acquire? = none :=
  if_pos h

theorem acquire?_of_free {l : SpinLock α} (h : l.locked = false) :
    l.acquire? = some { l with locked := true } :=
  if_neg (by rw [h]; exact Bool.false_ne_true)

/-- An attempt at a free lock hands out a guard. -/
theorem run?_tryAcquire_of_free (h : c.lock.locked = false) (t : Party) :
    c.lock.tryAcquire.1 = true ∧
      c.run? [.attempt t] = some { c with lock := c.lock.tryAcquire.2, live := t :: c.live } := by
  have hfree := acquire?_of_free h
  constructor
  · simp only [SpinLock.tryAcquire, hfree]
  · simp only [run?, List.foldlM_cons, List.foldlM_nil, next?, SpinLock.tryAcquire, hfree]
    rfl

/-- An attempt that fails, undisturbed by others, is an attempt and the drop of its spare guard. -/
theorem run?_tryAcquire_of_locked (h : c.lock.locked = true) (t : Party) :
    c.lock.tryAcquire.1 = false ∧
      c.run? [.attempt t, .retreat t] = some { c with lock := c.lock.tryAcquire.2 } := by
  have hbusy := acquire?_of_locked h
  constructor
  · simp only [SpinLock.tryAcquire, hbusy]
  · have hspare : t ∈ t :: c.spare := List.mem_cons_self ..
    simp only [run?, List.foldlM_cons, List.foldlM_nil, next?, SpinLock.tryAcquire, hbusy,
      bind, Option.bind_some, if_pos hspare, List.erase_cons_head]
    rfl

/-- A change of the value under the lock takes the lock, replaces the value and drops the guard. -/
theorem run?_withLock {β : Type} {f : α → β × α} {b : β} {l : SpinLock α}
    (h : c.lock.withLock f = some (b, l)) (t : Party) :
    c.run? [.acquire t, .write t (f c.lock.value).2, .drop t] = some { c with lock := l } := by
  cases hl : c.lock.locked with
  | true =>
    rw [SpinLock.withLock, acquire?_of_locked hl] at h
    cases h
  | false =>
    rw [SpinLock.withLock, acquire?_of_free hl] at h
    have hlive : t ∈ t :: c.live := List.mem_cons_self ..
    simp only [Option.map_some, Option.some.injEq, Prod.mk.injEq] at h
    obtain ⟨-, rfl⟩ := h
    simp only [run?, List.foldlM_cons, List.foldlM_nil, next?, acquire?_of_free hl,
      bind, Option.bind_some, if_pos hlive, List.erase_cons_head]
    rfl

/-! ## Exclusion -/

theorem exclusive_start (a : α) : (start a).Exclusive where
  single := Nat.zero_le 1
  locked h := absurd rfl h

/-- While the flag is clear, no guard is alive. -/
theorem Exclusive.live_eq_nil (h : c.Exclusive) (hl : c.lock.locked = false) : c.live = [] := by
  by_contra hne
  rw [h.locked hne] at hl
  cases hl

/-- The lock is taken by one party alone. -/
theorem Exclusive.take (h : c.Exclusive) (hl : c.lock.locked = false) (t : Party) :
    Exclusive { c with lock := { c.lock with locked := true }, live := t :: c.live } where
  single := by
    rw [List.length_cons, h.live_eq_nil hl]
    exact Nat.le_refl 1
  locked _ := rfl

/-- A move keeps exclusion, unless it drops a spare guard while another guard is alive. -/
theorem Exclusive.next (h : c.Exclusive) (hm : c.next? m = some d)
    (hquiet : ∀ t, m = .retreat t → c.live = []) : d.Exclusive := by
  cases m with
  | acquire t =>
    simp only [next?] at hm
    cases hl : c.lock.locked with
    | true =>
      rw [acquire?_of_locked hl] at hm
      cases hm
      exact h
    | false =>
      rw [acquire?_of_free hl] at hm
      cases hm
      exact h.take hl t
  | attempt t =>
    simp only [next?] at hm
    cases hl : c.lock.locked with
    | true =>
      rw [acquire?_of_locked hl] at hm
      cases hm
      exact ⟨h.single, h.locked⟩
    | false =>
      rw [acquire?_of_free hl] at hm
      cases hm
      exact h.take hl t
  | retreat t =>
    obtain ⟨-, hd⟩ := Option.ite_none_right_eq_some.mp hm
    cases hd
    exact ⟨h.single, fun hne => absurd (hquiet t rfl) hne⟩
  | drop t =>
    obtain ⟨ht, hd⟩ := Option.ite_none_right_eq_some.mp hm
    cases hd
    have hnone : c.live.erase t = [] := by
      have hlength : (c.live.erase t).length = c.live.length - 1 := List.length_erase_of_mem ht
      have hsingle := h.single
      rw [← List.length_eq_zero_iff]
      omega
    refine ⟨?_, fun hne => absurd hnone hne⟩
    change (c.live.erase t).length ≤ 1
    rw [hnone]
    exact Nat.zero_le 1
  | write t a =>
    obtain ⟨-, hd⟩ := Option.ite_none_right_eq_some.mp hm
    cases hd
    exact ⟨h.single, h.locked⟩

/-- A spare guard that is dropped while another guard is alive breaks exclusion. -/
theorem not_exclusive_of_retreat (hm : c.next? (.retreat t) = some d) (hlive : c.live ≠ []) :
    ¬ d.Exclusive := by
  intro h
  obtain ⟨-, hd⟩ := Option.ite_none_right_eq_some.mp hm
  cases hd
  have hlocked : c.lock.release.locked = true := h.locked hlive
  cases hlocked

/-- Moves in a row, and then the others. -/
theorem run?_append (c : Contention α) (earlier later : List (Move α)) :
    c.run? (earlier ++ later) = (c.run? earlier).bind (·.run? later) :=
  List.foldlM_append

theorem run?_singleton (c : Contention α) (m : Move α) : c.run? [m] = c.next? m := by
  rw [run?, List.foldlM_cons]
  exact Option.bind_fun_some (c.next? m)

/-- Along every run of any number of parties on a lock that was free at first: in every state one
guard is alive at most and the flag is set while one is, if and only if no failed attempt drops
its spare guard while a guard is alive. -/
theorem exclusive_iff_of_run (a : α) {moves : List (Move α)}
    (hrun : (start a).run? moves = some d) :
    (∀ earlier later c, moves = earlier ++ later → (start a).run? earlier = some c → c.Exclusive) ↔
      ∀ earlier t later c, moves = earlier ++ .retreat t :: later →
        (start a).run? earlier = some c → c.live = [] := by
  constructor
  · intro hall earlier t later c hmoves hc
    by_contra hlive
    -- the run goes on behind the retreat, so the state after it is a state of the run
    rw [List.append_cons] at hmoves
    rw [hmoves, run?_append, Option.bind_eq_some_iff] at hrun
    obtain ⟨b, hb, -⟩ := hrun
    have hretreat := hb
    rw [run?_append, hc, Option.bind_some, run?_singleton] at hretreat
    exact not_exclusive_of_retreat hretreat hlive (hall _ later b hmoves hb)
  · intro hquiet earlier
    -- by induction on the moves made so far, the last one of them taken off
    induction earlier using List.reverseRecOn with
    | nil =>
      intro later c hmoves hc
      cases hc
      exact exclusive_start a
    | append_singleton earlier m ih =>
      intro later c hmoves hc
      rw [run?_append, Option.bind_eq_some_iff] at hc
      obtain ⟨b, hb, hm⟩ := hc
      rw [run?_singleton] at hm
      rw [List.append_assoc] at hmoves
      refine (ih _ b hmoves hb).next hm fun t ht => ?_
      subst ht
      exact hquiet earlier t later b hmoves hb

/-- A failed attempt that retreats late: its spare guard is dropped when the lock is free again. -/
theorem exclusive_iff_of_run_late_retreat :
    (start 5).run? [.acquire 0, .attempt 1, .drop 0, .retreat 1] = some (start 5) ∧
      ∀ earlier later c, [.acquire 0, .attempt 1, .drop 0, .retreat 1] = earlier ++ later →
        (start 5).run? earlier = some c → c.Exclusive := by
  refine ⟨rfl, (exclusive_iff_of_run 5 rfl).mpr fun earlier t later c hmoves hc => ?_⟩
  have hearlier : earlier = [.acquire 0, .attempt 1, .drop 0] := by
    rcases earlier with _ | ⟨m₀, _ | ⟨m₁, _ | ⟨m₂, _ | ⟨m₃, earlier⟩⟩⟩⟩ <;>
      simp only [List.nil_append, List.cons_append, List.cons.injEq, reduceCtorEq, false_and,
        and_false, List.nil_eq, List.append_eq_nil_iff] at hmoves
    obtain ⟨rfl, rfl, rfl, -⟩ := hmoves
    rfl
  subst hearlier
  cases hc
  rfl

/-- The lock is held and an attempt fails. Its spare guard clears the flag although the holder
goes on, and so the next attempt is handed out a second guard. -/
theorem not_exclusive_of_failed_attempt : ∃ c d : Contention Nat,
    (start 5).run? [.acquire 0, .attempt 1, .retreat 1] = some c ∧
      c.live = [0] ∧ c.lock.locked = false ∧ ¬ c.Exclusive ∧
      c.run? [.attempt 2] = some d ∧ d.live = [2, 0] ∧ ¬ d.Exclusive := by
  refine ⟨⟨.new 5, [0], []⟩, ⟨⟨true, 5⟩, [2, 0], []⟩, rfl, rfl, rfl, fun h => ?_, rfl, rfl,
    fun h => ?_⟩
  · exact absurd (h.locked (List.cons_ne_nil 0 [])) Bool.false_ne_true
  · exact absurd h.single (by decide)

end Contention

end DemandPaging
