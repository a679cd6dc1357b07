import DemandPaging.Proofs.Memory.Request

/-!
# Threads

A thread carries out its requests in order. The first one is tried; while the host denies it, the
fault is handled and the request is tried again. Other threads and the timer act between any two of
these moves, but all that a move depends on is the thread itself and the memory that it finds.
-/

namespace DemandPaging

open Step

/-- A thread that accesses managed memory. -/
structure Thread where
  /-- The requests that are not carried out yet. -/
  todo : List Request
  /-- The code with which the first of them was denied, until its fault is handled. -/
  denied : Option FaultCode := none

namespace Thread

/-- What a move leaves. -/
structure Effect where
  /-- Managed memory. -/
  memory : Memory
  /-- The thread that made the move. -/
  thread : Thread
  /-- The completion of the request that was carried out, if one was. -/
  completion : Option Completion := none

/-- The move of a thread: it handles the fault of its denied request, or tries its first request. -/
def advance (host : Host) (t : Thread) (s : Memory) : Except Stop Effect :=
  match t with
  | ⟨[], _⟩ => .ok { memory := s, thread := t }
  | ⟨r :: rest, some code⟩ => do
    let (_, s) ← (Memory.handleFault host r.page code).outcome s
    return { memory := s, thread := ⟨r :: rest, none⟩ }
  | ⟨r :: rest, none⟩ =>
    match Memory.hostDenial r.page r.access s with
    | some code => .ok { memory := s, thread := ⟨r :: rest, some code⟩ }
    | none => do
      let (c, s) ← r.carryOut.outcome s
      return { memory := s, thread := ⟨rest, none⟩, completion := some c }

variable {host host' : Host} {t : Thread} {s : Memory} {r : Request} {rest : List Request}
  {denied : Option FaultCode} {code : FaultCode} {kind : FaultKind} {e : PagerError}

theorem eq_mk (htodo : t.todo = r :: rest) (hdenied : t.denied = denied) :
    t = ⟨r :: rest, denied⟩ := by
  rw [← htodo, ← hdenied]

theorem advance_of_nil (host : Host) (s : Memory) (htodo : t.todo = []) :
    t.advance host s = .ok { memory := s, thread := t } := by
  obtain ⟨todo, denied⟩ := t
  obtain rfl : todo = [] := htodo
  rfl

/-- A fault that can be classified is resolved. -/
theorem advance_of_classified (hh : host.Obliging) (hs : s.Sound) (htodo : t.todo = r :: rest)
    (hdenied : t.denied = some code)
    (hk : FaultKind.classify r.page (s.entry r.page) code = .ok kind) :
    t.advance host s =
      .ok { memory := s.resolved r.page kind, thread := { t with denied := none } } := by
  obtain rfl := eq_mk htodo hdenied
  simp only [advance, (Memory.yields_handleFault hh hs hk).outcome]
  rfl

/-- A fault that cannot be classified ends the run. -/
theorem advance_of_refused (host : Host) (htodo : t.todo = r :: rest) (hdenied : t.denied = some code)
    (hk : FaultKind.classify r.page (s.entry r.page) code = .error e) :
    t.advance host s = .error (.error e) := by
  obtain rfl := eq_mk htodo hdenied
  simp only [advance, outcome, Memory.handleFault_of_refused host hk #[]]
  rfl

/-- The host denies a request that the rights do not allow. -/
theorem advance_of_not_allowed (host : Host) (hs : s.Sound) (htodo : t.todo = r :: rest)
    (hnone : t.denied = none) (ha : r.access.allowedBy (s.entry r.page).permission = false) :
    t.advance host s = .ok { memory := s, thread := { t with denied := some .accessDenied } } := by
  obtain rfl := eq_mk htodo hnone
  simp only [advance, hs.hostDenial_eq_some ha]

/-- A request that the rights allow is carried out. -/
theorem advance_of_allowed (host : Host) (hs : s.Sound) (htodo : t.todo = r :: rest)
    (hnone : t.denied = none) (ha : r.access.allowedBy (s.entry r.page).permission = true) :
    t.advance host s =
      .ok { memory := s.served r, thread := ⟨rest, none⟩, completion := some (s.answer r) } := by
  obtain rfl := eq_mk htodo hnone
  simp only [advance, hs.hostDenial_eq_none ha, (hs.yields_carryOut ha).outcome]
  rfl

/-- The host matters to a move only where a fault is handled. -/
theorem advance_congr (h : ∀ r rest code, t.todo = r :: rest → t.denied = some code →
      (Memory.handleFault host' r.page code).outcome s =
        (Memory.handleFault host r.page code).outcome s) :
    t.advance host' s = t.advance host s := by
  obtain ⟨todo, denied⟩ := t
  cases todo with
  | nil => rfl
  | cons r rest =>
    cases denied with
    | none => rfl
    | some code => simp only [advance, h r rest code rfl rfl]

end Thread

end DemandPaging
