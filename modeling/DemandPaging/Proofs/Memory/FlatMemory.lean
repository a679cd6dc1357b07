import DemandPaging.Proofs.Memory.Fresh
import DemandPaging.Proofs.Memory.Thread

/-!
# Managed memory as an array of bytes

An execution is a thread that has memory to itself: it carries out a program of
requests in order. Ticks fall between any two of its moves, also between a denial
and its fault, or between a fault and the next try. The invariant says that every
page stands for the bytes that were stored last, and that a request which was
denied is still not permitted when its fault is handled: ticks only withdraw
rights.
-/

namespace DemandPaging

/-- Steps that succeed and keep a property succeed in a row and keep it. -/
theorem exists_foldlM_eq_ok {α β ε : Type} {f : β → α → Except ε β} {P : β → Prop}
    (hstep : ∀ b, P b → ∀ a, ∃ c, f b a = .ok c ∧ P c) {b : β} (hb : P b) (l : List α) :
    ∃ c, l.foldlM f b = .ok c ∧ P c := by
  induction l generalizing b with
  | nil => exact ⟨b, rfl, hb⟩
  | cons a l ih =>
    obtain ⟨c, hc, hkept⟩ := hstep b hb a
    rw [List.foldlM_cons, hc]
    exact ih hkept

/-- The byte that was stored last at offset `i` of page `p` in a history whose last completion
stands first; zero, if there was none. -/
def lastStored (p : Page) (i : Offset) : List Completion → UInt8
  | [] => 0
  | .stored q j b :: earlier => if q = p ∧ j = i then b else lastStored p i earlier
  | .loaded _ _ _ :: earlier => lastStored p i earlier

/-- A program on its way. -/
structure Execution extends Thread where
  /-- Managed memory. -/
  memory : Memory
  /-- The requests that were carried out; the last one stands first. -/
  done : List Completion := []

/-- Who makes a move. -/
inductive Turn where
  /-- The program. -/
  | program
  /-- The timer. -/
  | timer
  deriving DecidableEq, Repr

namespace Execution

/-- The move of the program. -/
def advance (host : Host) (x : Execution) : Except Stop Execution := do
  let e ← x.toThread.advance host x.memory
  return { e.thread with memory := e.memory, done := e.completion.toList ++ x.done }

/-- A move. -/
def move (host : Host) (x : Execution) : Turn → Except Stop Execution
  | .program => x.advance host
  | .timer => do
    let (_, s) ← (Memory.tick host).outcome x.memory
    return { x with memory := s }

/-- Moves in a row. -/
def run (host : Host) (x : Execution) (schedule : List Turn) : Except Stop Execution :=
  schedule.foldlM (move host) x

/-- The moves that the program needs at most if no tick interferes: two for each fault of the
first request, of which one is made when it is denied, one to carry it out, and five for each
further request. -/
def effort (x : Execution) : Nat :=
  match x.todo with
  | [] => 0
  | r :: rest =>
    2 * r.access.shortfall (x.memory.entry r.page).permission + 1 - x.denied.toList.length +
      5 * rest.length

/-- What holds of `program` on its way. -/
structure Valid (program : List Request) (x : Execution) : Prop where
  /-- Memory is sound. -/
  memory : x.memory.Sound
  /-- A request that was denied is not permitted. -/
  denied : x.denied = none ∨ ∃ r rest, x.todo = r :: rest ∧ x.denied = some .accessDenied ∧
    r.access.allowedBy (x.memory.entry r.page).permission = false
  /-- Every page stands for the bytes that were stored last. -/
  contents : ∀ p i, (x.memory.contents p).get i = lastStored p i x.done
  /-- Every load returned the byte that was stored last. -/
  loads : ∀ later p i b earlier, x.done = later ++ .loaded p i b :: earlier →
    b = lastStored p i earlier
  /-- The program is carried out in order, and nothing else is. -/
  program : x.done.reverse.map (·.request) ++ x.todo = program

variable {host : Host} {config : Config} {program : List Request} {x : Execution}

/-- The first request needs five moves at most. -/
theorem effort_le (x : Execution) : x.effort ≤ 5 * x.todo.length := by
  unfold effort
  split
  · exact Nat.zero_le _
  · rename_i r rest htodo
    have hshort := Access.shortfall_le_faultBound r.access (x.memory.entry r.page).permission
    have hbound : r.access.faultBound ≤ 2 := by
      cases r.access <;> decide
    rw [htodo, List.length_cons]
    omega

/-- A program that needs no more moves is done. -/
theorem Valid.todo_eq_nil (h : x.Valid program) (he : x.effort = 0) : x.todo = [] := by
  cases htodo : x.todo with
  | nil => rfl
  | cons r rest =>
    exfalso
    simp only [effort, htodo] at he
    obtain hnone | ⟨r', rest', htodo', hsome, hdenied⟩ := h.denied
    · rw [hnone, Option.toList_none, List.length_nil] at he
      omega
    · rw [htodo, List.cons.injEq] at htodo'
      obtain ⟨rfl, rfl⟩ := htodo'
      have hmissing := Access.shortfall_raised hdenied
      rw [hsome, Option.toList_some, List.length_singleton] at he
      omega

/-- A completion that carries out the first request extends the history as the array of bytes
prescribes. -/
theorem Valid.served (h : x.Valid program) {r : Request} {rest : List Request}
    (htodo : x.todo = r :: rest)
    (ha : r.access.allowedBy (x.memory.entry r.page).permission = true) :
    Valid program
      { memory := x.memory.served r, todo := rest, done := x.memory.answer r :: x.done } where
  memory := h.memory.served ha
  denied := Or.inl rfl
  contents p i := by
    cases r with
    | load q j => exact h.contents p i
    | store q j b =>
      obtain ⟨hr, -⟩ := (h.memory.cell q).of_allowsRead (Access.allowsRead_of_allowedBy ha)
      have hstored := h.memory.get_contents_stored hr j i b p
      rw [h.contents] at hstored
      exact hstored
  loads later p i b earlier he := by
    -- the load in question is the new completion or one that was judged before
    cases later with
    | nil =>
      obtain ⟨hhead, rfl⟩ := List.cons.inj he
      cases r with
      | load q j =>
        obtain ⟨rfl, rfl, rfl⟩ := Completion.loaded.inj hhead
        exact h.contents q j
      | store q j b => cases hhead
    | cons c later => exact h.loads later p i b earlier (List.cons.inj he).2
  program := by
    have hprogram := h.program
    rw [htodo] at hprogram
    rw [List.reverse_cons, List.map_append, List.append_assoc, ← hprogram]
    change _ ++ ([(x.memory.answer r).request] ++ rest) = _
    rw [Memory.request_answer]
    rfl

/-! ## Moves -/

/-- What a move of the program does follows from what a move of a thread does. -/
theorem advance_eq {e : Thread.Effect} (he : x.toThread.advance host x.memory = .ok e) :
    x.advance host =
      .ok { e.thread with memory := e.memory, done := e.completion.toList ++ x.done } := by
  rw [advance, he]
  rfl

theorem move_timer (hh : host.Obliging) (h : x.memory.Sound) :
    x.move host .timer = .ok { x with memory := x.memory.ticked host } := by
  simp only [move, (Memory.yields_tick hh h).outcome]
  rfl

/-- Handling the fault of a denied request succeeds. The request lacks one step of rights less
than before. -/
theorem Valid.handle (hh : host.Obliging) (h : x.Valid program) {r : Request} {rest : List Request}
    (htodo : x.todo = r :: rest) (hsome : x.denied = some .accessDenied)
    (hdenied : r.access.allowedBy (x.memory.entry r.page).permission = false) :
    ∃ y, x.advance host = .ok y ∧ y.Valid program ∧ y.effort ≤ x.effort - 1 := by
  obtain ⟨kind, hk⟩ := Memory.exists_classify hdenied
  refine ⟨_, advance_eq (Thread.advance_of_classified hh h.memory htodo hsome hk), ?_, ?_⟩
  · refine ⟨h.memory.resolved hk, Or.inl rfl, fun p i => ?_, h.loads, h.program⟩
    rw [h.memory.contents_resolved hk]
    exact h.contents p i
  · have hraised := h.memory.permission_resolved hk
    have hmissing := Access.shortfall_raised hdenied
    simp only [effort, htodo, hsome, hraised, Option.toList_none, List.length_nil,
      Option.toList_some, List.length_singleton]
    omega

/-- Trying the first request succeeds: it is denied, or it is carried out. -/
theorem Valid.attempt (h : x.Valid program) {r : Request} {rest : List Request}
    (htodo : x.todo = r :: rest) (hnone : x.denied = none) :
    ∃ y, x.advance host = .ok y ∧ y.Valid program ∧ y.effort ≤ x.effort - 1 := by
  cases ha : r.access.allowedBy (x.memory.entry r.page).permission with
  | false =>
    refine ⟨_, advance_eq (Thread.advance_of_not_allowed host h.memory htodo hnone ha), ?_, ?_⟩
    · exact ⟨h.memory, Or.inr ⟨r, rest, htodo, rfl, ha⟩, h.contents, h.loads, h.program⟩
    · simp only [effort, htodo, hnone, Option.toList_none, List.length_nil, Option.toList_some,
        List.length_singleton]
      omega
  | true =>
    refine ⟨_, advance_eq (Thread.advance_of_allowed host h.memory htodo hnone ha),
      h.served htodo ha, ?_⟩
    have hrest := effort_le
      { memory := x.memory.served r, todo := rest, done := x.memory.answer r :: x.done }
    refine Nat.le_trans hrest ?_
    simp only [effort, htodo, hnone, Option.toList_none, List.length_nil]
    omega

/-- A move of the program succeeds, and it brings the program forward. -/
theorem Valid.advance (hh : host.Obliging) (h : x.Valid program) :
    ∃ y, x.advance host = .ok y ∧ y.Valid program ∧ y.effort ≤ x.effort - 1 := by
  cases htodo : x.todo with
  | nil =>
    refine ⟨x, advance_eq (Thread.advance_of_nil host x.memory htodo), h, ?_⟩
    simp only [effort, htodo, Nat.zero_sub, Nat.le_refl]
  | cons r rest =>
    obtain hnone | ⟨r', rest', htodo', hsome, hdenied⟩ := h.denied
    · exact h.attempt htodo hnone
    · exact h.handle hh htodo' hsome hdenied

/-- A tick succeeds. It withdraws rights from a denied request at most. -/
theorem Valid.tick (hh : host.Obliging) (h : x.Valid program) :
    ∃ y, x.move host .timer = .ok y ∧ y.Valid program := by
  refine ⟨_, move_timer hh h.memory, h.memory.ticked host, ?_, fun p i => ?_, h.loads, h.program⟩
  · obtain hnone | ⟨r, rest, htodo, hsome, hdenied⟩ := h.denied
    · exact Or.inl hnone
    · refine Or.inr ⟨r, rest, htodo, hsome, ?_⟩
      exact Access.not_allowedBy_of_withdrawn hdenied (h.memory.permission_ticked host r.page)
  · rw [h.memory.contents_ticked]
    exact h.contents p i

/-- A move succeeds and keeps what holds of the program. -/
theorem Valid.move (hh : host.Obliging) (h : x.Valid program) (turn : Turn) :
    ∃ y, x.move host turn = .ok y ∧ y.Valid program := by
  cases turn with
  | program =>
    obtain ⟨y, hy, hvalid, -⟩ := h.advance hh
    exact ⟨y, hy, hvalid⟩
  | timer => exact h.tick hh

/-- A run succeeds under every schedule and keeps what holds of the program. -/
theorem Valid.run (hh : host.Obliging) (h : x.Valid program) (schedule : List Turn) :
    ∃ y, x.run host schedule = .ok y ∧ y.Valid program :=
  exists_foldlM_eq_ok (fun _ hy turn => hy.move hh turn) h schedule

/-- Without further ticks the program is carried out to its end. -/
theorem Valid.finish (hh : host.Obliging) (h : x.Valid program) {n : Nat} (hn : x.effort ≤ n) :
    ∃ y, x.run host (List.replicate n .program) = .ok y ∧ y.Valid program ∧ y.todo = [] := by
  -- every move takes one off the effort, and a program without effort is done
  induction n generalizing x with
  | zero => exact ⟨x, rfl, h, h.todo_eq_nil (Nat.le_zero.mp hn)⟩
  | succ n ih =>
    obtain ⟨y, hy, hvalid, heffort⟩ := h.advance hh
    obtain ⟨z, hz, hvalid', htodo⟩ := ih hvalid (by omega)
    refine ⟨z, ?_, hvalid', htodo⟩
    rw [List.replicate_succ, Execution.run, List.foldlM_cons, Execution.move, hy]
    exact hz

/-- A program on fresh memory is valid. -/
theorem Valid.start {s : Memory} (hf : Memory.Fresh host config s) (hc : config.validate = .ok ())
    (program : List Request) : Valid program { memory := s, todo := program } where
  memory := hf.sound hc
  denied := Or.inl rfl
  contents p i := by
    rw [hf.contents]
    exact PageImage.get_zero i
  loads later p i b earlier he := by
    cases later <;> cases he
  program := rfl

/-- From every valid configuration memory can be set up. A program of loads and stores then runs
without a stop under every schedule of its moves and of ticks: the requests are carried out in
order, every load returns the byte that was stored last at its place, or zero if there was none,
and five moves for each request that is left, with no tick in between, carry the program out to
its end. -/
theorem loaded_eq_lastStored_of_run (hh : host.Ready) (hc : config.validate = .ok ()) :
    ∃ s₀ es, (Memory.new host config).Yields () s₀ () es ∧
      ∀ (program : List Request) (schedule : List Turn),
        ∃ x : Execution, run host { memory := s₀, todo := program } schedule = .ok x ∧
          x.done.reverse.map (·.request) ++ x.todo = program ∧
          (∀ later p i b earlier, x.done = later ++ .loaded p i b :: earlier →
            b = lastStored p i earlier) ∧
          ∃ y : Execution, x.run host (List.replicate (5 * x.todo.length) .program) = .ok y ∧
            y.todo = [] ∧ y.done.reverse.map (·.request) = program ∧
            (∀ later p i b earlier, y.done = later ++ .loaded p i b :: earlier →
              b = lastStored p i earlier) := by
  obtain ⟨s₀, es, hnew, hfresh⟩ := Memory.exists_fresh hh hc ()
  refine ⟨s₀, es, hnew, fun program schedule => ?_⟩
  have hstart := Valid.start hfresh hc program
  obtain ⟨x, hx, hvalid⟩ := hstart.run hh.toObliging schedule
  obtain ⟨y, hy, hvalid', htodo⟩ := hvalid.finish hh.toObliging (effort_le x)
  refine ⟨x, hx, hvalid.program, hvalid.loads, y, hy, htodo, ?_, hvalid'.loads⟩
  have hprogram := hvalid'.program
  rw [htodo, List.append_nil] at hprogram
  exact hprogram

/-- Two pages share one place: the byte stored first survives the eviction by the second store. -/
theorem loaded_eq_lastStored_of_run_one_place : Host.willing.Ready ∧
    ({ budget := 1 } : Config).validate = .ok () ∧
    ∃ s₀ es, (Memory.new Host.willing { budget := 1 }).Yields () s₀ () es ∧
      ∃ x y : Execution,
        run .willing { memory := s₀, todo := [.store 0 5 7, .store 1 5 9, .load 0 5] }
          [.program, .timer, .program, .program, .timer, .timer, .program] = .ok x ∧
        x.run .willing (List.replicate (5 * x.todo.length) .program) = .ok y ∧
        y.done = [.loaded 0 5 7, .stored 1 5 9, .stored 0 5 7] := by
  have hvalid : ({ budget := 1 } : Config).validate = .ok () := rfl
  obtain ⟨s₀, es, hnew, hall⟩ := loaded_eq_lastStored_of_run Host.ready_willing hvalid
  obtain ⟨x, hx, -, -, y, hy, -, hprogram, hloads⟩ :=
    hall [.store 0 5 7, .store 1 5 9, .load 0 5]
      [.program, .timer, .program, .program, .timer, .timer, .program]
  refine ⟨Host.ready_willing, hvalid, s₀, es, hnew, x, y, hx, hy, ?_⟩
  obtain ⟨b, hdone⟩ : ∃ b, y.done = [.loaded 0 5 b, .stored 1 5 9, .stored 0 5 7] := by
    obtain ⟨c₀, rest₀, h₀, hc₀, hrest₀⟩ := List.map_eq_cons_iff.mp hprogram
    obtain ⟨c₁, rest₁, rfl, hc₁, hrest₁⟩ := List.map_eq_cons_iff.mp hrest₀
    obtain ⟨c₂, rest₂, rfl, hc₂, hrest₂⟩ := List.map_eq_cons_iff.mp hrest₁
    rw [List.map_eq_nil_iff] at hrest₂
    subst hrest₂
    obtain rfl := Completion.eq_stored hc₀
    obtain rfl := Completion.eq_stored hc₁
    obtain ⟨b, rfl⟩ := Completion.exists_eq_loaded hc₂
    exact ⟨b, by rw [← List.reverse_reverse y.done, h₀]; rfl⟩
  have hb : b = lastStored 0 5 [.stored 1 5 9, .stored 0 5 7] := hloads [] 0 5 b _ hdone
  rw [hdone, hb]
  rfl

end Execution

end DemandPaging
