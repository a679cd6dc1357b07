import DemandPaging.Proofs.Memory.FlatMemory
import Mathlib.Data.List.Induction

/-!
# Threads that share managed memory

Any number of threads access the same pages. A request that the host denies puts a fault in flight,
and until that fault is handled the other threads and the timer go on: when its turn comes, the page
may permit the request by then, because the fault of another thread was handled in between. The
handler does not know what the request was. It takes a late fault on a readable page for a store and
a late fault on a writable page for an impossible one. Nothing else goes wrong: no fault fails and
no page counts as written that nobody tried to write, exactly as long as every late fault finds a
readable page that somebody tried to write. A thread that makes all the moves itself runs as an
execution, and its faults are never late.
-/

namespace DemandPaging

/-- The pages on which the next move of a thread tries a store. -/
def Thread.tried : Thread → List Page
  | ⟨.store p _ _ :: _, none⟩ => [p]
  | _ => []

/-- Managed memory and the threads that share it. -/
structure Sharing where
  /-- Managed memory. -/
  memory : Memory
  /-- The threads by their numbers. -/
  threads : Nat → Thread
  /-- The pages on which a store was tried, carried out or not. -/
  attempted : List Page := []

namespace Sharing

/-- Who makes a move. -/
inductive Turn where
  /-- A thread. -/
  | thread (n : Nat)
  /-- The timer. -/
  | timer
  deriving DecidableEq, Repr

/-- Threads that each have their requests still before them. -/
def start (s : Memory) (programs : Nat → List Request) : Sharing where
  memory := s
  threads n := { todo := programs n }

/-- What a move of thread `n` makes of memory and threads if it leaves `e`. -/
def after (x : Sharing) (n : Nat) (e : Thread.Effect) : Sharing where
  memory := e.memory
  threads := Function.update x.threads n e.thread
  attempted := (x.threads n).tried ++ x.attempted

/-- The move of thread `n`. -/
def advance (host : Host) (x : Sharing) (n : Nat) : Except Stop Sharing := do
  let e ← (x.threads n).advance host x.memory
  return x.after n e

/-- A move. -/
def move (host : Host) (x : Sharing) : Turn → Except Stop Sharing
  | .thread n => x.advance host n
  | .timer => do
    let (_, s) ← (Memory.tick host).outcome x.memory
    return { x with memory := s }

/-- Moves in a row. -/
def run (host : Host) (x : Sharing) (schedule : List Turn) : Except Stop Sharing :=
  schedule.foldlM (move host) x

/-- No page counts as written on which no store was tried. -/
def Honest (x : Sharing) : Prop := ∀ p, (x.memory.entry p).dirty = true → p ∈ x.attempted

/-- The fault of request `r` of thread `n` is in flight although the page permits the request by
now. -/
def Late (x : Sharing) (n : Nat) (r : Request) : Prop :=
  (∃ rest code, x.threads n = ⟨r :: rest, some code⟩) ∧
    r.access.allowedBy (x.memory.entry r.page).permission = true

/-- What holds in every state of a run. -/
structure Valid (x : Sharing) : Prop where
  /-- Memory is sound. -/
  memory : x.memory.Sound
  /-- A fault in flight says that access was denied, and a store that raised it was tried. -/
  flight : ∀ n r rest code, x.threads n = ⟨r :: rest, some code⟩ →
    code = .accessDenied ∧ (r.access = .write → r.page ∈ x.attempted)

variable {host : Host} {config : Config} {x y : Sharing} {n : Nat} {t : Thread} {e : Thread.Effect}
  {r : Request} {rest : List Request} {code : FaultCode} {kind : FaultKind}

/-! ## Moves -/

theorem advance_eq (hn : x.threads n = t) (he : t.advance host x.memory = .ok e) :
    x.advance host n = .ok (x.after n e) := by
  rw [advance, hn, he]
  rfl

theorem advance_eq_error {stop : Stop} (hn : x.threads n = t)
    (he : t.advance host x.memory = .error stop) : x.advance host n = .error stop := by
  rw [advance, hn, he]
  rfl

theorem Valid.move_timer (hh : host.Obliging) (h : x.Valid) :
    x.move host .timer = .ok { x with memory := x.memory.ticked host } := by
  simp only [move, (Memory.yields_tick hh h.memory).outcome]
  rfl

/-! ## What a move keeps -/

theorem mem_attempted_after {p : Page} (hp : p ∈ x.attempted) : p ∈ (x.after n e).attempted :=
  List.mem_append_right _ hp

theorem mem_attempted_after_of_write (hn : x.threads n = ⟨r :: rest, none⟩)
    (hw : r.access = .write) : r.page ∈ (x.after n e).attempted := by
  refine List.mem_append_left _ ?_
  rw [hn]
  cases r with
  | load p i => cases hw
  | store p i b => exact List.mem_singleton_self p

/-- A move of one thread leaves the faults of the others in flight. -/
theorem Valid.after (h : x.Valid) (hmemory : e.memory.Sound)
    (ht : ∀ r rest code, e.thread = ⟨r :: rest, some code⟩ →
      code = .accessDenied ∧ (r.access = .write → r.page ∈ (x.after n e).attempted)) :
    (x.after n e).Valid where
  memory := hmemory
  flight m r rest code hm := by
    change Function.update x.threads n e.thread m = _ at hm
    by_cases hmn : m = n
    · rw [hmn, Function.update_self] at hm
      exact ht r rest code hm
    · rw [Function.update_of_ne hmn] at hm
      obtain ⟨hcode, hw⟩ := h.flight m r rest code hm
      exact ⟨hcode, fun hwrite => mem_attempted_after (hw hwrite)⟩

/-- A fault is handled. The page is marked as written only if it becomes writable. -/
theorem Valid.handle (hh : host.Obliging) (h : x.Valid)
    (hn : x.threads n = ⟨r :: rest, some code⟩)
    (hk : FaultKind.classify r.page (x.memory.entry r.page) code = .ok kind) :
    ∃ y, x.advance host n = .ok y ∧ y.Valid ∧ y.memory = x.memory.resolved r.page kind ∧
      y.attempted = x.attempted ∧
      (x.Honest → (kind = .grantWrite → r.page ∈ x.attempted) → y.Honest) := by
  have hsame (e : Thread.Effect) : (x.after n e).attempted = x.attempted := by
    rw [Sharing.after, hn]
    cases r <;> rfl
  refine ⟨_, advance_eq hn (Thread.advance_of_classified hh h.memory rfl rfl hk), ?_, rfl, hsame _,
    fun hx hwrite p hp => mem_attempted_after ?_⟩
  · exact h.after (h.memory.resolved hk) fun _ _ _ ht => nomatch ht
  · obtain hold | ⟨hkind, rfl⟩ := h.memory.dirty_of_resolved hk hp
    · exact hx p hold
    · exact hwrite hkind

/-- The first request is tried: it is denied, or it is carried out. -/
theorem Valid.attempt (h : x.Valid) (hn : x.threads n = ⟨r :: rest, none⟩) :
    ∃ y, x.advance host n = .ok y ∧ y.Valid ∧ (x.Honest → y.Honest) := by
  cases ha : r.access.allowedBy (x.memory.entry r.page).permission with
  | false =>
    refine ⟨_, advance_eq hn (Thread.advance_of_not_allowed host h.memory rfl rfl ha), ?_,
      fun hx p hp => mem_attempted_after (hx p hp)⟩
    refine h.after h.memory fun r' rest' code' ht => ?_
    cases ht
    exact ⟨rfl, mem_attempted_after_of_write hn⟩
  | true =>
    have hentry (p : Page) : (x.memory.served r).entry p = x.memory.entry p := by
      cases r <;> rfl
    refine ⟨_, advance_eq hn (Thread.advance_of_allowed host h.memory rfl rfl ha), ?_,
      fun hx p hp => mem_attempted_after (hx p ?_)⟩
    · exact h.after (h.memory.served ha) fun _ _ _ ht => nomatch ht
    · rwa [← hentry]

/-- Handled in time, a fault makes a page writable for a store only. -/
theorem Valid.advance_of_timely (hh : host.Obliging) (h : x.Valid) (ht : ∀ r, ¬ x.Late n r) :
    ∃ y, x.advance host n = .ok y ∧ y.Valid ∧ (x.Honest → y.Honest) := by
  rcases hn : x.threads n with ⟨todo, denied⟩
  cases todo with
  | nil =>
    refine ⟨_, advance_eq hn (Thread.advance_of_nil host x.memory rfl), ?_,
      fun hx p hp => mem_attempted_after (hx p hp)⟩
    exact h.after h.memory fun _ _ _ ht => nomatch ht
  | cons r rest =>
    cases denied with
    | none => exact h.attempt hn
    | some code =>
      obtain ⟨rfl, hattempted⟩ := h.flight n r rest code hn
      have ha : r.access.allowedBy (x.memory.entry r.page).permission = false := by
        rw [← Bool.not_eq_true]
        exact fun ha => ht r ⟨⟨rest, .accessDenied, hn⟩, ha⟩
      obtain ⟨kind, hk⟩ := Memory.exists_classify ha
      obtain ⟨y, hy, hvalid, -, -, hkept⟩ := h.handle hh hn hk
      refine ⟨y, hy, hvalid, fun hx => hkept hx fun hwrite => hattempted ?_⟩
      -- a load would have been permitted on a page that can be made writable
      obtain ⟨hne, -⟩ | ⟨hne, -⟩ | ⟨-, -, hp⟩ := Memory.resident_of_classify hk
      · rw [hwrite] at hne
        cases hne
      · rw [hwrite] at hne
        cases hne
      · rw [hp] at ha
        cases hacc : r.access with
        | write => rfl
        | read =>
          rw [hacc] at ha
          cases ha

/-- A late fault is handled like the fault of a store where the page is readable. -/
theorem Valid.advance_of_late_read (hh : host.Obliging) (h : x.Valid) (hlate : x.Late n r)
    (hp : (x.memory.entry r.page).permission = .read) :
    ∃ y, x.advance host n = .ok y ∧ y.Valid ∧ (y.Honest → r.page ∈ x.attempted) ∧
      (x.Honest → r.page ∈ x.attempted → y.Honest) := by
  obtain ⟨⟨rest, code, hn⟩, -⟩ := hlate
  obtain ⟨rfl, -⟩ := h.flight n r rest code hn
  have hk := h.memory.classify_of_read hp
  obtain ⟨y, hy, hvalid, hmemory, hattempted, hkept⟩ := h.handle hh hn hk
  refine ⟨y, hy, hvalid, fun hhonest => ?_, fun hx hmem => hkept hx fun _ => hmem⟩
  rw [← hattempted]
  refine hhonest r.page ?_
  rw [hmemory]
  exact Memory.dirty_grantWrite ..

/-- A late fault fails where the page is writable. -/
theorem Valid.advance_of_late_readWrite (h : x.Valid) (hlate : x.Late n r)
    (hp : (x.memory.entry r.page).permission = .readWrite) :
    x.advance host n = .error (.error (.invariant r.page .alreadyReadWrite)) := by
  obtain ⟨⟨rest, code, hn⟩, -⟩ := hlate
  obtain ⟨rfl, -⟩ := h.flight n r rest code hn
  exact advance_eq_error hn (Thread.advance_of_refused host rfl rfl (h.memory.classify_of_readWrite hp))

/-- If the turn handles a late fault, it finds a readable page on which a store was tried. -/
def Harmless (x : Sharing) (turn : Turn) : Prop :=
  ∀ n r, turn = .thread n → x.Late n r →
    (x.memory.entry r.page).permission = .read ∧ r.page ∈ x.attempted

/-- A move fails, or it succeeds and marks no page on which no store was tried; the latter exactly
if it is harmless. -/
theorem Valid.move_cases (hh : host.Obliging) (h : x.Valid) (turn : Turn) :
    (∃ y, x.move host turn = .ok y ∧ y.Valid ∧ (x.Honest → x.Harmless turn → y.Honest) ∧
        (y.Honest → x.Harmless turn)) ∨
      (∃ e, x.move host turn = .error e) ∧ ¬ x.Harmless turn := by
  cases turn with
  | timer =>
    refine Or.inl ⟨_, h.move_timer hh, ⟨h.memory.ticked host, h.flight⟩, fun hx _ p hp => hx p ?_,
      fun _ n r ht => nomatch ht⟩
    rwa [h.memory.dirty_ticked] at hp
  | thread n =>
    by_cases hlate : ∃ r, x.Late n r
    · obtain ⟨r, hlate⟩ := hlate
      -- no other request of the thread has a fault in flight
      have honly (r' : Request) (hlate' : x.Late n r') : r' = r := by
        obtain ⟨⟨rest, code, hn⟩, -⟩ := hlate
        obtain ⟨⟨rest', code', hn'⟩, -⟩ := hlate'
        cases hn.symm.trans hn'
        rfl
      cases hp : (x.memory.entry r.page).permission with
      | noAccess =>
        have ha := hlate.2
        rw [hp, r.access.not_allowedBy_noAccess] at ha
        cases ha
      | read =>
        obtain ⟨y, hy, hvalid, hmem, hkept⟩ := h.advance_of_late_read hh hlate hp
        refine Or.inl ⟨y, hy, hvalid, fun hx hharmless => hkept hx (hharmless n r rfl hlate).2,
          fun hhonest m r' ht hlate' => ?_⟩
        cases ht
        rw [honly r' hlate']
        exact ⟨hp, hmem hhonest⟩
      | readWrite =>
        refine Or.inr ⟨⟨_, h.advance_of_late_readWrite hlate hp⟩, fun hharmless => ?_⟩
        have hread := (hharmless n r rfl hlate).1
        rw [hp] at hread
        cases hread
    · obtain ⟨y, hy, hvalid, hkept⟩ := h.advance_of_timely hh fun r hr => hlate ⟨r, hr⟩
      refine Or.inl ⟨y, hy, hvalid, fun hx _ => hkept hx, fun _ m r ht hr => ?_⟩
      cases ht
      exact absurd ⟨r, hr⟩ hlate

/-! ## Runs -/

/-- A move that succeeds, and then the others. -/
theorem run_cons {turn : Turn} (hmove : x.move host turn = .ok y) (later : List Turn) :
    x.run host (turn :: later) = y.run host later := by
  rw [run, List.foldlM_cons, hmove]
  rfl

/-- Moves in a row, and then another one. -/
theorem run_concat (host : Host) (x : Sharing) (earlier : List Turn) (turn : Turn) :
    x.run host (earlier ++ [turn]) = (x.run host earlier).bind (·.move host turn) := by
  rw [run, List.foldlM_append]
  refine congrArg (Except.bind _) (funext fun y => ?_)
  rw [List.foldlM_cons]
  cases y.move host turn <;> rfl

/-- A run that succeeded as far as its last move. -/
theorem exists_of_run_concat {earlier : List Turn} {turn : Turn}
    (hrun : x.run host (earlier ++ [turn]) = .ok y) :
    ∃ z, x.run host earlier = .ok z ∧ z.move host turn = .ok y := by
  rw [run_concat] at hrun
  cases hz : x.run host earlier with
  | error e =>
    rw [hz] at hrun
    cases hrun
  | ok z =>
    rw [hz] at hrun
    exact ⟨z, rfl, hrun⟩

theorem Valid.of_run (hh : host.Obliging) (h : x.Valid) {schedule : List Turn}
    (hrun : x.run host schedule = .ok y) : y.Valid := by
  induction schedule using List.reverseRecOn generalizing y with
  | nil =>
    cases hrun
    exact h
  | append_singleton earlier turn ih =>
    obtain ⟨z, hz, hmove⟩ := exists_of_run_concat hrun
    obtain ⟨y', hy', hvalid, -⟩ | ⟨⟨e, he⟩, -⟩ := (ih hz).move_cases hh turn
    · cases hmove.symm.trans hy'
      exact hvalid
    · cases hmove.symm.trans he

/-- A run succeeds and marks no page on which no store was tried exactly if its moves are harmless.
-/
theorem Valid.honest_iff (hh : host.Obliging) (h : x.Valid) (hx : x.Honest)
    (schedule : List Turn) :
    (∀ earlier later, schedule = earlier ++ later → ∃ y, x.run host earlier = .ok y ∧ y.Honest) ↔
      ∀ earlier turn later y, schedule = earlier ++ turn :: later →
        x.run host earlier = .ok y → y.Harmless turn := by
  constructor
  · intro hall earlier turn later y hschedule hy
    -- the run goes on behind the turn, and what it marks there is judged as well
    rw [List.append_cons] at hschedule
    obtain ⟨z, hz, hhonest⟩ := hall _ later hschedule
    obtain ⟨y', hy', hmove⟩ := exists_of_run_concat hz
    cases hy.symm.trans hy'
    obtain ⟨z', hz', -, -, hharmless⟩ | ⟨⟨e, he⟩, -⟩ := (h.of_run hh hy).move_cases hh turn
    · cases hmove.symm.trans hz'
      exact hharmless hhonest
    · cases hmove.symm.trans he
  · intro hall earlier
    -- by induction on the moves made so far, the last one of them taken off
    induction earlier using List.reverseRecOn with
    | nil => exact fun _ _ => ⟨x, rfl, hx⟩
    | append_singleton earlier turn ih =>
      intro later hschedule
      rw [List.append_assoc] at hschedule
      obtain ⟨y, hy, hhonest⟩ := ih _ hschedule
      have hharmless := hall earlier turn later y hschedule hy
      obtain ⟨z, hz, -, hkept, -⟩ | ⟨-, hnot⟩ := (h.of_run hh hy).move_cases hh turn
      · refine ⟨z, ?_, hkept hhonest hharmless⟩
        rw [run_concat, hy]
        exact hz
      · exact absurd hharmless hnot

theorem Valid.start {s : Memory} (hs : s.Sound) (programs : Nat → List Request) :
    (start s programs).Valid where
  memory := hs
  flight _ _ _ _ hn := nomatch (Thread.mk.inj hn).2

theorem honest_start {s : Memory} (hf : Memory.Fresh host config s)
    (programs : Nat → List Request) : (start s programs).Honest := by
  intro p hp
  change (s.entry p).dirty = true at hp
  rw [hf.entry] at hp
  cases hp

/-! ## One thread -/

/-- A turn of an execution, which belongs to thread `n` where the program makes a move. -/
def Turn.ofThread (n : Nat) : DemandPaging.Turn → Turn
  | .program => .thread n
  | .timer => .timer

/-- What a thread sees of a move is what an execution with its requests makes of that move. -/
theorem move_ofThread (host : Host) {a : Execution} (hmemory : x.memory = a.memory)
    (hn : x.threads n = a.toThread) (turn : DemandPaging.Turn) :
    (x.move host (.ofThread n turn)).map (fun y => (y.memory, y.threads n)) =
      (a.move host turn).map fun b => (b.memory, b.toThread) := by
  cases turn with
  | timer =>
    simp only [Turn.ofThread, move, Execution.move, hmemory]
    cases (Memory.tick host).outcome a.memory with
    | error stop => rfl
    | ok left => simp only [bind, Except.bind, pure, Except.pure, Except.map, hn]
  | program =>
    simp only [Turn.ofThread, move, Execution.move, advance, Execution.advance, hmemory, hn]
    cases a.toThread.advance host a.memory with
    | error stop => rfl
    | ok e => simp [bind, Except.bind, pure, Except.pure, Except.map, Sharing.after]

/-- While the other threads make no move, a thread runs as an execution with its requests. -/
theorem run_ofThread (host : Host) {a : Execution} (hmemory : x.memory = a.memory)
    (hn : x.threads n = a.toThread) (schedule : List DemandPaging.Turn) :
    (x.run host (schedule.map (.ofThread n))).map (fun y => (y.memory, y.threads n)) =
      (a.run host schedule).map fun b => (b.memory, b.toThread) := by
  induction schedule generalizing x a with
  | nil => simp [run, Execution.run, pure, Except.pure, Except.map, hmemory, hn]
  | cons turn schedule ih =>
    have hmove := move_ofThread host hmemory hn turn
    rw [List.map_cons, run, Execution.run, List.foldlM_cons, List.foldlM_cons]
    cases hx : x.move host (.ofThread n turn) with
    | error stop =>
      cases ha : a.move host turn with
      | error stop' =>
        rw [hx, ha] at hmove
        cases hmove
        rfl
      | ok b =>
        rw [hx, ha] at hmove
        cases hmove
    | ok y =>
      cases ha : a.move host turn with
      | error stop =>
        rw [hx, ha] at hmove
        cases hmove
      | ok b =>
        rw [hx, ha] at hmove
        obtain ⟨hy, hthread⟩ := Prod.mk.inj (Except.ok.inj hmove)
        exact ih hy hthread

/-- The fault of a thread that runs as an execution is never late: ticks only withdraw rights. -/
theorem not_late_of_valid {a : Execution} {program : List Request} (ha : a.Valid program)
    (hmemory : x.memory = a.memory) (hn : x.threads n = a.toThread) (r : Request) :
    ¬ x.Late n r := by
  rintro ⟨⟨rest, code, hflight⟩, hpermitted⟩
  rw [hn] at hflight
  obtain hnone | ⟨r', rest', htodo, -, hdenied⟩ := ha.denied
  · rw [hflight] at hnone
    cases hnone
  · rw [hflight] at htodo
    cases htodo
    rw [hmemory, hdenied] at hpermitted
    cases hpermitted

theorem Valid.honest_of_ofThread (hh : host.Obliging) (h : x.Valid) (hx : x.Honest) {a : Execution}
    {program : List Request} (ha : a.Valid program) (hmemory : x.memory = a.memory)
    (hn : x.threads n = a.toThread) (schedule : List DemandPaging.Turn) :
    ∃ y, x.run host (schedule.map (.ofThread n)) = .ok y ∧ y.Honest := by
  refine (h.honest_iff hh hx _).mpr ?_ _ [] (List.append_nil _).symm
  intro earlier turn later y hschedule hy m r hturn hlate
  obtain ⟨front, rest, rfl, rfl, hrest⟩ := List.map_eq_append_iff.mp hschedule
  obtain ⟨last, back, rfl, rfl, -⟩ := List.map_eq_cons_iff.mp hrest
  obtain rfl : m = n := by
    cases last with
    | program => exact (Turn.thread.inj hturn).symm
    | timer => cases hturn
  obtain ⟨b, hb, hvalid⟩ := ha.run hh front
  have hrun := run_ofThread host hmemory hn front
  rw [hy, hb] at hrun
  obtain ⟨hsame, hthread⟩ := Prod.mk.inj (Except.ok.inj hrun)
  exact absurd hlate (not_late_of_valid hvalid hsame hthread r)

/-- One thread of those that share memory that was just set up makes moves, with any ticks between
them. No fault fails, and no page counts as written on which no store was tried. -/
theorem honest_of_run_ofThread (hh : host.Ready) (hc : config.validate = .ok ()) :
    ∃ s₀ es, (Memory.new host config).Yields () s₀ () es ∧
      ∀ (programs : Nat → List Request) (n : Nat) (schedule : List DemandPaging.Turn),
        ∃ x, (start s₀ programs).run host (schedule.map (.ofThread n)) = .ok x ∧
          ∀ p, (x.memory.entry p).dirty = true → p ∈ x.attempted := by
  obtain ⟨s₀, es, hnew, hfresh⟩ := Memory.exists_fresh hh hc ()
  refine ⟨s₀, es, hnew, ?_⟩
  intro programs n schedule
  have hstart := Execution.Valid.start hfresh hc (programs n)
  exact (Valid.start (hfresh.sound hc) programs).honest_of_ofThread hh.toObliging
    (honest_start hfresh programs) hstart rfl rfl schedule

/-! ## Any number of threads -/

/-- Any number of threads with any programs share memory that was just set up, and the host refuses
nothing. Under a schedule of their moves and of ticks, no fault fails and no page ever counts as
written on which no store was tried, if and only if every late fault, one that is handled when its
page permits the request again, finds a page that is readable only and on which a store was tried.
-/
theorem honest_iff_of_run (hh : host.Ready) (hc : config.validate = .ok ()) :
    ∃ s₀ es, (Memory.new host config).Yields () s₀ () es ∧
      ∀ (programs : Nat → List Request) (schedule : List Turn),
        (∀ earlier later, schedule = earlier ++ later →
          ∃ x, (start s₀ programs).run host earlier = .ok x ∧
            ∀ p, (x.memory.entry p).dirty = true → p ∈ x.attempted) ↔
          ∀ earlier n later x r, schedule = earlier ++ .thread n :: later →
            (start s₀ programs).run host earlier = .ok x → x.Late n r →
              (x.memory.entry r.page).permission = .read ∧ r.page ∈ x.attempted := by
  obtain ⟨s₀, es, hnew, hfresh⟩ := Memory.exists_fresh hh hc ()
  refine ⟨s₀, es, hnew, fun programs schedule => ?_⟩
  refine ((Valid.start (hfresh.sound hc) programs).honest_iff hh.toObliging
    (honest_start hfresh programs) schedule).trans ?_
  constructor
  · intro hall earlier n later x r hschedule hx hlate
    exact hall earlier (.thread n) later x hschedule hx n r rfl hlate
  · rintro hall earlier _ later x hschedule hx n r rfl hlate
    exact hall earlier n later x r hschedule hx hlate

/-- A load and a store of the same page are denied. When the fault of the load is handled, the page
is readable already, and it becomes writable although the store has not been carried out yet. -/
theorem honest_iff_of_run_late_load : ∃ s₀ es,
    (Memory.new .willing { budget := 1 }).Yields () s₀ () es ∧
      ∀ earlier later, [Turn.thread 0, .thread 1, .thread 0, .thread 1] = earlier ++ later →
        ∃ x, (start s₀ fun n => if n = 0 then [.store 0 5 7] else [.load 0 5]).run .willing earlier =
            .ok x ∧ ∀ p, (x.memory.entry p).dirty = true → p ∈ x.attempted := by
  have hvalid : ({ budget := 1 } : Config).validate = .ok () := rfl
  have hh : Host.willing.Obliging := Host.ready_willing.toObliging
  obtain ⟨s₀, es, hnew, hiff⟩ := honest_iff_of_run Host.ready_willing hvalid
  obtain ⟨hfresh, -⟩ := Memory.fresh_of_new hnew
  have h₀ := hfresh.sound hvalid
  have hempty : s₀.entry 0 = .empty := congrArg Cell.entry (hfresh.cell 0)
  have habsent : (s₀.entry 0).resident = false := by
    rw [hempty]
    rfl
  have hdenied (a : Access) : a.allowedBy (s₀.entry 0).permission = false := by
    rw [hempty]
    exact a.not_allowedBy_noAccess
  let x₀ : Sharing := start s₀ fun n => if n = 0 then [.store 0 5 7] else [.load 0 5]
  let x₁ := x₀.after 0 { memory := s₀, thread := ⟨[.store 0 5 7], some .accessDenied⟩ }
  let x₂ := x₁.after 1 { memory := s₀, thread := ⟨[.load 0 5], some .accessDenied⟩ }
  let x₃ := x₂.after 0 { memory := s₀.resolved 0 .pageIn, thread := ⟨[.store 0 5 7], none⟩ }
  have h01 : x₀.move .willing (.thread 0) = .ok x₁ :=
    advance_eq (x := x₀) (n := 0) rfl
      (Thread.advance_of_not_allowed (r := .store 0 5 7) .willing h₀ rfl rfl (hdenied _))
  have h12 : x₁.move .willing (.thread 1) = .ok x₂ :=
    advance_eq (x := x₁) (n := 1) rfl
      (Thread.advance_of_not_allowed (r := .load 0 5) .willing h₀ rfl rfl (hdenied _))
  have h23 : x₂.move .willing (.thread 0) = .ok x₃ :=
    advance_eq (x := x₂) (n := 0) rfl (Thread.advance_of_classified (r := .store 0 5 7) hh h₀ rfl rfl
      (Memory.classify_of_absent habsent _))
  refine ⟨s₀, es, hnew, (hiff _ _).mpr fun earlier n later x r hschedule hx hlate => ?_⟩
  obtain ⟨⟨rest, code, hn⟩, ha⟩ := hlate
  rcases earlier with _ | ⟨m₀, _ | ⟨m₁, _ | ⟨m₂, _ | ⟨m₃, earlier⟩⟩⟩⟩ <;>
    simp only [List.nil_append, List.cons_append, List.cons.injEq, Turn.thread.injEq, reduceCtorEq,
      and_false, List.nil_eq, List.append_eq_nil_iff] at hschedule
  · obtain ⟨rfl, -⟩ := hschedule
    cases hx
    cases hn
  · obtain ⟨rfl, rfl, -⟩ := hschedule
    rw [run_cons h01] at hx
    cases hx
    cases hn
  · obtain ⟨rfl, rfl, rfl, -⟩ := hschedule
    rw [run_cons h01, run_cons h12] at hx
    cases hx
    cases hn
    exact nomatch (hdenied .write).symm.trans ha
  · obtain ⟨rfl, rfl, rfl, rfl, -⟩ := hschedule
    rw [run_cons h01, run_cons h12, run_cons h23] at hx
    cases hx
    cases hn
    exact ⟨h₀.permission_pageIn habsent, List.mem_singleton_self 0⟩

/-- Threads load a byte of the same page, and each of them is denied before the first fault is
handled. The second fault is taken for a store, and the third one fails. -/
theorem not_honest_of_late_loads : ∃ s₀ es,
    (Memory.new .willing { budget := 1 }).Yields () s₀ () es ∧
      (∃ x, (start s₀ fun _ => [.load 0 0]).run .willing [.thread 0, .thread 1, .thread 2, .thread 0,
          .thread 1] = .ok x ∧ (x.memory.entry 0).dirty = true ∧ x.attempted = []) ∧
      (start s₀ fun _ => [.load 0 0]).run .willing [.thread 0, .thread 1, .thread 2, .thread 0,
        .thread 1, .thread 2] = .error (.error (.invariant 0 .alreadyReadWrite)) := by
  have hvalid : ({ budget := 1 } : Config).validate = .ok () := rfl
  have hh : Host.willing.Obliging := Host.ready_willing.toObliging
  obtain ⟨s₀, es, hnew, hfresh⟩ := Memory.exists_fresh Host.ready_willing hvalid ()
  have h₀ := hfresh.sound hvalid
  have hempty : s₀.entry 0 = .empty := congrArg Cell.entry (hfresh.cell 0)
  have hdenied : Access.read.allowedBy (s₀.entry 0).permission = false := by
    rw [hempty]
    rfl
  -- the page is loaded for the first thread and made writable for the second
  have habsent : (s₀.entry 0).resident = false := by
    rw [hempty]
    rfl
  have hload := Memory.classify_of_absent habsent .accessDenied
  have h₁ := h₀.resolved hload
  have hread := h₀.permission_pageIn habsent
  have hwrite := h₁.classify_of_read hread
  have h₂ := h₁.resolved hwrite
  have hrefused := h₂.classify_of_readWrite (p := 0) (by rw [h₁.permission_resolved hwrite, hread]; rfl)
  let wait : Thread := ⟨[.load 0 0], some .accessDenied⟩
  let again : Thread := ⟨[.load 0 0], none⟩
  let x₀ : Sharing := start s₀ fun _ => [.load 0 0]
  let x₁ := x₀.after 0 { memory := s₀, thread := wait }
  let x₂ := x₁.after 1 { memory := s₀, thread := wait }
  let x₃ := x₂.after 2 { memory := s₀, thread := wait }
  let x₄ := x₃.after 0 { memory := s₀.resolved 0 .pageIn, thread := again }
  let x₅ := x₄.after 1 { memory := (s₀.resolved 0 .pageIn).resolved 0 .grantWrite, thread := again }
  have h01 : x₀.move .willing (.thread 0) = .ok x₁ :=
    advance_eq (x := x₀) (n := 0) rfl
      (Thread.advance_of_not_allowed (r := .load 0 0) .willing h₀ rfl rfl hdenied)
  have h12 : x₁.move .willing (.thread 1) = .ok x₂ :=
    advance_eq (x := x₁) (n := 1) rfl
      (Thread.advance_of_not_allowed (r := .load 0 0) .willing h₀ rfl rfl hdenied)
  have h23 : x₂.move .willing (.thread 2) = .ok x₃ :=
    advance_eq (x := x₂) (n := 2) rfl
      (Thread.advance_of_not_allowed (r := .load 0 0) .willing h₀ rfl rfl hdenied)
  have h34 : x₃.move .willing (.thread 0) = .ok x₄ :=
    advance_eq (x := x₃) (n := 0) rfl
      (Thread.advance_of_classified (r := .load 0 0) hh h₀ rfl rfl hload)
  have h45 : x₄.move .willing (.thread 1) = .ok x₅ :=
    advance_eq (x := x₄) (n := 1) rfl
      (Thread.advance_of_classified (r := .load 0 0) hh h₁ rfl rfl hwrite)
  have h56 : x₅.move .willing (.thread 2) = .error (.error (.invariant 0 .alreadyReadWrite)) :=
    advance_eq_error (x := x₅) (n := 2) rfl
      (Thread.advance_of_refused (r := .load 0 0) .willing rfl rfl hrefused)
  refine ⟨s₀, es, hnew, ⟨x₅, ?_, Memory.dirty_grantWrite .., rfl⟩, ?_⟩
  · rw [run_cons h01, run_cons h12, run_cons h23, run_cons h34, run_cons h45]
    rfl
  · rw [run_cons h01, run_cons h12, run_cons h23, run_cons h34, run_cons h45, run,
      List.foldlM_cons, h56]
    rfl

end Sharing

end DemandPaging
