import DemandPaging.Proofs.Memory.FlatMemory
import DemandPaging.Proofs.Memory.Writeback

/-!
# Pages that were written

A chronicle accompanies an execution and notes what can be seen of it: the reports of the pager and
the requests that were carried out. It says which pages were written since they were loaded. The
page table records the same, although it never sees a store: a page counts as written as soon as a
second fault asks for the right to write it. Between that fault and the store the record is ahead of
the chronicle, and ticks may fall in between; but no page can leave meanwhile, because every fault
until then is one on that page. So whenever a page leaves, it is saved exactly if it was written.
-/

namespace DemandPaging

open Step

/-- What can be seen of a program and of the pager that serves it. -/
inductive Occurrence where
  /-- The pager reports an event. -/
  | report (e : Event)
  /-- A request is carried out. -/
  | completion (c : Completion)

/-- A store to page `p` was carried out since the page was loaded last. The last occurrence stands
first. -/
def writtenSinceLoad (p : Page) : List Occurrence → Bool
  | [] => false
  | .completion (.stored q _ _) :: earlier => q = p || writtenSinceLoad p earlier
  | .report (.mapped q _) :: earlier => q ≠ p && writtenSinceLoad p earlier
  | _ :: earlier => writtenSinceLoad p earlier

/-- The number of evictions whose victim was written since it was loaded. -/
def writtenVictims : List Occurrence → Nat
  | [] => 0
  | .report (.evicting victim _) :: earlier =>
    writtenVictims earlier + (writtenSinceLoad victim earlier).toNat
  | _ :: earlier => writtenVictims earlier

/-- No fault was handled since a request was carried out. -/
def betweenRequests : List Occurrence → Bool
  | [] => true
  | .completion _ :: _ => true
  | .report (.fault _ _) :: _ => false
  | .report _ :: earlier => betweenRequests earlier

/-! ## Moves -/

namespace Execution

/-- What the pager reports during a move. -/
def reports (host : Host) (x : Execution) : Turn → List Event
  | .program =>
    match x.todo, x.denied with
    | r :: _, some code => (Memory.handleFault host r.page code).reports x.memory
    | _, _ => []
  | .timer => (Memory.tick host).reports x.memory

/-- What a move can be, and what the pager reports about it. -/
inductive Moved (host : Host) (x : Execution) : Turn → Execution → List Event → Prop
  /-- The program is done. -/
  | idle (htodo : x.todo = []) : Moved host x .program x []
  /-- The first request is denied. -/
  | denied {r : Request} {rest : List Request} (htodo : x.todo = r :: rest)
      (hnone : x.denied = none)
      (ha : r.access.allowedBy (x.memory.entry r.page).permission = false) :
      Moved host x .program { x with denied := some .accessDenied } []
  /-- The fault of the first request is handled. -/
  | handled {r : Request} {rest : List Request} {kind : FaultKind} (htodo : x.todo = r :: rest)
      (hsome : x.denied = some .accessDenied)
      (ha : r.access.allowedBy (x.memory.entry r.page).permission = false)
      (hk : FaultKind.classify r.page (x.memory.entry r.page) .accessDenied = .ok kind) :
      Moved host x .program
        { x with memory := x.memory.resolved r.page kind, denied := none }
        (x.memory.faultEvents r.page kind).toList
  /-- The first request is carried out. -/
  | carriedOut {r : Request} {rest : List Request} (htodo : x.todo = r :: rest)
      (hnone : x.denied = none)
      (ha : r.access.allowedBy (x.memory.entry r.page).permission = true) :
      Moved host x .program
        { memory := x.memory.served r, todo := rest, done := x.memory.answer r :: x.done } []
  /-- A tick is delivered. -/
  | ticked : Moved host x .timer { x with memory := x.memory.ticked host }
      (x.memory.tickEvents host).toList

variable {host : Host} {program : List Request} {x : Execution}

/-- Every move of a valid execution is one of these. -/
theorem Valid.moved (hh : host.Obliging) (h : x.Valid program) (turn : Turn) :
    ∃ y, x.move host turn = .ok y ∧ y.Valid program ∧
      Moved host x turn y (x.reports host turn) := by
  obtain ⟨y, hy, hvalid⟩ := h.move hh turn
  refine ⟨y, hy, hvalid, ?_⟩
  cases turn with
  | timer =>
    cases (move_timer hh h.memory).symm.trans hy
    rw [reports, (Memory.yields_tick hh h.memory).reports]
    exact .ticked
  | program =>
    change x.advance host = .ok y at hy
    cases htodo : x.todo with
    | nil =>
      have hidle := advance_eq (Thread.advance_of_nil host x.memory htodo)
      cases hidle.symm.trans hy
      have hreports : x.reports host .program = [] := by
        simp only [reports, htodo]
      rw [hreports]
      exact .idle htodo
    | cons r rest =>
      rcases h.denied with hnone | ⟨r', rest', htodo', hsome, hdenied⟩
      · have hreports : x.reports host .program = [] := by
          simp only [reports, htodo, hnone]
        rw [hreports]
        cases ha : r.access.allowedBy (x.memory.entry r.page).permission with
        | false =>
          have hdenied := advance_eq (Thread.advance_of_not_allowed host h.memory htodo hnone ha)
          cases hdenied.symm.trans hy
          exact .denied htodo hnone ha
        | true =>
          have hserved := advance_eq (Thread.advance_of_allowed host h.memory htodo hnone ha)
          cases hserved.symm.trans hy
          exact .carriedOut htodo hnone ha
      · cases htodo.symm.trans htodo'
        obtain ⟨kind, hk⟩ := Memory.exists_classify hdenied
        have hhandled := advance_eq (Thread.advance_of_classified hh h.memory htodo hsome hk)
        cases hhandled.symm.trans hy
        have hreports : x.reports host .program = (x.memory.faultEvents r.page kind).toList := by
          simp only [reports, htodo, hsome, (Memory.yields_handleFault hh h.memory hk).reports]
        rw [hreports]
        exact .handled htodo hsome hdenied hk

/-- The first request is a store to page `p`. -/
def Stores (x : Execution) (p : Page) : Prop :=
  ∃ r rest, x.todo = r :: rest ∧ r.page = p ∧ r.access = .write

end Execution

/-! ## Chronicles -/

/-- An execution and what was seen of it, the last occurrence first. -/
structure Chronicle where
  /-- The execution. -/
  execution : Execution
  /-- What was seen. -/
  history : List Occurrence := []

namespace Chronicle

/-- The chronicle after a move to `y` during which the pager reported `es`. -/
def extended (x : Chronicle) (y : Execution) (es : List Event) : Chronicle where
  execution := y
  history :=
    (y.done.take (y.done.length - x.execution.done.length)).map .completion ++
      (es.reverse.map .report ++ x.history)

/-- A move that is noted. -/
def move (host : Host) (x : Chronicle) (turn : Turn) : Except Stop Chronicle := do
  let y ← x.execution.move host turn
  return x.extended y (x.execution.reports host turn)

/-- Moves in a row. -/
def run (host : Host) (x : Chronicle) (schedule : List Turn) : Except Stop Chronicle :=
  schedule.foldlM (move host) x

variable {host : Host} {config : Config} {program : List Request} {x : Chronicle} {y : Execution}
  {p : Page}

theorem move_eq (turn : Turn) (hy : x.execution.move host turn = .ok y) :
    x.move host turn = .ok (x.extended y (x.execution.reports host turn)) := by
  rw [move, hy]
  rfl

/-- A move in which no request is carried out adds reports only. -/
theorem history_extended_of_done (hdone : y.done = x.execution.done) (es : List Event) :
    (x.extended y es).history = es.reverse.map .report ++ x.history := by
  simp [extended, hdone]

/-- A request that is carried out is noted. -/
theorem history_extended_of_cons {c : Completion} (hdone : y.done = c :: x.execution.done) :
    (x.extended y []).history = .completion c :: x.history := by
  simp [extended, hdone]

/-- While the page of the first request is absent, no resident page is about to be written. -/
theorem not_stores_of_absent {r : Request} {rest : List Request}
    (htodo : x.execution.todo = r :: rest)
    (hr : (x.execution.memory.entry r.page).resident = false)
    (hp : (x.execution.memory.entry p).resident = true) : ¬ x.execution.Stores p := by
  rintro ⟨r', rest', htodo', rfl, -⟩
  cases htodo.symm.trans htodo'
  rw [hr] at hp
  cases hp

/-- What holds of a chronicle on its way. -/
structure Exact (program : List Request) (x : Chronicle) : Prop where
  /-- The execution is valid. -/
  valid : x.execution.Valid program
  /-- A resident page that was written since it was loaded counts as written. -/
  written : ∀ p, (x.execution.memory.entry p).resident = true →
    writtenSinceLoad p x.history = true → (x.execution.memory.entry p).dirty = true
  /-- A resident page that counts as written was written, or it is about to be. -/
  dirty : ∀ p, (x.execution.memory.entry p).resident = true →
    (x.execution.memory.entry p).dirty = true →
      writtenSinceLoad p x.history = true ∨
        betweenRequests x.history = false ∧ x.execution.Stores p
  /-- The saved pages are the victims that were written. -/
  flushes : x.execution.memory.counters.flushes = writtenVictims x.history

namespace Exact

/-- A resident page that is not about to be written counts as written exactly if it was. -/
theorem dirty_eq (h : x.Exact program) (hp : (x.execution.memory.entry p).resident = true)
    (hidle : betweenRequests x.history = true ∨ ¬ x.execution.Stores p) :
    (x.execution.memory.entry p).dirty = writtenSinceLoad p x.history := by
  rw [Bool.eq_iff_iff]
  constructor
  · intro hd
    rcases h.dirty p hp hd with hw | ⟨hbusy, hstores⟩
    · exact hw
    · rcases hidle with hidle | hidle
      · rw [hbusy] at hidle
        cases hidle
      · exact absurd hstores hidle
  · exact h.written p hp

/-- What the chronicle says after a page was loaded. A page that left was saved exactly if it was
written. -/
theorem history_pageIn (h : x.Exact program) {r : Request} {rest : List Request}
    (htodo : x.execution.todo = r :: rest)
    (hr : (x.execution.memory.entry r.page).resident = false) (hdone : y.done = x.execution.done)
    {es : List Event} (hes : es = (x.execution.memory.faultEvents r.page .pageIn).toList) :
    (∀ q, writtenSinceLoad q (x.extended y es).history =
      (decide (r.page ≠ q) && writtenSinceLoad q x.history)) ∧
    (x.execution.memory.resolved r.page .pageIn).counters.flushes =
      writtenVictims (x.extended y es).history := by
  rw [history_extended_of_done hdone, hes]
  rcases h.valid.memory.pageIn_cases hr with hdirect | ⟨victim, rest, hexchange⟩
  · rw [hdirect.events, hdirect.counters]
    constructor
    · intro q
      simp [writtenSinceLoad]
    · simp [writtenVictims, h.flushes]
  · rw [hexchange.events, hexchange.counters]
    constructor
    · intro q
      simp [writtenSinceLoad]
    · have hv := hexchange.resident
      have hvictim := h.dirty_eq hv (Or.inr (not_stores_of_absent htodo hr hv))
      simp [writtenVictims, writtenSinceLoad, h.flushes, hvictim]

/-- A page is loaded, which is not written yet. -/
theorem pageIn (h : x.Exact program) {r : Request} {rest : List Request}
    (htodo : x.execution.todo = r :: rest)
    (hr : (x.execution.memory.entry r.page).resident = false) (hy : y.Valid program)
    (hmemory : y.memory = x.execution.memory.resolved r.page .pageIn)
    (hdone : y.done = x.execution.done) {es : List Event}
    (hes : es = (x.execution.memory.faultEvents r.page .pageIn).toList) :
    (x.extended y es).Exact program := by
  have hs := h.valid.memory
  obtain ⟨hwritten, hflushes⟩ := h.history_pageIn htodo hr hdone hes
  constructor
  · exact hy
  · intro q hq hw
    change (y.memory.entry q).resident = true at hq
    change (y.memory.entry q).dirty = true
    rw [hwritten, Bool.and_eq_true, decide_eq_true_iff] at hw
    rw [hmemory] at hq ⊢
    have hsame := hs.entry_pageIn_of_ne hr (Ne.symm hw.1) hq
    rw [hsame] at hq ⊢
    exact h.written q hq hw.2
  · intro q hq hd
    change (y.memory.entry q).resident = true at hq
    change (y.memory.entry q).dirty = true at hd
    rw [hmemory] at hq hd
    left
    by_cases hqr : q = r.page
    · subst hqr
      rw [hs.entry_pageIn hr] at hd
      cases hd
    · have hsame := hs.entry_pageIn_of_ne hr hqr hq
      rw [hsame] at hq hd
      rw [hwritten, ← h.dirty_eq hq (Or.inr (not_stores_of_absent htodo hr hq)), hd]
      simpa using Ne.symm hqr
  · change y.memory.counters.flushes = _
    rw [hmemory]
    exact hflushes

/-- A resident page gets the right to be read or, for a store, to be written. -/
theorem grant (h : x.Exact program) {r : Request} {rest : List Request} {k : FaultKind}
    (htodo : x.execution.todo = r :: rest)
    (hmemory : y.memory = x.execution.memory.resolved r.page k) (hkind : k ≠ .pageIn)
    (hstore : k = .grantWrite → r.access = .write) (hy : y.Valid program)
    (htodo' : y.todo = x.execution.todo) (hdone : y.done = x.execution.done) {es : List Event}
    (hes : es = (x.execution.memory.faultEvents r.page k).toList) :
    (x.extended y es).Exact program := by
  have hhistory : (x.extended y es).history = .report (.fault r.page k) :: x.history := by
    rw [history_extended_of_done hdone, hes]
    cases k with
    | pageIn => exact absurd rfl hkind
    | grantRead => rfl
    | grantWrite => rfl
  have hentry (q : Page) := Memory.entry_resolved_of_ne_pageIn x.execution.memory r.page q hkind
  rw [← hmemory] at hentry
  constructor
  · exact hy
  · intro q hq hw
    change (y.memory.entry q).resident = true at hq
    change (y.memory.entry q).dirty = true
    rw [hhistory] at hw
    rw [(hentry q).1] at hq
    rw [(hentry q).2, h.written q hq hw, Bool.true_or]
  · intro q hq hd
    change (y.memory.entry q).resident = true at hq
    change (y.memory.entry q).dirty = true at hd
    rw [(hentry q).1] at hq
    rw [(hentry q).2, Bool.or_eq_true, decide_eq_true_iff] at hd
    rw [hhistory]
    rcases hd with hd | ⟨hwrite, rfl⟩
    · rcases h.dirty q hq hd with hw | ⟨-, hstores⟩
      · exact Or.inl hw
      · right
        refine ⟨rfl, ?_⟩
        change ∃ r' rest', y.todo = r' :: rest' ∧ _
        rw [htodo']
        exact hstores
    · exact Or.inr ⟨rfl, r, rest, htodo'.trans htodo, rfl, hstore hwrite⟩
  · change y.memory.counters.flushes = _
    rw [hmemory, hhistory]
    cases k with
    | pageIn => exact absurd rfl hkind
    | grantRead => exact h.flushes
    | grantWrite => exact h.flushes

/-- A store that is carried out makes up for the mark that its page has already. -/
theorem carriedOut (h : x.Exact program) {r : Request} {rest : List Request}
    (htodo : x.execution.todo = r :: rest)
    (ha : r.access.allowedBy (x.execution.memory.entry r.page).permission = true)
    (hy : y.Valid program) (hmemory : y.memory = x.execution.memory.served r)
    (hdone : y.done = x.execution.memory.answer r :: x.execution.done) :
    (x.extended y []).Exact program := by
  have hhistory := history_extended_of_cons hdone
  have hentry : ∀ q, y.memory.entry q = x.execution.memory.entry q := by
    intro q
    rw [hmemory]
    cases r <;> rfl
  constructor
  · exact hy
  · intro q hq hw
    change (y.memory.entry q).resident = true at hq
    change (y.memory.entry q).dirty = true
    rw [hentry] at hq ⊢
    rw [hhistory] at hw
    cases r with
    | load p i => exact h.written q hq hw
    | store p i b =>
      simp only [Memory.answer, writtenSinceLoad, Bool.or_eq_true, decide_eq_true_iff] at hw
      rcases hw with rfl | hw
      · exact (h.valid.memory.cell p).dirty_of_readWrite (Access.eq_readWrite_of_allowedBy ha)
      · exact h.written q hq hw
  · intro q hq hd
    change (y.memory.entry q).resident = true at hq
    change (y.memory.entry q).dirty = true at hd
    rw [hentry] at hq hd
    rw [hhistory]
    left
    have hbefore := h.dirty q hq hd
    cases r with
    | load p i =>
      rcases hbefore with hw | ⟨-, r', rest', htodo', -, hwrite⟩
      · exact hw
      · cases htodo.symm.trans htodo'
        cases hwrite
    | store p i b =>
      simp only [Memory.answer, writtenSinceLoad, Bool.or_eq_true, decide_eq_true_iff]
      rcases hbefore with hw | ⟨-, r', rest', htodo', hpage, -⟩
      · exact Or.inr hw
      · cases htodo.symm.trans htodo'
        exact Or.inl hpage
  · change y.memory.counters.flushes = _
    rw [hmemory, hhistory]
    cases r <;> exact h.flushes

/-- A tick withdraws rights, and nobody forgets what was written. -/
theorem ticked (h : x.Exact program) (hy : y.Valid program)
    (hmemory : y.memory = x.execution.memory.ticked host)
    (htodo : y.todo = x.execution.todo) (hdone : y.done = x.execution.done) {es : List Event}
    (hes : es = (x.execution.memory.tickEvents host).toList) : (x.extended y es).Exact program := by
  have hw := h.valid.memory.withdrawn_tickPass host
  obtain ⟨hwritten, hvictims, hbetween⟩ :
      (∀ q, writtenSinceLoad q (x.extended y es).history = writtenSinceLoad q x.history) ∧
        writtenVictims (x.extended y es).history = writtenVictims x.history ∧
        betweenRequests (x.extended y es).history = betweenRequests x.history := by
    rw [history_extended_of_done hdone, hes, Memory.tickEvents]
    split
    · exact ⟨fun q => rfl, rfl, rfl⟩
    · exact ⟨fun q => rfl, rfl, rfl⟩
  have hresident (q : Page) :
      (y.memory.entry q).resident = (x.execution.memory.entry q).resident := by
    rw [hmemory]
    exact (hw.cell q).resident
  have hdirty (q : Page) : (y.memory.entry q).dirty = (x.execution.memory.entry q).dirty := by
    rw [hmemory]
    exact (hw.cell q).dirty
  constructor
  · exact hy
  · intro q hq hwrote
    rw [hwritten] at hwrote
    exact (hdirty q).trans (h.written q ((hresident q).symm.trans hq) hwrote)
  · intro q hq hd
    rw [hwritten, hbetween]
    rcases h.dirty q ((hresident q).symm.trans hq) ((hdirty q).symm.trans hd) with
      hwrote | ⟨hbusy, hstores⟩
    · exact Or.inl hwrote
    · right
      refine ⟨hbusy, ?_⟩
      change ∃ r' rest', y.todo = r' :: rest' ∧ _
      rw [htodo]
      exact hstores
  · change y.memory.counters.flushes = _
    have hflushes : (x.execution.memory.ticked host).counters.flushes =
        x.execution.memory.counters.flushes := by
      have hcounters := congrArg Counters.flushes hw.counters
      exact hcounters
    rw [hmemory, hvictims, hflushes, h.flushes]

/-- Every move keeps what holds of a chronicle. -/
theorem moved (h : x.Exact program) {turn : Turn} {es : List Event} (hy : y.Valid program)
    (hm : x.execution.Moved host turn y es) : (x.extended y es).Exact program := by
  cases hm with
  | idle htodo =>
    have hsame : x.extended x.execution [] = x := by
      cases x
      simp [extended]
    rw [hsame]
    exact h
  | denied htodo hnone ha =>
    have hsame : x.extended { x.execution with denied := some .accessDenied } [] =
        { x with execution := { x.execution with denied := some .accessDenied } } := by
      simp [extended]
    rw [hsame]
    exact ⟨hy, h.written, h.dirty, h.flushes⟩
  | handled htodo hsome ha hk =>
    rcases Memory.resident_of_classify hk with ⟨rfl, hr⟩ | ⟨rfl, -, -⟩ | ⟨rfl, -, hp⟩
    · exact h.pageIn htodo hr hy rfl rfl rfl
    · exact h.grant (k := .grantRead) htodo rfl (by decide) nofun hy rfl rfl rfl
    · refine h.grant htodo rfl (by decide) ?_ hy rfl rfl rfl
      intro _
      rw [hp] at ha
      exact Access.eq_write_of_not_allowedBy ha
  | carriedOut htodo hnone ha => exact h.carriedOut htodo ha hy rfl rfl
  | ticked => exact h.ticked hy rfl rfl rfl rfl

/-- A move of a chronicle succeeds and keeps what holds of it. -/
theorem move (hh : host.Obliging) (h : x.Exact program) (turn : Turn) :
    ∃ z, x.move host turn = .ok z ∧ z.Exact program := by
  obtain ⟨y, hy, hvalid, hm⟩ := h.valid.moved hh turn
  exact ⟨_, move_eq turn hy, h.moved hvalid hm⟩

/-- Every run of a chronicle succeeds and keeps what holds of it. -/
theorem run (hh : host.Obliging) (h : x.Exact program) (schedule : List Turn) :
    ∃ z, x.run host schedule = .ok z ∧ z.Exact program :=
  exists_foldlM_eq_ok (fun _ hy turn => hy.move hh turn) h schedule

/-- A chronicle that begins with fresh memory. -/
theorem start {s : Memory} (hf : Memory.Fresh host config s) (hc : config.validate = .ok ())
    (program : List Request) : Exact program { execution := { memory := s, todo := program } } where
  valid := .start hf hc program
  written p hp hw := by cases hw
  dirty p hp hd := by
    rw [hf.entry] at hd
    cases hd
  flushes := by
    rw [hf.counters]
    rfl

/-- While the page of the first request is absent, a page that counts as written was written. -/
theorem written_of_absent (h : x.Exact program) {r : Request} {rest : List Request}
    (htodo : x.execution.todo = r :: rest)
    (hr : (x.execution.memory.entry r.page).resident = false)
    (hd : (x.execution.memory.entry p).dirty = true) : writtenSinceLoad p x.history = true := by
  cases hp : (x.execution.memory.entry p).resident with
  | false =>
    rw [h.valid.memory.entry_eq_empty hp] at hd
    cases hd
  | true => rw [← h.dirty_eq hp (Or.inr (not_stores_of_absent htodo hr hp)), hd]

/-- A move leaves the slot of a page alone that was not written since it was loaded. -/
theorem slot_eq (h : x.Exact program) {turn : Turn} {es : List Event}
    (hm : x.execution.Moved host turn y es) (hp : writtenSinceLoad p x.history = false) :
    y.memory.swap.slot p = x.execution.memory.swap.slot p := by
  cases hm with
  | idle htodo => rfl
  | denied htodo hnone ha => rfl
  | handled htodo hsome ha hk =>
    rcases Memory.resident_of_classify hk with ⟨rfl, hr⟩ | ⟨rfl, -, -⟩ | ⟨rfl, -, -⟩
    · apply h.valid.memory.slot_resolved hk
      by_contra hd
      rw [Bool.not_eq_false] at hd
      rw [h.written_of_absent htodo hr hd] at hp
      cases hp
    · rfl
    · rfl
  | @carriedOut r rest htodo hnone ha => cases r <;> rfl
  | ticked => exact congrArg (SwapFile.slot · p) (Memory.swap_ticked host x.execution.memory)

/-- It makes no difference to a move what would become of writes of pages that were not written
since they were loaded. -/
theorem move_withWrites (h : x.Exact program) {w : Page → Option TornWrite}
    (hw : ∀ p, writtenSinceLoad p x.history = true → w p = host.writeSlot p) (turn : Turn) :
    x.execution.move (host.withWrites w) turn = x.execution.move host turn := by
  cases turn with
  | timer => simp only [Execution.move, Memory.tick_withWrites]
  | program =>
    change x.execution.advance (host.withWrites w) = x.execution.advance host
    have hsame : x.execution.toThread.advance (host.withWrites w) x.execution.memory =
        x.execution.toThread.advance host x.execution.memory := by
      refine Thread.advance_congr ?_
      intro r rest code htodo hsome
      have hagree : Agree (Memory.handleFault (host.withWrites w) r.page code)
          (Memory.handleFault host r.page code) x.execution.memory := by
        apply h.valid.memory.agree_handleFault
        intro hr q _ hd
        exact hw q (h.written_of_absent htodo hr hd)
      rw [outcome, outcome, hagree #[]]
    rw [Execution.advance, Execution.advance, hsame]

end Exact

/-- Taking notes does not change what happens. -/
theorem execution_run (host : Host) (x : Chronicle) (schedule : List Turn) :
    (x.run host schedule).map (·.execution) = x.execution.run host schedule := by
  induction schedule generalizing x with
  | nil => rfl
  | cons turn schedule ih =>
    rw [run, Execution.run, List.foldlM_cons, List.foldlM_cons, move]
    cases hy : x.execution.move host turn with
    | error e => rfl
    | ok y => exact ih (x.extended y (x.execution.reports host turn))

/-- From every valid configuration memory can be set up. A program of loads and stores runs on it
under every schedule of its moves and of ticks, and at every moment the following holds. Unless the
faults of a request are being handled, a resident page counts as written exactly if a store to it
was carried out since it was loaded. A resident page that does not count as written equals its slot.
As many pages were saved as were evicted after a store. The slot of a page that was not stored to
since it was loaded is never written: no move changes it, and none depends on what would become of a
write to it. -/
theorem dirty_iff_writtenSinceLoad_of_run (hh : host.Ready) (hc : config.validate = .ok ()) :
    ∃ s₀ es, (Memory.new host config).Yields () s₀ () es ∧
      ∀ (program : List Request) (schedule : List Turn),
        ∃ x : Chronicle,
          run host { execution := { memory := s₀, todo := program } } schedule = .ok x ∧
          (betweenRequests x.history = true →
            ∀ p, (x.execution.memory.entry p).resident = true →
              ((x.execution.memory.entry p).dirty = true ↔ writtenSinceLoad p x.history = true)) ∧
          (∀ p, (x.execution.memory.entry p).resident = true →
            (x.execution.memory.entry p).dirty = false →
              x.execution.memory.mapping.image p = x.execution.memory.swap.slot p) ∧
          x.execution.memory.counters.flushes = writtenVictims x.history ∧
          (∀ p, writtenSinceLoad p x.history = false → ∀ turn, ∃ y,
            x.execution.move host turn = .ok y ∧
              y.memory.swap.slot p = x.execution.memory.swap.slot p) ∧
          ∀ w, (∀ p, writtenSinceLoad p x.history = true → w p = host.writeSlot p) → ∀ turn,
            x.execution.move (host.withWrites w) turn = x.execution.move host turn := by
  obtain ⟨s₀, es, hnew, hfresh⟩ := Memory.exists_fresh hh hc ()
  refine ⟨s₀, es, hnew, ?_⟩
  intro program schedule
  obtain ⟨x, hx, h⟩ := (Exact.start hfresh hc program).run hh.toObliging schedule
  refine ⟨x, hx, ?_, ?_, h.flushes, ?_, fun w hw turn => h.move_withWrites hw turn⟩
  · intro hbetween p hp
    rw [h.dirty_eq hp (Or.inl hbetween)]
  · intro p hp hd
    exact (h.valid.memory.cell p).image_eq_slot hp hd
  · intro p hp turn
    obtain ⟨y, hy, -, hm⟩ := h.valid.moved hh.toObliging turn
    exact ⟨y, hy, h.slot_eq hm hp⟩

/-- Page 0 is stored to, a tick falls between the fault and the next try, and page 1 takes its
place. Page 0 was saved when it left, and page 1, which was only read, is clean. -/
theorem dirty_iff_writtenSinceLoad_of_run_one_place : Host.willing.Ready ∧
    ({ budget := 1, policy := .clock } : Config).validate = .ok () ∧
    ∃ s₀ es, (Memory.new Host.willing { budget := 1, policy := .clock }).Yields () s₀ () es ∧
      ∃ x : Chronicle,
        run .willing { execution := { memory := s₀, todo := [.store 0 5 7, .load 1 3] } }
          [.program, .program, .timer, .program, .program, .program, .program, .program, .program,
            .program, .program] = .ok x ∧
        betweenRequests x.history = true ∧ x.execution.todo = [] ∧
        x.execution.memory.counters.flushes = 1 ∧ writtenVictims x.history = 1 ∧
        (x.execution.memory.entry 1).resident = true ∧
        (x.execution.memory.entry 1).dirty = false ∧ writtenSinceLoad 1 x.history = false ∧
        x.execution.memory.mapping.image 1 = x.execution.memory.swap.slot 1 := by
  have hvalid : ({ budget := 1, policy := .clock } : Config).validate = .ok () := rfl
  obtain ⟨s₀, es, hnew, hall⟩ := dirty_iff_writtenSinceLoad_of_run Host.ready_willing hvalid
  obtain ⟨x, hx, hiff, hclean, hflushes, -⟩ := hall [.store 0 5 7, .load 1 3]
    [.program, .program, .timer, .program, .program, .program, .program, .program, .program,
      .program, .program]
  -- where the run ends is computed; what that means for page 1 and its slot is not
  have hseen : (match Memory.new (σ := Unit) .willing { budget := 1, policy := .clock } ⟨(), #[]⟩ with
      | .ok s _ => (run .willing { execution := { memory := s, todo := [.store 0 5 7, .load 1 3] } }
          [.program, .program, .timer, .program, .program, .program, .program, .program, .program,
            .program, .program]).toOption.map fun x =>
          (betweenRequests x.history, x.execution.todo, x.execution.memory.counters.flushes,
            (x.execution.memory.entry 1).resident, (x.execution.memory.entry 1).dirty)
      | .error _ _ => none) = some (true, [], 1, true, false) := by
    decide +kernel
  rw [hnew #[]] at hseen
  simp only [hx, Except.toOption, Option.map_some, Option.some.injEq, Prod.mk.injEq] at hseen
  obtain ⟨hbetween, htodo, hcount, hresident, hdirty⟩ := hseen
  refine ⟨Host.ready_willing, hvalid, s₀, es, hnew, x, hx, hbetween, htodo, hcount,
    hflushes.symm.trans hcount, hresident, hdirty, ?_, hclean 1 hresident hdirty⟩
  rw [← Bool.not_eq_true, ← hiff hbetween 1 hresident, hdirty]
  decide

end Chronicle

end DemandPaging
