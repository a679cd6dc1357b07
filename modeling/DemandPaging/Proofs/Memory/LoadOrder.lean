import DemandPaging.Proofs.Memory.Accounting
import DemandPaging.Proofs.Memory.Mirror

/-!
# Pages leave in the order in which they were loaded

With the policy that lets the oldest page go, the pages that were loaded in the course of a run are
the pages that left and, behind them, the pages that the policy holds: a load puts its page at the
end, and an eviction moves the border by one page. A page that is loaded again after it left stands
there once for each load, so this is about the two sequences as wholes. How far the border has come
follows from the counts.
-/

namespace DemandPaging

/-- The policy that lets the oldest page go lets its first page go. -/
theorem Policy.evict_of_kind_fifo {p rest : Policy} {victim : Page} (hfifo : p.kind = .fifo)
    (hevict : p.evict = (some victim, rest)) :
    rest.kind = .fifo ∧ p.tracked = victim :: rest.tracked :=
  ⟨(kind_of_evict hevict).trans hfifo, tracked_of_evict (by simp [hfifo]) hevict⟩

namespace Memory

open Step Event

variable {host₀ : Host} {config : Config} {s t : Memory} {p : Page} {x : Incident}
  {es journal : Array Event}

/-! ## Runs with their reports -/

/-- What an incident leaves of memory, and what is reported by then. -/
def Incident.after (x : Incident) (t : Traced Memory) : Traced Memory :=
  match x with
  | .action host a => (a.step host).after t
  | .store _ _ _ => { t with state := t.state.meet x }

/-- The same for incidents in a row. -/
def Incident.afterAll (incidents : List Incident) (t : Traced Memory) : Traced Memory :=
  incidents.foldl (fun t x => x.after t) t

/-- No fault on a page that is not resident. -/
def Incident.Resident (s : Memory) : Incident → Prop
  | .action _ (.fault p _) => (s.entry p).resident = true
  | _ => True

/-- What an incident makes of the policy that lets the oldest page go, and which pages it loads and
evicts. -/
inductive Moved (s : Memory) (x : Incident) (t : Memory) (es : Array Event) : Prop
  /-- No page is loaded. -/
  | still (policy : t.policy = s.policy) (loads : t.counters.loads = s.counters.loads)
      (loaded : loadedPages es = #[]) (evicted : evictedPages es = #[])
  /-- A page is loaded. -/
  | loaded (p : Page) (absent : ¬ x.Resident s) (policy : t.policy = s.policy.takeIn p)
      (loads : t.counters.loads = s.counters.loads + 1) (loaded : loadedPages es = #[p])
      (evicted : evictedPages es = #[])
  /-- A page is loaded after another one left. -/
  | exchanged (p victim : Page) (rest : Policy) (absent : ¬ x.Resident s)
      (evict : s.policy.evict = (some victim, rest)) (policy : t.policy = rest.takeIn p)
      (loads : t.counters.loads = s.counters.loads + 1) (loaded : loadedPages es = #[p])
      (evicted : evictedPages es = #[victim])

/-- A fault on an absent page loads it. -/
theorem Sound.moved_pageIn (h : s.Sound) (hr : (s.entry p).resident = false) (host : Host)
    (code : FaultCode) :
    Moved s (.action host (.fault p code)) (s.resolved p .pageIn) (s.faultEvents p .pageIn) := by
  have habsent : ¬ (Incident.action host (.fault p code)).Resident s := by
    simp [Incident.Resident, hr]
  rcases h.pageIn_cases hr with hdirect | ⟨victim, rest, hexchange⟩
  · apply Moved.loaded p habsent hdirect.policy
    · rw [hdirect.counters]
    · rw [hdirect.events]
      rfl
    · rw [hdirect.events]
      rfl
  · apply Moved.exchanged p victim rest habsent hexchange.evict hexchange.policy
    · rw [hexchange.counters]
    · rw [hexchange.events]
      rfl
    · rw [hexchange.events]
      rfl

/-- A tick does not concern the policy that lets the oldest page go. -/
theorem moved_tick (hfifo : s.policy.kind = .fifo) (host : Host) :
    Moved s (.action host .tick) (s.ticked host) (s.tickEvents host) := by
  have hpass : s.tickPass host = ⟨s.policy, [], s.tickCounted, none⟩ :=
    Policy.tick_of_ne_clock (tracker host) (by rw [hfifo]; decide) _
  apply Moved.still <;> simp [ticked, tickEvents, hpass, tickCounted, loadedPages, evictedPages]

/-- Whatever happens while nothing is refused, pages come and go in one of these ways. -/
theorem Sound.moved_meet (h : s.Sound) (hfifo : s.policy.kind = .fifo) (hx : x.Obliged)
    (journal : Array Event) :
    ∃ es, x.after ⟨s, journal⟩ = ⟨s.meet x, journal ++ es⟩ ∧ Moved s x (s.meet x) es := by
  cases x with
  | action host a =>
    change ∃ es, (a.step host).after ⟨s, journal⟩ = ⟨s.perform host a, journal ++ es⟩ ∧
      Moved s _ (s.perform host a) es
    cases a with
    | fault p code =>
      cases hk : FaultKind.classify p (s.entry p) code with
      | ok kind =>
        have hafter := (h.yields_step_fault hx hk).after_eq journal
        rw [h.perform_fault hx hk]
        refine ⟨_, hafter, ?_⟩
        rcases resident_of_classify hk with ⟨rfl, hr⟩ | ⟨rfl, -, -⟩ | ⟨rfl, -, -⟩
        · exact h.moved_pageIn hr host code
        · exact .still rfl rfl rfl rfl
        · exact .still rfl rfl rfl rfl
      | error e =>
        rw [perform_fault_of_refused host hk]
        refine ⟨#[], ?_, .still rfl rfl rfl rfl⟩
        rw [after_fault_of_refused host hk, Array.append_empty]
    | tick =>
      rw [perform_tick]
      exact ⟨_, (h.yields_step_tick hx).after_eq journal, moved_tick hfifo host⟩
    | allocate size =>
      obtain ⟨n, es, hrun, hes⟩ := exists_yields_step_allocate host s size
      have hstate : s.perform host (.allocate size) = { s with allocated := n } :=
        hrun.state_after #[]
      rw [hstate]
      refine ⟨es, hrun.after_eq journal, ?_⟩
      rcases hes with rfl | rfl
      · exact .still rfl rfl rfl rfl
      · exact .still rfl rfl rfl rfl
  | store p i b =>
    refine ⟨#[], ?_, ?_⟩
    · rw [Array.append_empty]
      rfl
    · rw [meet_store]
      split <;> exact .still rfl rfl rfl rfl

/-! ## The two sequences -/

/-- The pages that were loaded are those that left and, behind them, those that are held. -/
structure InLoadOrder (s : Memory) (journal : Array Event) : Prop where
  /-- The oldest page is the next one to go. -/
  kind : s.policy.kind = .fifo
  /-- The pages that were loaded, in order. -/
  loaded : (loadedPages journal).toList = (evictedPages journal).toList ++ s.policy.tracked
  /-- Every load is counted. -/
  loads : s.counters.loads = (loadedPages journal).size

namespace InLoadOrder

/-- Nothing was loaded at first. -/
theorem of_fresh (h : Fresh host₀ config s) (hfifo : config.policy = .fifo) :
    InLoadOrder s #[] where
  kind := h.kind.trans hfifo
  loaded := by
    rw [h.tracked]
    rfl
  loads := by
    rw [h.counters]
    rfl

/-- A load puts its page at the end, and an eviction takes the first page that is held. -/
theorem moved (h : InLoadOrder s journal) (hm : Moved s x t es) : InLoadOrder t (journal ++ es) := by
  obtain ⟨hkind, hloaded, hloads⟩ := h
  cases hm with
  | still hpolicy hcount hin hout =>
    constructor
    · rw [hpolicy]
      exact hkind
    · simpa [loadedPages_append, evictedPages_append, hin, hout, hpolicy] using hloaded
    · simpa [loadedPages_append, hin, hcount] using hloads
  | loaded p habsent hpolicy hcount hin hout =>
    constructor
    · rw [hpolicy, Policy.kind_takeIn]
      exact hkind
    · simp [loadedPages_append, evictedPages_append, hin, hout, hpolicy, hloaded]
    · simp [loadedPages_append, hin, hcount, hloads]
  | exchanged p victim rest habsent hevict hpolicy hcount hin hout =>
    obtain ⟨hrest, htracked⟩ := Policy.evict_of_kind_fifo hkind hevict
    constructor
    · rw [hpolicy, Policy.kind_takeIn]
      exact hrest
    · simp [loadedPages_append, evictedPages_append, hin, hout, hpolicy, hloaded, htracked]
    · simp [loadedPages_append, hin, hcount, hloads]

/-- As long as nothing is refused, pages stay in the order in which they were loaded. -/
theorem afterAll (h : InLoadOrder s journal) (hsound : s.Sound) {incidents : List Incident}
    (hall : ∀ x ∈ incidents, x.Obliged) :
    (Incident.afterAll incidents ⟨s, journal⟩).state = s.lived incidents ∧
      InLoadOrder (s.lived incidents) (Incident.afterAll incidents ⟨s, journal⟩).journal := by
  induction incidents generalizing s journal with
  | nil => exact ⟨rfl, h⟩
  | cons x incidents ih =>
    obtain ⟨hx, hrest⟩ := List.forall_mem_cons.mp hall
    obtain ⟨es, hafter, hmoved⟩ := hsound.moved_meet h.kind hx journal
    have hsame : Incident.afterAll (x :: incidents) ⟨s, journal⟩ =
        Incident.afterAll incidents ⟨s.meet x, journal ++ es⟩ := by
      rw [← hafter]
      rfl
    rw [hsame]
    exact ih (h.moved hmoved) (hsound.next (hsound.next_meet hx)) hrest

/-- The border between the pages that left and those that are held. -/
theorem eq_take (h : InLoadOrder s journal) (hsound : s.Sound) (hbalanced : s.Balanced) :
    (evictedPages journal).toList =
        (loadedPages journal).toList.take (s.counters.loads - s.budget) ∧
      s.policy.tracked = (loadedPages journal).toList.drop (s.counters.loads - s.budget) := by
  have hsize : (evictedPages journal).toList.length = s.counters.loads - s.budget := by
    have hlength := congrArg List.length h.loaded
    have hresident := hbalanced.resident_eq hsound.robust.bounded
    have hcount := hsound.count
    have hloads := h.loads
    simp only [List.length_append, Array.length_toList] at hlength ⊢
    simp only [stats] at hresident
    omega
  rw [h.loaded, ← hsize, List.take_left, List.drop_left]
  exact ⟨rfl, rfl⟩

end InLoadOrder

/-- Memory lets the oldest page go, and nothing is refused. After incidents in a row, `L` of which
loaded a page, the pages that left are the first `L - budget` of those that were loaded, in the same
order; the others are held, in the same order. What is not a fault on an absent page loads no page
and evicts none. -/
theorem evictedPages_eq_take_of_fifo {s₀ : Memory} {es : Array Event}
    (hfifo : config.policy = .fifo) (hnew : (new host₀ config).Yields () s₀ () es)
    {incidents : List Incident} (hall : ∀ x ∈ incidents, x.Obliged) {t : Traced Memory}
    (ht : Incident.afterAll incidents ⟨s₀, #[]⟩ = t) :
    t.state.counters.loads = (loadedPages t.journal).size ∧
      (evictedPages t.journal).toList =
        (loadedPages t.journal).toList.take (t.state.counters.loads - config.budget) ∧
      t.state.policy.tracked =
        (loadedPages t.journal).toList.drop (t.state.counters.loads - config.budget) ∧
      ∀ x : Incident, x.Obliged → x.Resident t.state →
        loadedPages (x.after t).journal = loadedPages t.journal ∧
        evictedPages (x.after t).journal = evictedPages t.journal := by
  obtain ⟨hfresh, hc⟩ := fresh_of_new hnew
  obtain ⟨-, hbudget⟩ := robust_lived_of_new hnew incidents
  have hsound := (hfresh.sound hc).lived hall
  have hbalanced := (hfresh.sound hc).balanced_lived (.of_fresh hfresh) hall
  obtain ⟨hstate, horder⟩ := (InLoadOrder.of_fresh hfresh hfifo).afterAll (hfresh.sound hc) hall
  rw [ht] at hstate horder
  rw [← hstate] at hsound hbalanced horder hbudget
  obtain ⟨hleft, hheld⟩ := horder.eq_take hsound hbalanced
  rw [hbudget] at hleft hheld
  refine ⟨horder.loads, hleft, hheld, ?_⟩
  intro x hx hresident
  obtain ⟨es', hafter, hmoved⟩ := hsound.moved_meet horder.kind hx t.journal
  rw [hafter]
  cases hmoved with
  | still hpolicy hcount hin hout =>
    simp [loadedPages_append, evictedPages_append, hin, hout]
  | loaded p habsent => exact absurd hresident habsent
  | exchanged p victim rest habsent => exact absurd hresident habsent

/-- Page 1 takes the place of page 0, and a tick takes none. -/
theorem evictedPages_eq_take_of_fifo_one_place : ∃ s₀ es t,
    (new .willing { budget := 1, policy := .fifo }).Yields () s₀ () es ∧
      Incident.afterAll [.action .willing (.fault 0 .notMapped),
        .action .willing (.fault 1 .notMapped)] ⟨s₀, #[]⟩ = t ∧
      (loadedPages t.journal).toList = [0, 1] ∧ (evictedPages t.journal).toList = [0] ∧
      t.state.policy.tracked = [1] ∧
      evictedPages ((Incident.action .willing .tick).after t).journal = evictedPages t.journal := by
  have hvalid : ({ budget := 1, policy := .fifo } : Config).validate = .ok () := rfl
  obtain ⟨s₀, es, hnew, hfresh⟩ := exists_fresh Host.ready_willing hvalid ()
  have hh : Host.willing.Obliging := Host.ready_willing.toObliging
  obtain ⟨hfirst, h₁, habsent, rest, hsecond⟩ :=
    hfresh.exchange_of_budget_one hvalid rfl (p := 0) (q := 1) (by decide)
  have hk₀ : FaultKind.classify 0 (s₀.entry 0) .notMapped = .ok .pageIn :=
    classify_of_absent (by rw [hfresh.entry]; rfl) .notMapped
  have hk₁ := classify_of_absent habsent .notMapped
  obtain ⟨t, ht⟩ : ∃ t, Incident.afterAll [.action .willing (.fault 0 .notMapped),
      .action .willing (.fault 1 .notMapped)] ⟨s₀, #[]⟩ = t := ⟨_, rfl⟩
  have hloaded : (loadedPages t.journal).toList = [0, 1] := by
    rw [← ht]
    simp only [Incident.afterAll, List.foldl_cons, List.foldl_nil, Incident.after]
    rw [((hfresh.sound hvalid).yields_step_fault hh hk₀).after_eq,
      (h₁.yields_step_fault hh hk₁).after_eq, hfirst.events, hsecond.events]
    rfl
  obtain ⟨hcount, hleft, hheld, hstill⟩ := evictedPages_eq_take_of_fifo rfl hnew
    (by simp [Incident.Obliged, hh]) ht
  rw [← Array.length_toList, hloaded] at hcount
  rw [hcount, hloaded] at hleft hheld
  exact ⟨s₀, es, t, hnew, ht, hloaded, hleft, hheld, (hstill (.action .willing .tick) hh trivial).2⟩

end Memory

end DemandPaging
