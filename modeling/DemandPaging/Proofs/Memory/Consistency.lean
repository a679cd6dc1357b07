import DemandPaging.Proofs.Memory.Diagnosis
import DemandPaging.Proofs.Memory.Fresh
import DemandPaging.Proofs.Memory.Robust
import DemandPaging.Proofs.Memory.Tick

/-!
# Consistency of every reachable state

Faults with any code, ticks and allocations are the actions that reach managed
memory from outside. Each of them keeps the invariant on a host that refuses
nothing, also a fault that is refused because it cannot be classified, which
changes nothing at all. The consistency check finds no fault with sound
memory, so it succeeds after every run.
-/

namespace DemandPaging.Memory

open Step

variable {host : Host} {config : Config} {s : Memory}

/-- What reaches managed memory from outside. -/
inductive Action where
  /-- The host reports a fault. -/
  | fault (p : Page) (code : FaultCode)
  /-- The timer expires. -/
  | tick
  /-- Memory is requested. -/
  | allocate (size : Nat)
  deriving DecidableEq, Repr

/-- The step that an action brings about. -/
def Action.step (host : Host) : Action → Step Memory Unit
  | fault p code => do let _ ← handleFault host p code
  | tick => Memory.tick host
  | allocate size => do let _ ← Memory.allocate size

/-- The state that an action leaves, whether its step ran to its end or stopped. -/
def perform (host : Host) (s : Memory) (a : Action) : Memory :=
  ((a.step host).after ⟨s, #[]⟩).state

/-- The state after actions in a row, each under the conditions that the host sets at that moment.
-/
def run (s : Memory) (actions : List (Host × Action)) : Memory :=
  actions.foldl (fun s x => s.perform x.1 x.2) s

/-- A fault that can be classified is resolved. -/
theorem Sound.yields_step_fault (hh : host.Obliging) (h : s.Sound) {p : Page} {code : FaultCode}
    {kind : FaultKind} (hk : FaultKind.classify p (s.entry p) code = .ok kind) :
    (Action.step host (.fault p code)).Yields s () (s.resolved p kind) (s.faultEvents p kind) :=
  (yields_handleFault hh h hk).bind_last (Yields.pure _ _)

theorem Sound.perform_fault (hh : host.Obliging) (h : s.Sound) {p : Page} {code : FaultCode}
    {kind : FaultKind} (hk : FaultKind.classify p (s.entry p) code = .ok kind) :
    s.perform host (.fault p code) = s.resolved p kind :=
  (h.yields_step_fault hh hk).state_after #[]

/-- A fault that cannot be classified leaves no trace. -/
theorem after_fault_of_refused (host : Host) {p : Page} {code : FaultCode} {e : PagerError}
    (hk : FaultKind.classify p (s.entry p) code = .error e) (journal : Array Event) :
    (Action.step host (.fault p code)).after ⟨s, journal⟩ = ⟨s, journal⟩ := by
  have hstop := handleFault_of_refused host hk journal
  simp only [Action.step, after, bind, EStateM.bind, hstop]

theorem perform_fault_of_refused (host : Host) {p : Page} {code : FaultCode} {e : PagerError}
    (hk : FaultKind.classify p (s.entry p) code = .error e) : s.perform host (.fault p code) = s := by
  rw [Memory.perform, after_fault_of_refused host hk]

theorem Sound.yields_step_tick (hh : host.Obliging) (h : s.Sound) :
    (Action.step host .tick).Yields s () (s.ticked host) (s.tickEvents host) :=
  yields_tick hh h

/-- A tick leaves the state after the pass of the policy, also if the pass was refused. -/
theorem perform_tick (host : Host) (s : Memory) : s.perform host .tick = s.ticked host := by
  simp only [Memory.perform, Action.step, after, tick_eq]
  cases (s.tickPass host).refused <;> rfl

/-- An allocation changes the number of bytes in use at most. -/
theorem exists_yields_step_allocate (host : Host) (s : Memory) (size : Nat) :
    ∃ n es, (Action.step host (.allocate size)).Yields s () { s with allocated := n } es ∧
      (es = #[] ∨ es = #[.allocationRefused size (alignUp s.allocated)]) := by
  obtain ⟨r, n, es, hallocate, hes⟩ := yields_allocate s size
  exact ⟨n, es, hallocate.bind_last (Yields.pure _ _), hes⟩

theorem exists_perform_allocate (host : Host) (s : Memory) (size : Nat) :
    ∃ n, s.perform host (.allocate size) = { s with allocated := n } := by
  obtain ⟨n, es, hrun, -⟩ := exists_yields_step_allocate host s size
  exact ⟨n, hrun.state_after #[]⟩

/-- An action keeps the invariant and the budget. -/
theorem Sound.perform (hh : host.Obliging) (h : s.Sound) (a : Action) :
    (s.perform host a).Sound ∧ (s.perform host a).budget = s.budget := by
  cases a with
  | fault p code =>
    cases hk : FaultKind.classify p (s.entry p) code with
    | ok kind =>
      rw [h.perform_fault hh hk]
      exact ⟨h.resolved hk, budget_resolved s p kind⟩
    | error e =>
      rw [perform_fault_of_refused host hk]
      exact ⟨h, rfl⟩
  | tick =>
    rw [perform_tick]
    exact ⟨h.ticked host, h.budget_ticked host⟩
  | allocate size =>
    obtain ⟨n, hsame⟩ := exists_perform_allocate host s size
    rw [hsame]
    exact ⟨h.of_same_cells rfl rfl rfl rfl, rfl⟩

/-- A run keeps the invariant and the budget. -/
theorem Sound.run (h : s.Sound) {actions : List (Host × Action)}
    (hh : ∀ x ∈ actions, x.1.Obliging) :
    (s.run actions).Sound ∧ (s.run actions).budget = s.budget := by
  induction actions generalizing s with
  | nil => exact ⟨h, rfl⟩
  | cons x actions ih =>
    obtain ⟨hx, hrest⟩ := List.forall_mem_cons.mp hh
    obtain ⟨hsound, hbudget⟩ := h.perform hx x.2
    obtain ⟨hsound', hbudget'⟩ := ih hsound hrest
    exact ⟨hsound', hbudget'.trans hbudget⟩

/-- Sound memory breaks no rule. -/
theorem Sound.consistent (h : s.Sound) : s.Consistent where
  budget := h.count.le.trans h.bounded
  entries p hp := by
    rw [h.entry_eq_empty (Bool.eq_false_iff.mpr hp)]
    exact ⟨rfl, rfl, rfl, rfl⟩
  count := by rw [ncard_residents, h.length_residentPages]
  policy := Set.ext h.mem_tracked

/-- The consistency check succeeds on sound memory. -/
theorem Sound.yields_check (h : s.Sound) : check.Yields s () s #[] := by
  refine (yields_query _ s).bind_silent ?_
  exact yields_refuse h.consistent.violation?_eq_none s

/-- From every valid configuration memory can be set up. After every run of faults, ticks and
allocations the consistency check succeeds: the configured budget is kept, the stored number of
resident pages is their number, nothing is recorded of the other pages, and the policy holds the
resident pages, each of them once. -/
theorem check_of_run (hh : host.Ready) (hc : config.validate = .ok ()) :
    ∃ s₀ es, (new host config).Yields () s₀ () es ∧
      ∀ actions : List (Host × Action), (∀ x ∈ actions, x.1.Obliging) →
        check.Yields (s₀.run actions) () (s₀.run actions) #[] ∧
        (s₀.run actions).table.residentCount ≤ config.budget ∧
        (s₀.run actions).table.residentCount =
          (Page.all.filter fun p => ((s₀.run actions).entry p).resident).length ∧
        (∀ p, ((s₀.run actions).entry p).resident = false → (s₀.run actions).entry p = .empty) ∧
        (∀ p, p ∈ (s₀.run actions).policy.tracked ↔ ((s₀.run actions).entry p).resident = true) ∧
        (s₀.run actions).policy.tracked.Nodup := by
  obtain ⟨s₀, es, hnew, hfresh⟩ := exists_fresh hh hc ()
  refine ⟨s₀, es, hnew, fun actions hactions => ?_⟩
  obtain ⟨h, hbudget⟩ := (hfresh.sound hc).run hactions
  refine ⟨h.yields_check, ?_, h.length_residentPages.symm, fun p hr => h.entry_eq_empty hr,
    h.mem_tracked, h.nodup⟩
  rw [h.count, ← hfresh.budget, ← hbudget]
  exact h.bounded

/-- Three pages that share two places, with a tick in between. -/
theorem check_of_run_two_places : Host.willing.Ready ∧
    ({ budget := 2, policy := .clock } : Config).validate = .ok () ∧
    ∃ s₀ es s, (new Host.willing { budget := 2, policy := .clock }).Yields () s₀ () es ∧
      s₀.run [(.willing, .fault 0 .notMapped), (.willing, .fault 1 .notMapped),
        (.willing, .tick), (.willing, .fault 2 .accessDenied)] = s ∧
      check.Yields s () s #[] ∧ s.table.residentCount ≤ 2 := by
  have hvalid : ({ budget := 2, policy := .clock } : Config).validate = .ok () := rfl
  obtain ⟨s₀, es, hnew, hall⟩ := check_of_run Host.ready_willing hvalid
  have hobliging : ∀ x ∈ [(Host.willing, Action.fault 0 .notMapped), (.willing, .fault 1 .notMapped),
      (.willing, .tick), (.willing, .fault 2 .accessDenied)], x.1.Obliging := by
    intro x hx
    have hwilling : x.1 = .willing := by
      simp only [List.mem_cons, List.not_mem_nil, or_false] at hx
      rcases hx with rfl | rfl | rfl | rfl <;> rfl
    rw [hwilling]
    exact Host.ready_willing.toObliging
  obtain ⟨hcheck, hbudget, -⟩ := hall _ hobliging
  exact ⟨Host.ready_willing, hvalid, s₀, es, _, hnew, rfl, hcheck, hbudget⟩

end DemandPaging.Memory
