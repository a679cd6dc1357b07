import DemandPaging.Proofs.Memory.Mirror

/-!
# What is loaded and evicted

An operation performs a request or delivers a tick. Operations in a row visit
pages, and the replay of these visits loads as many pages, evicts the same
pages in the same order and ends with the same pages tracked and used. Two rows
of operations with the same visits load and evict the same pages.
-/

namespace DemandPaging

open Step Event

/-- What happens to managed memory. -/
inductive Operation where
  /-- A byte is loaded or stored. -/
  | access (r : Request)
  /-- The timer expires. -/
  | tick
  deriving DecidableEq, Repr

namespace Operation

/-- What the replay is told about an operation. -/
def visit : Operation → Visit
  | access r => .access r.page
  | tick => .tick

/-- The step that an operation brings about. -/
def step (host : Host) : Operation → Step Memory Unit
  | access r => do let _ ← r.perform host
  | tick => Memory.tick host

/-- Operations in a row. -/
def steps (host : Host) : List Operation → Step Memory Unit
  | [] => return ()
  | op :: ops => do
    op.step host
    steps host ops

end Operation

namespace Memory

variable {host : Host} {config : Config} {s t : Memory} {p q : Page} {r : Replay}
  {journal es : Array Event}

/-- Carrying a request out is invisible to the replay. -/
theorem Mirrors.served (hm : Mirrors s journal r) (request : Request) :
    Mirrors (s.served request) journal r := by
  cases request with
  | load p i => exact hm
  | store p i b => exact ⟨hm.policy, hm.budget, hm.resident, hm.accessed, hm.loads, hm.victims⟩

/-- An operation runs to its end and is mirrored by a visit, which loads the same pages. -/
theorem Mirrors.operation (hm : Mirrors s journal r) (hh : host.Obliging) (h : s.Sound)
    (op : Operation) :
    ∃ t es r', (op.step host).Yields s () t es ∧ t.Sound ∧ r.visit op.visit = .ok r' ∧
      Mirrors t (journal ++ es) r' ∧ loadedPages es = r.missing op.visit := by
  cases op with
  | access request =>
    obtain ⟨t, es, hperform, hfaults, hpermitted⟩ := exists_perform hh h request
    obtain ⟨r', haccess, hm', hloaded⟩ :=
      hm.faults h hfaults (Access.allowsRead_of_allowedBy hpermitted)
    exact ⟨t.served request, es, r', hperform.bind_last (Yields.pure () _),
      (hfaults.sound h).served hpermitted, haccess, hm'.served request, hloaded⟩
  | tick =>
    have hnone : loadedPages (s.tickEvents host) = #[] := by
      unfold tickEvents
      split <;> rfl
    exact ⟨s.ticked host, s.tickEvents host, r.tick, yields_tick hh h, h.ticked host, rfl,
      hm.ticked hh h, hnone⟩

/-- Operations in a row run to their end and are mirrored by their visits. -/
theorem Mirrors.operations (hm : Mirrors s journal r) (hh : host.Obliging) (h : s.Sound)
    (ops : List Operation) :
    ∃ t es r', (Operation.steps host ops).Yields s () t es ∧
      r.follow (ops.map (·.visit)) = .ok r' ∧ Mirrors t (journal ++ es) r' ∧
      loadedPages es = r.loadedPages (ops.map (·.visit)) := by
  induction ops generalizing s journal r with
  | nil => exact ⟨s, #[], r, Yields.pure () s, rfl, hm.of_same rfl rfl (fun _ => rfl) rfl rfl, rfl⟩
  | cons op ops ih =>
    obtain ⟨t, es, r', hstep, hsound, hvisit, hm', hloaded⟩ := hm.operation hh h op
    obtain ⟨t', es', r'', hsteps, hfollow, hm'', hloaded'⟩ := ih hm' hsound
    refine ⟨t', es ++ es', r'', hstep.bind hsteps, ?_, ?_, ?_⟩
    · rw [List.map_cons, Replay.follow, hvisit]
      exact hfollow
    · rw [← Array.append_assoc]
      exact hm''
    · rw [loadedPages_append, List.map_cons, Replay.loadedPages, hvisit, hloaded, hloaded']

/-- Fresh memory is mirrored by a replay that starts with the same policy and budget. -/
theorem Mirrors.start (hf : Fresh host config s) :
    Mirrors s #[] { policy := s.policy, budget := config.budget } where
  policy := rfl
  budget := hf.budget.symm
  resident := by
    rw [hf.tracked]
  accessed p := by
    rw [← entry_cell, hf.cell]
    exact iff_of_false List.not_mem_nil Bool.false_ne_true
  loads := by
    rw [hf.counters]
  victims := rfl

/-- From every valid configuration memory can be set up. Operations in a row then run to their
end, and so does the replay of their visits with the configured policy and budget. After them, and
so after each of their beginnings, as many pages were loaded on both sides, the same pages were
evicted in the same order, and the same pages are tracked, in the same order, and used. Operations
with the same visits load the same pages and evict the same pages, whatever they load or store. -/
theorem replay_of_operations (hh : host.Ready) (hc : config.validate = .ok ()) :
    ∃ s₀ es₀, (new host config).Yields () s₀ () es₀ ∧
      Policy.build host config.policy config.budget config.seed = .ok s₀.policy ∧
      (∀ ops : List Operation, ∃ s es r, (Operation.steps host ops).Yields s₀ () s es ∧
        Replay.follow { policy := s₀.policy, budget := config.budget } (ops.map (·.visit)) = .ok r ∧
        s.counters.loads = r.loads ∧ evictedPages es = r.victims ∧
        s.policy.tracked = r.policy.tracked ∧
        ∀ p, (s.entry p).accessed = true ↔ p ∈ r.accessed) ∧
      ∀ ops ops' : List Operation, ops.map (·.visit) = ops'.map (·.visit) →
        ∃ s es s' es', (Operation.steps host ops).Yields s₀ () s es ∧
          (Operation.steps host ops').Yields s₀ () s' es' ∧
          loadedPages es = loadedPages es' ∧ evictedPages es = evictedPages es' := by
  obtain ⟨s₀, es₀, hnew, hfresh⟩ := exists_fresh hh hc ()
  have hsound := hfresh.sound hc
  have hstart := Mirrors.start hfresh
  refine ⟨s₀, es₀, hnew, hfresh.policy, fun ops => ?_, fun ops ops' hvisits => ?_⟩
  · obtain ⟨s, es, r, hsteps, hfollow, hm, -⟩ := hstart.operations hh.toObliging hsound ops
    rw [Array.empty_append] at hm
    exact ⟨s, es, r, hsteps, hfollow, hm.loads.symm, hm.victims.symm,
      congrArg Policy.tracked hm.policy.symm, fun p => (hm.accessed p).symm⟩
  · obtain ⟨s, es, r, hsteps, hfollow, hm, hloaded⟩ := hstart.operations hh.toObliging hsound ops
    obtain ⟨s', es', r', hsteps', hfollow', hm', hloaded'⟩ :=
      hstart.operations hh.toObliging hsound ops'
    rw [← hvisits] at hfollow' hloaded'
    rw [hfollow, Except.ok.injEq] at hfollow'
    subst hfollow'
    rw [Array.empty_append] at hm hm'
    exact ⟨s, es, s', es', hsteps, hsteps', hloaded.trans hloaded'.symm,
      hm.victims.symm.trans hm'.victims⟩

/-- Two places, and a tick that moves both pages to the back: the third page takes the place of
the first. -/
theorem replay_of_operations_two_places : Host.willing.Ready ∧
    ({ budget := 2, policy := .clock } : Config).validate = .ok () ∧
    ∃ s₀ es₀ s es, (new Host.willing { budget := 2, policy := .clock }).Yields () s₀ () es₀ ∧
      (Operation.steps .willing [.access (.store 0 5 7), .access (.load 1 0), .tick,
        .access (.load 2 0), .access (.store 2 1 3)]).Yields s₀ () s es ∧
      s.counters.loads = 3 ∧ evictedPages es = #[0] ∧ s.policy.tracked = [1, 2] ∧
      ∀ p, (s.entry p).accessed = true ↔ p ∈ [2] := by
  have hvalid : ({ budget := 2, policy := .clock } : Config).validate = .ok () := rfl
  obtain ⟨s₀, es₀, hnew, hpolicy, hall, -⟩ := replay_of_operations Host.ready_willing hvalid
  obtain ⟨s, es, r, hsteps, hfollow, hloads, hvictims, htracked, haccessed⟩ :=
    hall [.access (.store 0 5 7), .access (.load 1 0), .tick, .access (.load 2 0),
      .access (.store 2 1 3)]
  have hclock : s₀.policy = .clock [] := (Except.ok.inj hpolicy).symm
  rw [hclock] at hfollow
  have hreplay : Replay.follow { policy := .clock [], budget := 2 }
      [.access 0, .access 1, .tick, .access 2, .access 2] =
      .ok { policy := .clock [1, 2], budget := 2, resident := [2, 1], accessed := [2], loads := 3,
            victims := #[0], revocations := 2 } := rfl
  obtain rfl := Except.ok.inj (hfollow.symm.trans hreplay)
  exact ⟨Host.ready_willing, hvalid, s₀, es₀, s, es, hnew, hsteps, hloads, hvictims, htracked,
    haccessed⟩

end Memory

end DemandPaging
