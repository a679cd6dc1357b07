import DemandPaging.Proofs.Memory.History
import DemandPaging.Proofs.Policy.Partition

/-!
# What a tick changes

A tick reaches the page table and the mapping only through withdrawals, page after page, and the host
may stop it at any of them. So which pages are resident, which count as written, all bytes and all
slots are out of its reach under every policy. Only a clock withdraws rights, and the partition of its
queue says from which pages. If nothing was refused before, a page that may be accessed counts as
used; so the pages that a whole tick passes over have no rights either, and every access after it
raises a fault.
-/

namespace DemandPaging

/-- Rights cannot be withdrawn twice. -/
@[simp] theorem Cell.revoke_revoke (c : Cell) : c.revoke.revoke = c.revoke := by
  obtain ⟨entry, frame, slot⟩ := c
  cases frame <;> rfl

/-- The refusal to change rights depends on nothing that a change of rights changes. -/
theorem Mapping.protectRefusal_protect (host : Host) (m : Mapping) (p q : Page)
    (perm perm' : Permission) :
    (m.protect p perm').protectRefusal host q perm = m.protectRefusal host q perm := by
  rw [protectRefusal, protectRefusal, frame_protect]
  by_cases hp : p = q
  · cases m.frame q <;> simp [hp]
  · simp [hp]

namespace Memory

open Step

variable {host host₀ : Host} {config : Config} {s t : Memory} {queue : List Page} {p q : Page}

/-! ## Withdrawals from memory -/

/-- What is recorded of a page after a withdrawal. -/
theorem entry_revoke (host : Host) (s : Memory) (p q : Page) :
    ((tracker host).revoke s p).entry q =
      if q = p then (s.cell q).revoke.entry else s.entry q := by
  rw [entry_of_update (cell_revoke host s p)]
  by_cases hq : q = p <;> simp [hq]

/-- A withdrawal forgets the use of its page only, changes nothing about refusals, and is refused in
the name of its page. -/
theorem faithful_tracker (host : Host) : (tracker host).Faithful where
  accessed_revoke s p q := by
    change (((tracker host).revoke s p).entry q).accessed = ((s.entry q).accessed && q != p)
    rw [entry_revoke]
    by_cases hq : q = p
    · simp [hq, Cell.revoke, Cell.setAccessed]
    · simp [hq]
  refusal_revoke s p q := by
    simp [tracker, Mapping.protectRefusal_protect]
  page_of_refusal h := by
    obtain ⟨cause, -, rfl⟩ := Option.map_eq_some_iff.mp h
    rfl

/-- What is kept about a page after rights were withdrawn from pages in a row. -/
theorem cell_foldl_revoke (host : Host) (pages : List Page) (s : Memory) (q : Page) :
    (pages.foldl (tracker host).revoke s).cell q =
      if pages.contains q then (s.cell q).revoke else s.cell q := by
  induction pages generalizing s with
  | nil => simp
  | cons p pages ih =>
    rw [List.foldl_cons, ih, cell_revoke, Function.update_apply]
    by_cases hq : q = p
    · simp [hq]
    · simp [hq]

/-! ## The frame -/

/-- `t` is `s` after a tick, as far as this does not concern rights, use and the order in which pages
leave. -/
structure Framed (s t : Memory) : Prop where
  /-- The same pages are resident. -/
  resident : ∀ q, (t.entry q).resident = (s.entry q).resident
  /-- The same pages count as written. -/
  dirty : ∀ q, (t.entry q).dirty = (s.entry q).dirty
  /-- Every page has the same bytes in memory. -/
  image : ∀ q, t.mapping.image q = s.mapping.image q
  /-- The swap file is the same. -/
  swap : t.swap = s.swap
  /-- As many bytes are in use. -/
  allocated : t.allocated = s.allocated
  /-- The range is the same. -/
  range : t.mapping.range = s.mapping.range
  /-- The budget is the same. -/
  budget : t.budget = s.budget
  /-- One more tick was counted, and nothing else. -/
  stats : t.stats = { s.stats with ticks := s.stats.ticks + 1 }

theorem framed_tickCounted (s : Memory) : Framed s s.tickCounted :=
  ⟨fun _ => rfl, fun _ => rfl, fun _ => rfl, rfl, rfl, rfl, rfl, rfl⟩

/-- Rights may be withdrawn from one more page. -/
theorem Framed.revoke (h : Framed s t) (host : Host) (p : Page) :
    Framed s ((tracker host).revoke t p) where
  resident q := by
    rw [entry_revoke, ← h.resident q]
    split <;> rfl
  dirty q := by
    rw [entry_revoke, ← h.dirty q]
    split <;> rfl
  image q := (image_withRights t p q .noAccess).trans (h.image q)
  swap := h.swap
  allocated := h.allocated
  range := h.range
  budget := h.budget
  stats := h.stats

/-- Whatever the policy is and wherever the tick ends. -/
theorem framed_ticked (host : Host) (s : Memory) : Framed s (s.ticked host) :=
  have h : Framed s (s.tickPass host).state :=
    s.policy.tick_keeps (tracker host) (fun _ p ht _ => ht.revoke host p) (framed_tickCounted s)
  ⟨h.resident, h.dirty, h.image, h.swap, h.allocated, h.range, h.budget, h.stats⟩

/-! ## The pages that lose their rights -/

/-- A tick ends as its pass ended. -/
theorem start_tick (host : Host) (s : Memory) : (tick host).start s =
    (match (s.tickPass host).refused with
      | none => .ok ()
      | some e => .error (.error (.revoke e)), s.ticked host, s.tickEvents host) := by
  rw [start, tick_eq]
  cases (s.tickPass host).refused <;> simp

/-- Another policy than a clock does nothing. -/
theorem start_tick_of_ne_clock (host : Host) (hkind : s.policy.kind ≠ .clock) :
    (tick host).start s = (.ok (), s.tickCounted, #[]) := by
  have hpass : s.tickPass host = ⟨s.policy, [], s.tickCounted, none⟩ :=
    Policy.tick_of_ne_clock _ hkind _
  simp [start_tick, ticked, tickEvents, hpass, tickCounted]

/-- The pass of a clock. -/
theorem tickPass_clock (host : Host) (hclock : s.policy = .clock queue)
    (hnodup : s.policy.tracked.Nodup) : s.tickPass host =
      ⟨.clock (queue.removeAll ((tracker host).withdrawn s queue) ++ (tracker host).withdrawn s queue),
        (tracker host).withdrawn s queue,
        ((tracker host).withdrawn s queue).foldl (tracker host).revoke s.tickCounted,
        ((tracker host).obstacle? s queue).bind ((tracker host).refusal s)⟩ := by
  have hqueue : queue.Nodup := by simpa [hclock, Policy.tracked] using hnodup
  rw [tickPass, hclock, Policy.tick_clock (faithful_tracker host) hqueue]
  rfl

/-- Rights are withdrawn from these pages of the queue and from no others. -/
theorem cell_ticked (host : Host) (hclock : s.policy = .clock queue)
    (hnodup : s.policy.tracked.Nodup) (q : Page) :
    (q ∈ (tracker host).withdrawn s queue → (s.ticked host).cell q = (s.cell q).revoke) ∧
      (q ∉ (tracker host).withdrawn s queue → (s.ticked host).cell q = s.cell q) := by
  have hcell : (s.ticked host).cell q = if ((tracker host).withdrawn s queue).contains q
      then (s.cell q).revoke else s.cell q := by
    change (s.tickPass host).state.cell q = _
    rw [tickPass_clock host hclock hnodup, cell_foldl_revoke]
    rfl
  rw [hcell]
  constructor <;> intro hq <;> simp [hq]

theorem Robust.refusal_eq (h : s.Robust) (host : Host) (p : Page) :
    (tracker host).refusal s p = (host.protect p .noAccess).map (RevokeError.mk p) := by
  obtain ⟨f, hf⟩ := Option.isSome_iff_exists.mp (h.isSome_frame p)
  simp [tracker, Mapping.protectRefusal, hf]

/-- The obstacle stops a tick, for the reason that the host gives. -/
theorem Robust.refused_eq_some_iff (h : s.Robust) (host : Host) (hclock : s.policy = .clock queue)
    (e : RevokeError) : (s.tickPass host).refused = some e ↔
      (tracker host).obstacle? s queue = some e.page ∧ host.protect e.page .noAccess = some e.cause := by
  rw [tickPass_clock host hclock h.nodup, Option.bind_eq_some_iff]
  constructor
  · rintro ⟨f, hf, he⟩
    rw [h.refusal_eq] at he
    obtain ⟨cause, hcause, rfl⟩ := Option.map_eq_some_iff.mp he
    exact ⟨hf, hcause⟩
  · rintro ⟨hf, hcause⟩
    exact ⟨e.page, hf, by rw [h.refusal_eq, hcause]; rfl⟩

/-- Without an obstacle nothing stops a tick. -/
theorem refused_eq_none_iff (host : Host) (hclock : s.policy = .clock queue)
    (hnodup : s.policy.tracked.Nodup) :
    (s.tickPass host).refused = none ↔ (tracker host).obstacle? s queue = none := by
  have hpage := (faithful_tracker host).page_of_obstacle s queue
  rw [tickPass_clock host hclock hnodup, ← Option.map_eq_none_iff (f := (·.page)), hpage]

/-- Where nothing was refused before, and nothing during the tick, no page has rights or counts as
used any more. -/
theorem Sound.entry_ticked_of_clock (h : s.Sound) (hclock : s.policy = .clock queue)
    (hfree : (s.tickPass host).refused = none) (q : Page) :
    ((s.ticked host).entry q).accessed = false ∧
      ((s.ticked host).entry q).permission = .noAccess := by
  have hobstacle := (refused_eq_none_iff host hclock h.nodup).mp hfree
  have hunused : ((s.ticked host).entry q).accessed = false := by
    cases hr : (s.entry q).resident with
    | false =>
      rw [(h.ticked host).entry_eq_empty (by rw [(framed_ticked host s).resident, hr])]
      rfl
    | true =>
      have hq : q ∈ queue := by simpa [hclock, Policy.tracked] using (h.mem_tracked q).mpr hr
      rw [← entry_cell]
      by_cases hw : q ∈ (tracker host).withdrawn s queue
      · rw [(cell_ticked host hclock h.nodup q).1 hw]
        rfl
      · have hused : ¬ (s.entry q).accessed = true := fun ha =>
          hw ((Tracker.mem_withdrawn_iff hobstacle).mpr ⟨hq, ha⟩)
        rw [(cell_ticked host hclock h.nodup q).2 hw]
        simpa using hused
  have hread : ¬ ((s.ticked host).entry q).permission.allowsRead = true := fun hp => by
    have hused := (((h.ticked host).cell q).of_allowsRead hp).2
    rw [entry_cell, hunused] at hused
    cases hused
  refine ⟨hunused, ?_⟩
  cases hp : ((s.ticked host).entry q).permission with
  | noAccess => rfl
  | read => simp [hp, Permission.allowsRead] at hread
  | readWrite => simp [hp, Permission.allowsRead] at hread

/-- A clock holds the two pages that were accessed first, and both count as used. -/
theorem Fresh.lived_two_pages (hfresh : Fresh host₀ config s) (hvalid : config.validate = .ok ())
    (hh : host.Obliging) (hkind : config.policy = .clock) (hbudget : 2 ≤ config.budget) (hne : q ≠ p)
    (hs : s.lived [.action host (.fault p .notMapped), .action host (.fault q .notMapped)] = t) :
    t.Sound ∧ t.policy = .clock [p, q] ∧ (t.entry p).accessed = true ∧ (t.entry q).accessed = true ∧
      t.stats.ticks = 0 := by
  have habsent (p : Page) : (s.entry p).resident = false := by
    rw [hfresh.entry]
    rfl
  have hempty : s.table.residentCount = 0 := by
    rw [hfresh.table]
    rfl
  have h₀ := hfresh.sound hvalid
  have hk₀ := classify_of_absent (habsent p) .notMapped
  have hfirst := h₀.admission (habsent p) (by rw [hempty, hfresh.budget]; omega)
  have h₁ := h₀.resolved hk₀
  have habsent₁ : ((s.resolved p .pageIn).entry q).resident = false := by
    rw [entry_of_update hfirst.cell, if_neg hne, habsent]
  have hk₁ := classify_of_absent habsent₁ .notMapped
  have hsecond := h₁.admission habsent₁
    (by rw [hfirst.count, budget_resolved, hempty, hfresh.budget]; omega)
  have hlived : t = (s.resolved p .pageIn).resolved q .pageIn := by
    rw [← hs]
    simp only [lived, List.foldl_cons, List.foldl_nil, meet]
    rw [h₀.perform_fault hh hk₀, h₁.perform_fault hh hk₁]
  rw [hlived]
  refine ⟨h₁.resolved hk₁, ?_, ?_, ?_, ?_⟩
  · obtain ⟨queue, hqueue⟩ := Policy.exists_eq_clock (hfresh.kind.trans hkind)
    have hnone : queue = [] := by simpa [hqueue, Policy.tracked] using hfresh.tracked
    rw [hsecond.policy, hfirst.policy, hqueue, hnone]
    rfl
  · rw [entry_of_update hsecond.cell, if_neg hne.symm, h₀.entry_pageIn (habsent p)]
    rfl
  · rw [h₁.entry_pageIn habsent₁]
    rfl
  · rw [stats, hsecond.counters, hfirst.counters, hfresh.counters]

/-- Memory went through any incidents, any of which may have been refused something, and a tick is
delivered to it, which the host may refuse as well. The tick leaves the residency and the written
mark of every page, all bytes in memory and in the swap file, the allocations and all counts alone,
except that it is counted itself. Under another policy than a clock it does nothing else and runs to
its end. A clock withdraws the rights of the pages of its queue that were used and stand in front of
the obstacle, the first page that was used and that the host refuses, forgets their use, and moves
them behind the others; nothing else is changed of these pages, and nothing at all of any other page.
The tick runs to its end exactly if there is no obstacle, and stops with an error that names it
otherwise. If nothing was refused up to a tick of a clock and nothing during it, no page has rights or
counts as used afterwards, and the host denies every access to every page. -/
theorem framed_tick_of_new {s₀ : Memory} {es : Array Event}
    (hnew : (new host₀ config).Yields () s₀ () es) (incidents : List Incident)
    (hs : s₀.lived incidents = s) (host : Host) :
    ∃ ended t events, (tick host).start s = (ended, t, events) ∧ Framed s t ∧
      (s.policy.kind ≠ .clock → ended = .ok () ∧ t = s.tickCounted) ∧
      (∀ queue, s.policy = .clock queue →
        (∀ p ∈ (tracker host).withdrawn s queue, (s.entry p).resident = true ∧
          (s.entry p).accessed = true ∧ t.cell p = (s.cell p).revoke) ∧
        (∀ p, p ∉ (tracker host).withdrawn s queue → t.cell p = s.cell p) ∧
        t.policy = .clock (queue.removeAll ((tracker host).withdrawn s queue) ++
          (tracker host).withdrawn s queue) ∧
        (ended = .ok () ↔ (tracker host).obstacle? s queue = none) ∧
        ∀ e, ended = .error (.error (.revoke e)) ↔ (tracker host).obstacle? s queue = some e.page ∧
          host.protect e.page .noAccess = some e.cause) ∧
      (s.policy.kind = .clock → (∀ x ∈ incidents, x.Obliged) →
        (host.Obliging → ended = .ok ()) ∧
        (ended = .ok () → ∀ p, (t.entry p).permission = .noAccess ∧ (t.entry p).accessed = false ∧
          ∀ a, hostDenial p a t = some .accessDenied)) := by
  subst hs
  obtain ⟨hrobust, -⟩ := robust_lived_of_new hnew incidents
  refine ⟨_, _, _, start_tick host _, framed_ticked host _, ?_, ?_, ?_⟩
  · intro hkind
    have hstart := start_tick_of_ne_clock host hkind
    rw [start_tick, Prod.mk.injEq, Prod.mk.injEq] at hstart
    exact ⟨hstart.1, hstart.2.1⟩
  · intro queue hclock
    have hstop := hrobust.refused_eq_some_iff host hclock
    have hcell := cell_ticked host hclock hrobust.nodup
    refine ⟨?_, fun p => (hcell p).2, ?_, ?_, ?_⟩
    · intro p hp
      have hmem : p ∈ queue := ((tracker host).withdrawn_sublist _ queue).subset hp
      exact ⟨hrobust.resident_of_mem (by simpa [hclock, Policy.tracked] using hmem),
        (List.mem_filter.mp hp).2, (hcell p).1 hp⟩
    · rw [ticked, tickPass_clock host hclock hrobust.nodup]
    · rw [← refused_eq_none_iff host hclock hrobust.nodup]
      cases ((s₀.lived incidents).tickPass host).refused <;> simp
    · intro e
      rw [← hstop]
      cases ((s₀.lived incidents).tickPass host).refused <;> simp
  · intro hkind hall
    have hsound : (s₀.lived incidents).Sound := by
      obtain ⟨hfresh, hc⟩ := fresh_of_new hnew
      exact (hfresh.sound hc).lived hall
    obtain ⟨queue, hclock⟩ := Policy.exists_eq_clock hkind
    refine ⟨fun hh => by rw [hsound.tickPass_refused hh], fun hend p => ?_⟩
    have hfree : ((s₀.lived incidents).tickPass host).refused = none := by
      revert hend
      cases ((s₀.lived incidents).tickPass host).refused <;> simp
    obtain ⟨hunused, hperm⟩ := hsound.entry_ticked_of_clock hclock hfree p
    refine ⟨hperm, hunused, fun a => (hsound.ticked host).hostDenial_eq_some ?_⟩
    rw [hperm]
    exact Access.not_allowedBy_noAccess a

/-- Two pages were used, and the host refuses to withdraw the rights of the second. Another host
withdraws both. -/
theorem framed_tick_of_new_second_page_refused : ∃ s₀ es s,
    (new .willing { budget := 2, policy := .clock }).Yields () s₀ () es ∧
      s₀.lived [.action .willing (.fault 0 .notMapped), .action .willing (.fault 1 .notMapped)] = s ∧
      s.policy = .clock [0, 1] ∧
      (∃ t events, (tick { protect := fun p _ => if p = 1 then some .outOfMemory else none }).start s =
          (.error (.error (.revoke ⟨1, .outOfMemory⟩)), t, events) ∧
        t.cell 0 = (s.cell 0).revoke ∧ t.cell 1 = s.cell 1 ∧ t.policy = .clock [1, 0] ∧
        t.stats.ticks = 1) ∧
      ∃ t events, (tick .willing).start s = (.ok (), t, events) ∧
        ∀ p, (t.entry p).permission = .noAccess ∧ hostDenial p .read t = some .accessDenied := by
  have hvalid : ({ budget := 2, policy := .clock } : Config).validate = .ok () := rfl
  obtain ⟨s₀, es, hnew, hfresh⟩ := exists_fresh Host.ready_willing hvalid ()
  have hh : Host.willing.Obliging := Host.ready_willing.toObliging
  obtain ⟨s, hs⟩ : ∃ s, s₀.lived [.action .willing (.fault 0 .notMapped),
      .action .willing (.fault 1 .notMapped)] = s := ⟨_, rfl⟩
  obtain ⟨h, hclock, hused₀, hused₁, hticks⟩ :=
    hfresh.lived_two_pages hvalid hh rfl (Nat.le_refl 2) (by decide) hs
  -- the host refuses page 1 only
  obtain ⟨picky, hpicky⟩ : ∃ host : Host,
      host = { protect := fun p _ => if p = 1 then some .outOfMemory else none } := ⟨_, rfl⟩
  have hgranted : (tracker picky).refusal s 0 = none := by
    rw [h.robust.refusal_eq, hpicky]
    rfl
  have hrefused : (tracker picky).refusal s 1 = some ⟨1, .outOfMemory⟩ := by
    rw [h.robust.refusal_eq, hpicky]
    rfl
  have hpasses : (tracker picky).blocks s 0 = false := by
    rw [Tracker.blocks, hgranted, Option.isSome_none, Bool.and_false]
  have hblocks : (tracker picky).blocks s 1 = true := by
    rw [Tracker.blocks, hrefused, Option.isSome_some, Bool.and_true]
    exact hused₁
  have hobstacle : (tracker picky).obstacle? s [0, 1] = some 1 := by
    rw [(Tracker.divide_of_used hused₀ hpasses).2, (Tracker.divide_of_blocks hblocks).2]
  have hwithdrawn : (tracker picky).withdrawn s [0, 1] = [0] := by
    rw [(Tracker.divide_of_used hused₀ hpasses).1, (Tracker.divide_of_blocks hblocks).1]
  obtain ⟨ended, t, events, hstart, hframed, -, hpages, -⟩ :=
    framed_tick_of_new hnew _ hs picky
  obtain ⟨hrevoked, hkept, hpolicy, -, hstop⟩ := hpages _ hclock
  obtain ⟨ended', t', events', hstart', -, -, -, hwhole⟩ :=
    framed_tick_of_new hnew _ hs .willing
  obtain ⟨hends, hdenied⟩ := hwhole (by rw [hclock]; rfl) (by simp [Incident.Obliged, hh])
  rw [hwithdrawn] at hrevoked hkept hpolicy
  have hended : ended = .error (.error (.revoke ⟨1, .outOfMemory⟩)) :=
    (hstop ⟨1, .outOfMemory⟩).mpr ⟨hobstacle, by simp [hpicky]⟩
  subst hpicky
  refine ⟨s₀, es, s, hnew, hs, hclock, ⟨t, events, ?_, ?_, ?_, ?_, ?_⟩, t', events', ?_, ?_⟩
  · rw [hstart, hended]
  · exact (hrevoked 0 (by decide)).2.2
  · exact hkept 1 (by decide)
  · rw [hpolicy]
    rfl
  · rw [hframed.stats, hticks]
  · rw [hstart', hends hh]
  · intro p
    obtain ⟨hperm, -, hdenial⟩ := hdenied (hends hh) p
    exact ⟨hperm, hdenial .read⟩

end Memory

end DemandPaging
