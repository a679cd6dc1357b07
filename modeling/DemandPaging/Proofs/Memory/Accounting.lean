import DemandPaging.Proofs.Memory.History

/-!
# The counts add up

As long as nothing is refused, every load is paid for: by a page that is resident still, or by the
eviction that made it leave. A flush is paid for by the fault that made the page writable before it
left, and a page counts as written from that fault on. So what bounds loads and flushes by faults
counts the pages that are written at the moment along with them: a write moves a fault into that
number, and a flush takes one out of it.
-/

namespace DemandPaging.Memory

open Step

variable {host host₀ : Host} {config : Config} {s t : Memory} {p victim : Page} {c : Cell}
  {rest : Policy}

/-- The number of pages that count as written. -/
def written (s : Memory) : Nat := (s.table.entries.pagesWhere (·.dirty)).length

/-! ## What a step adds to the counts -/

theorem written_of_dirty_eq (h : ∀ q, (t.entry q).dirty = (s.entry q).dirty) :
    t.written = s.written := by
  simp only [written, PageMap.pagesWhere]
  apply congrArg List.length
  apply List.filter_congr
  intro q _
  exact h q

/-- A change at one page changes the number of written pages by that page. -/
theorem written_of_update (hcell : t.cell = Function.update s.cell p c) :
    t.written + (s.entry p).dirty.toNat = s.written + c.entry.dirty.toNat :=
  length_pagesWhere_of_update (·.dirty) hcell

/-- A page that is loaded counts as written no more than before. -/
theorem written_of_load
    (hcell : t.cell = Function.update s.cell p ((s.cell p).load.setAccessed true)) :
    t.written = s.written := by
  have hsame : (((s.cell p).load.setAccessed true).entry).dirty = (s.entry p).dirty := rfl
  have hupdate := written_of_update hcell
  rw [hsame] at hupdate
  omega

/-- A written page that leaves does not count as written any more. -/
theorem written_unloaded (s : Memory) (victim : Page) :
    (s.unloaded victim).written + (s.entry victim).dirty.toNat = s.written := by
  have hempty : (s.cell victim).unload.entry.dirty.toNat = 0 := rfl
  have hupdate := written_of_update (cell_unloaded s victim)
  rwa [hempty, Nat.add_zero] at hupdate

/-- Of two pages of which one leaves and the other one is loaded, only the first one changes the
number of written pages. -/
theorem Exchange.written (h : s.Exchange p victim rest) (hr : (s.entry p).resident = false) :
    (s.resolved p .pageIn).written + (s.entry victim).dirty.toNat = s.written := by
  have hne : p ≠ victim := by
    rintro rfl
    rw [h.resident] at hr
    cases hr
  have hp : (s.unloaded victim).cell p = s.cell p := by
    rw [cell_unloaded, Function.update_of_ne hne]
  have hcell := h.cell
  rw [← cell_unloaded, ← hp] at hcell
  rw [written_of_load hcell]
  exact written_unloaded s victim

/-- What a step can add to the counts, and what it makes of the number of written pages. -/
inductive Charged (s t : Memory) : Prop
  /-- Ticks are counted at most. -/
  | free (ticks : Nat) (hticks : s.stats.ticks ≤ ticks)
      (stats : t.stats = { s.stats with ticks }) (written : t.written = s.written)
  /-- A fault raises the rights of a page, which may count as written from then on. -/
  | granted (stats : t.stats = { s.stats with faults := s.stats.faults + 1 })
      (written : t.written ≤ s.written + 1)
  /-- A fault loads a page that there is room for. -/
  | loaded (room : s.stats.resident < s.budget)
      (stats : t.stats =
        { s.stats with
          faults := s.stats.faults + 1, loads := s.stats.loads + 1
          resident := s.stats.resident + 1 })
      (written : t.written = s.written)
  /-- A fault loads a page after another one left, which is flushed if it was written. -/
  | exchanged (flushed : Nat) (hflushed : flushed ≤ 1) (full : s.stats.resident = s.budget)
      (stats : t.stats =
        { s.stats with
          faults := s.stats.faults + 1, loads := s.stats.loads + 1
          evictions := s.stats.evictions + 1, flushes := s.stats.flushes + flushed })
      (written : t.written + flushed = s.written)

/-- A fault on an absent page is charged with a load, and with an eviction if there is no room. -/
theorem Sound.charged_pageIn (h : s.Sound) (hr : (s.entry p).resident = false) :
    Charged s (s.resolved p .pageIn) := by
  rcases h.pageIn_cases hr with hdirect | ⟨victim, rest, hexchange⟩
  · apply Charged.loaded hdirect.room
    · rw [stats, hdirect.counters, hdirect.count]
      rfl
    · exact written_of_load hdirect.cell
  · apply Charged.exchanged (s.entry victim).dirty.toNat (Bool.toNat_le _) hexchange.full
    · rw [stats, hexchange.counters, hexchange.count]
      rfl
    · exact hexchange.written hr

/-- Whatever happens while nothing is refused, the counts change in one of these ways. -/
theorem Sound.charged (h : s.Sound) (hn : Next s t) : Charged s t := by
  cases hn with
  | same => exact .free _ (Nat.le_refl _) rfl rfl
  | @resolved p code kind hk =>
    rcases resident_of_classify hk with ⟨rfl, hr⟩ | ⟨rfl, -, -⟩ | ⟨rfl, -, -⟩
    · exact h.charged_pageIn hr
    · have hupdate := written_of_update (cell_grantRead s p)
      apply Charged.granted rfl
      simp only [Cell.setAccessed, Cell.withRights, Entry.withPermission, entry_cell] at hupdate
      omega
    · have hupdate := written_of_update (cell_grantWrite s p)
      apply Charged.granted rfl
      simp only [Cell.setAccessed, Cell.setDirty, Bool.toNat_true] at hupdate
      omega
  | @ticked host hh =>
    have hw := h.withdrawn_tickPass host
    apply Charged.free (s.counters.ticks + 1) (Nat.le_add_right ..)
    · change ({ (s.tickPass host).state.counters with
        resident := (s.tickPass host).state.table.residentCount } : Stats) = _
      rw [hw.counters, hw.count]
      rfl
    · exact written_of_dirty_eq (h.dirty_ticked host)
  | allocated n => exact .free _ (Nat.le_refl _) rfl rfl
  | @stored p hp i b =>
    have hupdate := written_of_update (cell_stored s p i b)
    apply Charged.free s.stats.ticks (Nat.le_refl _)
    · rfl
    · simp only [Cell.store, entry_cell] at hupdate
      omega

/-- Nothing that happens while nothing is refused changes the budget. -/
theorem Sound.budget_next (h : s.Sound) (hn : Next s t) : t.budget = s.budget := by
  cases hn with
  | same => rfl
  | resolved hk => exact budget_resolved ..
  | ticked hh => exact h.budget_ticked _
  | allocated n => rfl
  | stored hp i b => rfl

/-- No count falls, and the number of resident pages does not fall either. -/
theorem Charged.toList_le (h : Charged s t) :
    List.Forall₂ (· ≤ ·) s.stats.toList t.stats.toList := by
  cases h with
  | free ticks hticks hstats hwritten =>
    rw [hstats]
    simpa [Stats.toList] using hticks
  | granted hstats hwritten =>
    rw [hstats]
    simp [Stats.toList]
  | loaded hroom hstats hwritten =>
    rw [hstats]
    simp [Stats.toList]
  | exchanged flushed hflushed hused hstats hwritten =>
    rw [hstats]
    simp [Stats.toList]

/-! ## The balance -/

/-- The counts add up. -/
structure Balanced (s : Memory) : Prop where
  /-- Every page that was loaded is resident or was evicted. -/
  loads : s.stats.loads = s.stats.evictions + s.stats.resident
  /-- Pages are evicted only while the budget is used up, and it stays used up. -/
  full : s.stats.evictions = 0 ∨ s.stats.resident = s.budget
  /-- Only pages that leave are flushed. -/
  flushes : s.stats.flushes ≤ s.stats.evictions
  /-- Every load and every page that counts as written, or did when it left, took a fault. -/
  faults : s.stats.loads + s.stats.flushes + s.written ≤ s.stats.faults

namespace Balanced

/-- Memory that was just set up has nothing to account for. -/
theorem of_fresh (h : Fresh host config s) : s.Balanced := by
  have hstats : s.stats = {} := by
    rw [stats, h.counters, h.table]
    rfl
  have hwritten : s.written = 0 := by
    simp only [written, List.length_eq_zero_iff, List.eq_nil_iff_forall_not_mem]
    intro q hq
    have hdirty : (s.entry q).dirty = true := PageMap.mem_pagesWhere.mp hq
    rw [h.entry] at hdirty
    cases hdirty
  constructor <;> simp [hstats, hwritten]

/-- What is charged keeps the balance. -/
theorem charged (hs : s.Balanced) (h : Charged s t) (hbudget : t.budget = s.budget) :
    t.Balanced := by
  obtain ⟨hloads, hfull, hflushes, hfaults⟩ := hs
  cases h with
  | free ticks hticks hstats hwritten =>
    constructor
    · simpa only [hstats] using hloads
    · simpa only [hstats, hbudget] using hfull
    · simpa only [hstats] using hflushes
    · simpa only [hstats, hwritten] using hfaults
  | granted hstats hwritten =>
    constructor
    · simpa only [hstats] using hloads
    · simpa only [hstats, hbudget] using hfull
    · simpa only [hstats] using hflushes
    · simp only [hstats]
      omega
  | loaded hroom hstats hwritten =>
    constructor
    · simp only [hstats]
      omega
    · -- where there is room, nothing was evicted yet
      simp only [hstats]
      omega
    · simpa only [hstats] using hflushes
    · simp only [hstats, hwritten]
      omega
  | exchanged flushed hflushed hused hstats hwritten =>
    constructor
    · simp only [hstats]
      omega
    · simp only [hstats, hbudget]
      exact Or.inr hused
    · simp only [hstats]
      omega
    · simp only [hstats]
      omega

/-- As many pages are resident as were loaded, up to the budget. -/
theorem resident_eq (hs : s.Balanced) (hbounded : s.stats.resident ≤ s.budget) :
    s.stats.resident = min s.stats.loads s.budget := by
  have hloads := hs.loads
  rcases hs.full with hnone | hfull <;> omega

end Balanced

/-- As long as nothing is refused, the counts add up. -/
theorem Sound.balanced_lived (h : s.Sound) (hs : s.Balanced) {incidents : List Incident}
    (hall : ∀ x ∈ incidents, x.Obliged) : (s.lived incidents).Balanced :=
  (h.lived_keeps hs (fun _ _ ht hbalanced hn => hbalanced.charged (ht.charged hn)
    (ht.budget_next hn)) hall).2

/-- As long as nothing is refused, whatever the policy: every page that was loaded is resident or
was evicted, as many pages are resident as were loaded, up to the budget, no more pages were flushed
than evicted, loads and flushes together took as many faults at least, and nothing that happens next
makes a count or the number of resident pages smaller. -/
theorem stats_lived_of_new {s₀ : Memory} {es : Array Event}
    (hnew : (new host₀ config).Yields () s₀ () es) {incidents : List Incident}
    (hall : ∀ x ∈ incidents, x.Obliged) :
    (s₀.lived incidents).stats.loads =
        (s₀.lived incidents).stats.evictions + (s₀.lived incidents).stats.resident ∧
      (s₀.lived incidents).stats.resident = min (s₀.lived incidents).stats.loads config.budget ∧
      (s₀.lived incidents).stats.flushes ≤ (s₀.lived incidents).stats.evictions ∧
      (s₀.lived incidents).stats.loads + (s₀.lived incidents).stats.flushes ≤
        (s₀.lived incidents).stats.faults ∧
      ∀ x : Incident, x.Obliged → List.Forall₂ (· ≤ ·) (s₀.lived incidents).stats.toList
        ((s₀.lived incidents).meet x).stats.toList := by
  obtain ⟨hfresh, hc⟩ := fresh_of_new hnew
  obtain ⟨hrobust, hbudget⟩ := robust_lived_of_new hnew incidents
  have hsound := (hfresh.sound hc).lived hall
  have hbalanced := (hfresh.sound hc).balanced_lived (.of_fresh hfresh) hall
  have hfaults := hbalanced.faults
  refine ⟨hbalanced.loads, ?_, hbalanced.flushes, by omega, ?_⟩
  · rw [← hbudget]
    exact hbalanced.resident_eq hrobust.bounded
  · intro x hx
    exact (hsound.charged (hsound.next_meet hx)).toList_le

/-- With room for one page, the second page that is loaded makes the first one leave. -/
theorem Fresh.exchange_of_budget_one (h : Fresh host config s) (hc : config.validate = .ok ())
    (hone : config.budget = 1) {q : Page} (hne : q ≠ p) :
    s.Admission p ∧ (s.resolved p .pageIn).Sound ∧
      ((s.resolved p .pageIn).entry q).resident = false ∧
      ∃ rest, (s.resolved p .pageIn).Exchange q p rest := by
  have hsound := h.sound hc
  have hr : (s.entry p).resident = false := by
    rw [h.entry]
    rfl
  have hroom : s.table.residentCount < s.budget := by
    rw [h.table, h.budget, hone]
    decide
  have hfirst := hsound.admission hr hroom
  have hloaded := hsound.resolved (classify_of_absent hr .notMapped)
  have habsent : ((s.resolved p .pageIn).entry q).resident = false := by
    rw [entry_of_update hfirst.cell, if_neg hne, h.entry]
    rfl
  have hfull : (s.resolved p .pageIn).budget ≤ (s.resolved p .pageIn).table.residentCount := by
    rw [budget_resolved, hfirst.count, h.table, h.budget, hone]
    exact Nat.le_add_left 1 _
  obtain ⟨victim, rest, hsecond⟩ := hloaded.exists_exchange habsent hfull
  -- the page that was loaded first is the only one that can leave
  have hvictim : victim = p := by
    by_contra hv
    have hresident := hsecond.resident
    rw [entry_of_update hfirst.cell, if_neg hv, h.entry] at hresident
    cases hresident
  rw [hvictim] at hsecond
  exact ⟨hfirst, hloaded, habsent, rest, hsecond⟩

/-- Two pages are loaded one after the other where there is room for one. -/
theorem stats_lived_of_new_two_pages : ∃ s₀ es s,
    (new .willing { budget := 1 }).Yields () s₀ () es ∧
      s₀.lived [.action .willing (.fault 0 .notMapped), .action .willing (.fault 1 .notMapped)] = s ∧
      s.stats.loads = 2 ∧ s.stats.evictions = 1 ∧ s.stats.resident = 1 ∧ s.stats.flushes ≤ 1 ∧
      List.Forall₂ (· ≤ ·) s.stats.toList (s.meet (.action .willing .tick)).stats.toList := by
  have hvalid : ({ budget := 1 } : Config).validate = .ok () := rfl
  obtain ⟨s₀, es, hnew, hfresh⟩ := exists_fresh Host.ready_willing hvalid ()
  have hh : Host.willing.Obliging := Host.ready_willing.toObliging
  obtain ⟨hfirst, h₁, habsent, rest, hsecond⟩ :=
    hfresh.exchange_of_budget_one hvalid rfl (p := 0) (q := 1) (by decide)
  have hk₀ : FaultKind.classify 0 (s₀.entry 0) .notMapped = .ok .pageIn :=
    classify_of_absent (by rw [hfresh.entry]; rfl) .notMapped
  have hk₁ := classify_of_absent habsent .notMapped
  obtain ⟨s, hs⟩ : ∃ s, s₀.lived [.action .willing (.fault 0 .notMapped),
      .action .willing (.fault 1 .notMapped)] = s := ⟨_, rfl⟩
  have hlived : s = (s₀.resolved 0 .pageIn).resolved 1 .pageIn := by
    rw [← hs]
    simp only [lived, List.foldl_cons, List.foldl_nil, meet]
    rw [(hfresh.sound hvalid).perform_fault hh hk₀, h₁.perform_fault hh hk₁]
  have hloads : s.stats.loads = 2 := by
    rw [hlived, stats, hsecond.counters, hfirst.counters, hfresh.counters]
  have hall : ∀ x ∈ [Incident.action .willing (.fault 0 .notMapped),
      .action .willing (.fault 1 .notMapped)], x.Obliged := by
    simp [Incident.Obliged, hh]
  obtain ⟨hsum, hresident, hflushes, -, hgrow⟩ := stats_lived_of_new hnew hall
  rw [hs] at hsum hresident hflushes hgrow
  rw [hloads] at hsum hresident
  have hone : s.stats.resident = 1 := hresident
  have hleft : s.stats.evictions = 1 := by omega
  rw [hleft] at hflushes
  exact ⟨s₀, es, s, hnew, hs, hloads, hleft, hone, hflushes, hgrow (.action .willing .tick) hh⟩

end DemandPaging.Memory
