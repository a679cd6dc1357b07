import DemandPaging.Proofs.Memory.History
import DemandPaging.Proofs.Memory.Shows

/-!
# What a fault changes

A fault that is resolved concerns its own page and at most one other: a page that is missing takes
the place of a resident one where the budget is used up, and only there. The page that leaves is
never the faulting one, because it was resident. Its slot is the only one that can be written, and it
is written with the bytes in memory exactly if the page counts as written. Everything else stays, the
order of the pages that the policy holds included, unless the policy draws.
-/

namespace DemandPaging

open Step

/-- The slot of a page that leaves gets the bytes in memory if they were written. -/
theorem Cell.slot_unload (c : Cell) : c.unload.slot = if c.entry.dirty then c.image else c.slot := by
  unfold unload
  split <;> rfl

namespace Memory

variable {host host₀ : Host} {config : Config} {s t : Memory} {p : Page} {code : FaultCode}
  {kind : FaultKind}

/-- What a fault on page `p` made of memory `s`: only `p` and the page that is leaving, if one is, are
concerned. -/
structure Footprint (s : Memory) (p : Page) (leaving : Option Page) (t : Memory) : Prop where
  /-- The page is resident. -/
  resident : (t.entry p).resident = true
  /-- The memory of the page holds the bytes that the page stood for. -/
  bytes : t.mapping.image p = s.contents p
  /-- The slot of the page is the same. -/
  slot : t.swap.slot p = s.swap.slot p
  /-- The page that is leaving is another one and was resident. -/
  other : ∀ victim ∈ leaving, victim ≠ p ∧ (s.entry victim).resident = true
  /-- Nothing is recorded of the page that is leaving. -/
  gone : ∀ victim ∈ leaving, t.entry victim = .empty
  /-- Its memory was saved if it counted as written. -/
  saved : ∀ victim ∈ leaving, t.swap.slot victim =
    if (s.entry victim).dirty then s.mapping.image victim else s.swap.slot victim
  /-- Entry, rights, memory and slot of every other page are the same. -/
  untouched : ∀ q, q ≠ p → q ∉ leaving → t.cell q = s.cell q
  /-- The policy holds the page, and the other pages that it held before but for the one that is
  leaving. -/
  held : ∀ q, q ∈ t.policy.tracked ↔ q = p ∨ (q ∈ s.policy.tracked ∧ q ∉ leaving)
  /-- A policy that does not draw keeps them in order and puts a page that was missing behind them. -/
  order : s.policy.kind ≠ .random → t.policy.tracked =
    s.policy.tracked.filter (· ∉ leaving) ++ if (s.entry p).resident then [] else [p]
  /-- The policy does not notice a fault on a resident page. -/
  policy : (s.entry p).resident = true → t.policy = s.policy
  /-- The range and the bytes of it that are in use are the same. -/
  extent : t.extent = s.extent

/-- The footprint, read off the cells and off the pages that the policy holds. -/
theorem Footprint.of_cells {leaving : Option Page} {c : Cell} (hp : t.cell p = c)
    (hr : c.entry.resident = true) (hbytes : c.image = s.contents p)
    (hslot : c.slot = (s.cell p).slot)
    (hleaving : ∀ victim ∈ leaving, victim ≠ p ∧ (s.entry victim).resident = true ∧
      t.cell victim = (s.cell victim).unload)
    (huntouched : ∀ q, q ≠ p → q ∉ leaving → t.cell q = s.cell q)
    (hheld : ∀ q, q ∈ t.policy.tracked ↔ q = p ∨ (q ∈ s.policy.tracked ∧ q ∉ leaving))
    (horder : s.policy.kind ≠ .random → t.policy.tracked =
      s.policy.tracked.filter (· ∉ leaving) ++ if (s.entry p).resident then [] else [p])
    (hpolicy : (s.entry p).resident = true → t.policy = s.policy) (hextent : t.extent = s.extent) :
    Footprint s p leaving t where
  resident := by rw [← entry_cell, hp, hr]
  bytes := by rw [← image_cell, hp, hbytes]
  slot := by
    change (t.cell p).slot = (s.cell p).slot
    rw [hp, hslot]
  other victim hv := ⟨(hleaving victim hv).1, (hleaving victim hv).2.1⟩
  gone victim hv := by
    rw [← entry_cell, (hleaving victim hv).2.2]
    rfl
  saved victim hv := by
    change (t.cell victim).slot = _
    rw [(hleaving victim hv).2.2, Cell.slot_unload]
    rfl
  untouched := huntouched
  held := hheld
  order := horder
  policy := hpolicy
  extent := hextent

/-- A fault on a resident page changes the rights and the marks of that page. -/
theorem Sound.footprint_grant (h : s.Sound) (hr : (s.entry p).resident = true)
    (hkind : kind = .grantRead ∨ kind = .grantWrite) : Footprint s p none (s.resolved p kind) := by
  have hmem : p ∈ s.policy.tracked := (h.mem_tracked p).mpr hr
  have hpolicy : (s.resolved p kind).policy = s.policy := by
    rcases hkind with rfl | rfl <;> rfl
  have hcell : ∃ c, (s.resolved p kind).cell = Function.update s.cell p c ∧
      c.entry.resident = true ∧ c.image = (s.cell p).image ∧ c.slot = (s.cell p).slot := by
    rcases hkind with rfl | rfl
    · exact ⟨_, cell_grantRead s p, hr, Cell.image_withRights .., rfl⟩
    · exact ⟨_, cell_grantWrite s p, hr, Cell.image_withRights .., rfl⟩
  obtain ⟨c, hcell, hresident, himage, hslot⟩ := hcell
  apply Footprint.of_cells (c := c)
  · rw [hcell, Function.update_self]
  · exact hresident
  · rw [himage]
    exact (Cell.contents_of_resident hr).symm
  · exact hslot
  · simp
  · intro q hq _
    rw [hcell, Function.update_of_ne hq]
  · intro q
    rw [hpolicy]
    constructor
    · exact fun hq => Or.inr ⟨hq, by simp⟩
    · rintro (rfl | ⟨hq, -⟩)
      · exact hmem
      · exact hq
  · intro _
    simp [hpolicy, hr]
  · exact fun _ => hpolicy
  · exact extent_resolved s p kind

/-- Where there is room, a page is loaded and no other one concerned. -/
theorem Admission.footprint (hdirect : s.Admission p) (hr : (s.entry p).resident = false) :
    Footprint s p none (s.resolved p .pageIn) := by
  apply Footprint.of_cells (c := (s.cell p).load.setAccessed true)
  · rw [hdirect.cell, Function.update_self]
  · rfl
  · exact (Cell.contents_of_absent hr).symm
  · rfl
  · simp
  · intro q hq _
    rw [hdirect.cell, Function.update_of_ne hq]
  · intro q
    simp [hdirect.policy, or_comm]
  · intro _
    simp [hdirect.policy, hr]
  · simp [hr]
  · exact extent_resolved s p .pageIn

/-- Where the budget is used up, the page that the policy chooses leaves. -/
theorem Exchange.footprint {victim : Page} {rest : Policy} (h : s.Sound)
    (hexchange : s.Exchange p victim rest) (hr : (s.entry p).resident = false) :
    Footprint s p (some victim) (s.resolved p .pageIn) := by
  have hne : victim ≠ p := by
    rintro rfl
    rw [hexchange.resident] at hr
    cases hr
  have hperm := Policy.perm_of_evict hexchange.evict
  obtain ⟨hvictim, -⟩ := List.nodup_cons.mp (hperm.nodup_iff.mp h.nodup)
  apply Footprint.of_cells (c := (s.cell p).load.setAccessed true)
  · rw [hexchange.cell, Function.update_self]
  · rfl
  · exact (Cell.contents_of_absent hr).symm
  · rfl
  · intro page hpage
    obtain rfl := Option.mem_some_iff.mp hpage
    refine ⟨hne, hexchange.resident, ?_⟩
    rw [hexchange.cell, Function.update_of_ne hne, Function.update_self]
  · intro q hq hv
    have hqv : q ≠ victim := by
      rintro rfl
      exact hv rfl
    rw [hexchange.cell, Function.update_of_ne hq, Function.update_of_ne hqv]
  · intro q
    rw [hexchange.policy, Policy.tracked_takeIn, List.mem_append, hperm.mem_iff]
    by_cases hq : q = victim
    · subst hq
      simp [hvictim, hne]
    · simp [hq, Ne.symm hq, or_comm]
  · intro hkind
    have hkept : (victim :: rest.tracked).filter (· ∉ some victim) = rest.tracked := by
      rw [List.filter_cons_of_neg (by simp), List.filter_eq_self]
      intro q hq
      have hqv : victim ≠ q := by
        rintro rfl
        exact hvictim hq
      simpa using hqv
    rw [Policy.tracked_of_evict hkind hexchange.evict, hkept, hexchange.policy]
    simp [hr]
  · simp [hr]
  · exact extent_resolved s p .pageIn

/-- Whatever a fault makes of sound memory, a page leaves exactly if the faulting page is missing and
the budget is used up. -/
theorem Sound.exists_footprint (h : s.Sound) (hk : FaultKind.classify p (s.entry p) code = .ok kind) :
    ∃ leaving, Footprint s p leaving (s.resolved p kind) ∧
      (leaving.isSome = true ↔
        (s.entry p).resident = false ∧ s.table.residentPages.length = s.budget) := by
  rw [h.length_residentPages]
  rcases resident_of_classify hk with ⟨rfl, hr⟩ | ⟨rfl, hr, -⟩ | ⟨rfl, hr, -⟩
  · rcases h.pageIn_cases hr with hdirect | ⟨victim, rest, hexchange⟩
    · have hroom := hdirect.room
      exact ⟨none, hdirect.footprint hr, by simp; omega⟩
    · exact ⟨some victim, hexchange.footprint h hr, by simp [hr, hexchange.full]⟩
  · exact ⟨none, h.footprint_grant hr (Or.inl rfl), by simp [hr]⟩
  · exact ⟨none, h.footprint_grant hr (Or.inr rfl), by simp [hr]⟩

/-- Memory was set up, any incidents happened while the host refused nothing, and a fault on page `p`
runs to its end. A page leaves exactly if `p` was missing and as many pages were resident as the
budget admits. It is another page than `p` and was resident; afterwards nothing is recorded of it, and
its slot was written, with its memory, exactly if it counted as written. Page `p` is resident; its slot
is the same. Nothing at all changes about any other page. The policy holds the same pages as before
but for these two, in the same order unless it draws. No memory is allocated. -/
theorem footprint_of_handleFault {s₀ : Memory} {es : Array Event}
    (hnew : (new host₀ config).Yields () s₀ () es) {incidents : List Incident}
    (hall : ∀ x ∈ incidents, x.Obliged) (hs : s₀.lived incidents = s) {journal : Array Event}
    {t : Traced Memory} (hrun : handleFault host p code ⟨s, journal⟩ = .ok kind t) :
    ∃ leaving, Footprint s p leaving t.state ∧
      (leaving.isSome = true ↔
        (s.entry p).resident = false ∧ s.table.residentPages.length = config.budget) := by
  obtain ⟨hfresh, hvalid⟩ := fresh_of_new hnew
  have h : s.Sound := hs ▸ (hfresh.sound hvalid).lived hall
  have hbudget : s.budget = config.budget := hs ▸ (robust_lived_of_new hnew incidents).2
  obtain ⟨hk, hstate, -⟩ := (h.robust.ensures_handleFault p code).of_ok hrun
  rw [hstate, ← hbudget]
  exact h.exists_footprint hk

/-- A written page leaves for another one, and its slot gets the byte that was stored. -/
theorem footprint_of_handleFault_written_page : ∃ s₀ es s kind t,
    (new .willing { budget := 1 }).Yields () s₀ () es ∧
      s₀.lived [.action .willing (.fault 0 .notMapped), .action .willing (.fault 0 .accessDenied),
        .store 0 5 7] = s ∧
      handleFault .willing 1 .notMapped ⟨s, #[]⟩ = .ok kind t ∧
      (t.state.entry 1).resident = true ∧ t.state.entry 0 = .empty ∧
      (t.state.swap.slot 0).get 5 = 7 ∧ ∀ q, q ∈ t.state.policy.tracked ↔ q = 1 := by
  have hvalid : ({ budget := 1 } : Config).validate = .ok () := rfl
  obtain ⟨s₀, es, hnew, hfresh⟩ := exists_fresh Host.ready_willing hvalid ()
  have hh : Host.willing.Obliging := Host.ready_willing.toObliging
  obtain ⟨s, hs⟩ : ∃ s, s₀.lived [.action .willing (.fault 0 .notMapped),
      .action .willing (.fault 0 .accessDenied), .store 0 5 7] = s := ⟨_, rfl⟩
  obtain ⟨h, -, hperm, htracked, hbyte⟩ := hfresh.lived_written_page hvalid rfl hh hs
  have hother : (s.entry 1).resident = false := by
    rw [← Bool.not_eq_true, ← h.mem_tracked, htracked]
    decide
  have hrun := yields_handleFault hh h (classify_of_absent hother .notMapped) #[]
  obtain ⟨leaving, hfootprint, hleaves⟩ :=
    footprint_of_handleFault hnew (by simp [Incident.Obliged, hh]) hs hrun
  -- page 0 is the only one that can leave
  obtain ⟨victim, rfl⟩ := Option.isSome_iff_exists.mp (hleaves.mpr ⟨hother, by
    rw [h.length_residentPages, h.count, htracked]
    rfl⟩)
  obtain ⟨-, hvictim⟩ := hfootprint.other victim rfl
  obtain rfl : victim = 0 := by simpa [← h.mem_tracked, htracked] using hvictim
  refine ⟨s₀, es, s, _, _, hnew, hs, hrun, hfootprint.resident, hfootprint.gone 0 rfl, ?_, ?_⟩
  · have hdirty : (s.entry 0).dirty = true := (h.cell 0).dirty_of_readWrite hperm
    have hcontents : s.contents 0 = s.mapping.image 0 := Cell.contents_of_resident (c := s.cell 0) hvictim
    rw [hfootprint.saved 0 rfl, if_pos hdirty, ← hcontents, hbyte]
  · intro q
    rw [hfootprint.held, htracked]
    simp [eq_comm]

end Memory

end DemandPaging
