import DemandPaging.Proofs.Memory.Effect

/-!
# The invariant of managed memory

`Memory.Sound` holds of fresh memory and is kept by whatever runs on a host
that refuses nothing. It ties the parts of the state together: every cell is
sound, the policy holds each resident page once and no other page, and the
stored number of resident pages is their number, which the budget bounds.
-/

namespace DemandPaging.Memory

variable {host : Host} {s t : Memory} {p q : Page}

/-- The states that arise while the host refuses nothing. -/
structure Sound (s : Memory) : Prop where
  /-- Entry, frame and slot of every page belong together. -/
  cell : ∀ p, (s.cell p).Sound
  /-- The policy holds no page twice. -/
  nodup : s.policy.tracked.Nodup
  /-- The policy holds the resident pages. -/
  mem_tracked : ∀ p, p ∈ s.policy.tracked ↔ (s.entry p).resident = true
  /-- The stored number of resident pages is right. -/
  count : s.table.residentCount = s.policy.tracked.length
  /-- The budget is kept. -/
  bounded : s.policy.tracked.length ≤ s.budget
  /-- The budget admits a page. -/
  positive : 0 < s.budget

/-- Sound cells stay sound when one of them is replaced by a sound one. -/
private theorem sound_cell_of_update (h : ∀ q, (s.cell q).Sound) {c : Cell} (hc : c.Sound)
    (hcell : t.cell = Function.update s.cell p c) (q : Page) : (t.cell q).Sound := by
  rw [hcell]
  by_cases hq : q = p
  · subst hq
    rw [Function.update_self]
    exact hc
  · rw [Function.update_of_ne hq]
    exact h q

namespace Sound

/-- Every page has a mapping, with the rights that are recorded. -/
theorem frame_eq (h : s.Sound) (p : Page) :
    s.mapping.frame p = some ⟨(s.entry p).permission, s.mapping.image p⟩ :=
  (h.cell p).frame_eq

/-- The entry of a page that is not resident records nothing. -/
theorem entry_eq_empty (h : s.Sound) (hr : (s.entry p).resident = false) : s.entry p = .empty :=
  (h.cell p).entry_eq_empty hr

theorem isSome_frame (h : s.Sound) (p : Page) : (s.mapping.frame p).isSome = true := by
  rw [h.frame_eq p]
  rfl

/-- A page that the policy can let go of is resident. -/
theorem resident_of_perm (h : s.Sound) {rest : List Page}
    (hperm : s.policy.tracked.Perm (p :: rest)) : (s.entry p).resident = true :=
  (h.mem_tracked p).mp (hperm.mem_iff.mpr (List.mem_cons_self ..))

/-- The policy does not hold a page that is not resident. -/
theorem not_mem_tracked (h : s.Sound) (hr : (s.entry p).resident = false) :
    p ∉ s.policy.tracked := by
  rw [h.mem_tracked, hr]
  exact Bool.false_ne_true

/-- With room for one page, a resident page is the only one that the policy holds. -/
theorem tracked_eq_singleton (h : s.Sound) (hb : s.budget = 1)
    (hr : (s.entry p).resident = true) : s.policy.tracked = [p] := by
  have hp : p ∈ s.policy.tracked := (h.mem_tracked p).mpr hr
  have hpos := List.length_pos_of_mem hp
  have hbounded := h.bounded
  obtain ⟨q, hq⟩ := List.length_eq_one_iff.mp (show s.policy.tracked.length = 1 by omega)
  rw [hq, List.mem_singleton] at hp
  rw [hq, hp]

/-- The resident pages in ascending order are as many as the stored number says. -/
theorem length_residentPages (h : s.Sound) :
    s.table.residentPages.length = s.table.residentCount := by
  have hnodup : s.table.residentPages.Nodup := PageMap.nodup_pagesWhere ..
  have hperm : s.table.residentPages.Perm s.policy.tracked := by
    rw [List.perm_ext_iff_of_nodup hnodup h.nodup]
    intro p
    rw [h.mem_tracked]
    exact PageMap.mem_pagesWhere
  rw [hperm.length_eq, h.count]

/-- A change that keeps the resident pages keeps the invariant as far as the cells stay sound. -/
theorem of_same_residents (h : s.Sound) (hcell : ∀ q, (t.cell q).Sound)
    (hresident : ∀ q, (t.entry q).resident = (s.entry q).resident)
    (hpolicy : t.policy.tracked.Perm s.policy.tracked)
    (hcount : t.table.residentCount = s.table.residentCount) (hbudget : t.budget = s.budget) :
    t.Sound where
  cell := hcell
  nodup := hpolicy.nodup_iff.mpr h.nodup
  mem_tracked q := by rw [hpolicy.mem_iff, h.mem_tracked, hresident]
  count := by rw [hcount, h.count, hpolicy.length_eq]
  bounded := by
    rw [hpolicy.length_eq, hbudget]
    exact h.bounded
  positive := hbudget ▸ h.positive

/-- The same for a change at one page that stays resident or stays absent. -/
theorem of_update (h : s.Sound) {c : Cell} (hcell : t.cell = Function.update s.cell p c)
    (hc : c.Sound) (hr : c.entry.resident = (s.entry p).resident) (hpolicy : t.policy = s.policy)
    (hcount : t.table.residentCount = s.table.residentCount) (hbudget : t.budget = s.budget) :
    t.Sound := by
  refine h.of_same_residents (sound_cell_of_update h.cell hc hcell) (fun q => ?_)
    (hpolicy ▸ .refl _) hcount hbudget
  rw [← entry_cell, hcell]
  by_cases hq : q = p
  · subst hq
    rw [Function.update_self]
    exact hr
  · rw [Function.update_of_ne hq]
    rfl

/-- A step that touches neither cells nor policy keeps the invariant. -/
theorem of_same_cells (h : s.Sound) (hcell : t.cell = s.cell) (hpolicy : t.policy = s.policy)
    (hcount : t.table.residentCount = s.table.residentCount) (hbudget : t.budget = s.budget) :
    t.Sound := by
  refine h.of_same_residents (fun q => ?_) (fun q => ?_) (hpolicy ▸ .refl _) hcount hbudget
  · rw [hcell]
    exact h.cell q
  · rw [← entry_cell, hcell]
    rfl

/-- A resident page that is unloaded and that the policy has let go of leaves sound memory, with
room for another page. -/
theorem unloaded (h : s.Sound) {policy : Policy}
    (hperm : s.policy.tracked.Perm (p :: policy.tracked)) :
    ({ s.unloaded p with policy } : Memory).Sound ∧
      (s.unloaded p).table.residentCount < s.budget := by
  have hr := h.resident_of_perm hperm
  obtain ⟨hp, hnodup⟩ := List.nodup_cons.mp (hperm.nodup_iff.mp h.nodup)
  have hlength : s.policy.tracked.length = policy.tracked.length + 1 := hperm.length_eq
  have hcount : (s.unloaded p).table.residentCount = policy.tracked.length := by
    rw [residentCount_unloaded hr, h.count, hlength, Nat.add_sub_cancel]
  have hbounded := h.bounded
  refine ⟨⟨?_, hnodup, ?_, hcount, ?_, ?_⟩, by omega⟩
  · exact sound_cell_of_update h.cell (Cell.sound_unload _) (cell_unloaded s p)
  · intro q
    change q ∈ policy.tracked ↔ ((s.unloaded p).cell q).entry.resident = true
    rw [cell_unloaded]
    by_cases hq : q = p
    · subst hq
      rw [Function.update_self]
      exact iff_of_false hp Bool.false_ne_true
    · rw [Function.update_of_ne hq, entry_cell, ← h.mem_tracked, hperm.mem_iff, List.mem_cons]
      exact ⟨Or.inr, fun hm => hm.resolve_left hq⟩
  · change policy.tracked.length ≤ (s.unloaded p).budget
    rw [budget_unloaded]
    omega
  · exact (budget_unloaded s p).symm ▸ h.positive

/-- An absent page that is loaded, used and taken in by the policy leaves sound memory. -/
theorem loaded (h : s.Sound) (hr : (s.entry p).resident = false)
    (hroom : s.table.residentCount < s.budget) :
    ({ (s.loaded p).markAccessed p true with policy := s.policy.takeIn p } : Memory).Sound := by
  have hcell := cell_loaded_used s p
  have hp := h.not_mem_tracked hr
  have hcount : (s.loaded p).table.residentCount = s.policy.tracked.length + 1 := by
    rw [residentCount_loaded hr, h.count]
  have hlength := h.count
  refine ⟨?_, ?_, ?_, ?_, ?_, h.positive⟩
  · exact sound_cell_of_update h.cell ((h.cell p).load hr) hcell
  · rw [Policy.tracked_takeIn]
    exact (List.perm_append_singleton p _).nodup_iff.mpr (List.nodup_cons.mpr ⟨hp, h.nodup⟩)
  · intro q
    change q ∈ (s.policy.takeIn p).tracked ↔
      (((s.loaded p).markAccessed p true).cell q).entry.resident = true
    rw [hcell, Policy.tracked_takeIn, List.mem_append, List.mem_singleton]
    by_cases hq : q = p
    · subst hq
      rw [Function.update_self]
      exact iff_of_true (Or.inr rfl) rfl
    · rw [Function.update_of_ne hq, entry_cell, ← h.mem_tracked]
      exact ⟨fun hm => hm.resolve_right hq, Or.inl⟩
  · rw [Policy.tracked_takeIn, List.length_append, List.length_singleton]
    exact hcount
  · rw [Policy.tracked_takeIn, List.length_append, List.length_singleton]
    change s.policy.tracked.length + 1 ≤ s.budget
    omega

end Sound

end DemandPaging.Memory
