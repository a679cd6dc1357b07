import DemandPaging.Proofs.Memory.Fresh
import DemandPaging.Proofs.Memory.Request
import DemandPaging.Proofs.Policy.Replay

/-!
# Managed memory and the replay of its accesses

The replay records every access, managed memory only those that fault. `Mirrors`
says that the two stand at the same place all the same: same policy, same
resident pages, same used pages, same loads and victims. A fault is mirrored by
an access of the replay. An access that does not fault finds its page readable,
hence resident and used, where the replay has nothing to change either; for the
same reason the second fault of a store is invisible to the replay. Since the
replay knows neither rights nor bytes, what is loaded and evicted depends on
the visited pages and the ticks alone.
-/

namespace DemandPaging

open Step

namespace Event

/-- The page that leaves. -/
def victim? : Event → Option Page
  | evicting victim _ => some victim
  | _ => none

/-- The page that is loaded. -/
def loaded? : Event → Option Page
  | mapped p _ => some p
  | _ => none

/-- The pages that leave in the course of a journal, in order. -/
def evictedPages (journal : Array Event) : Array Page := journal.filterMap victim?

/-- The pages that are loaded in the course of a journal, in order. -/
def loadedPages (journal : Array Event) : Array Page := journal.filterMap loaded?

theorem evictedPages_append (es es' : Array Event) :
    evictedPages (es ++ es') = evictedPages es ++ evictedPages es' :=
  Array.filterMap_append Array.size_append

/-- Reports of which none is about a page that leaves add nothing. -/
theorem evictedPages_append_of_eq_empty {es es' : Array Event} (h : evictedPages es' = #[]) :
    evictedPages (es ++ es') = evictedPages es := by
  rw [evictedPages_append, h, Array.append_empty]

theorem loadedPages_append (es es' : Array Event) :
    loadedPages (es ++ es') = loadedPages es ++ loadedPages es' :=
  Array.filterMap_append Array.size_append

end Event

namespace Memory

open Event

variable {host : Host} {config : Config} {s t : Memory} {p q : Page} {r : Replay} {code : FaultCode}
  {kind : FaultKind} {journal es : Array Event}

variable {used used' : List Page} {c : Cell}

/-- The used pages after a page was used. -/
private theorem mem_used_of_update (h : ∀ q, q ∈ used ↔ (s.entry q).accessed = true)
    (hcell : t.cell = Function.update s.cell p c) (hc : c.entry.accessed = true)
    (hused : ∀ q, q ∈ used' ↔ q = p ∨ q ∈ used) (q : Page) :
    q ∈ used' ↔ (t.entry q).accessed = true := by
  rw [hused, ← entry_cell, hcell]
  by_cases hq : q = p
  · subst hq
    rw [Function.update_self]
    exact iff_of_true (Or.inl rfl) hc
  · rw [Function.update_of_ne hq, entry_cell, ← h]
    exact or_iff_right hq

/-- The used pages after the use of a page was forgotten. -/
private theorem mem_filter_of_update (h : ∀ q, q ∈ used ↔ (s.entry q).accessed = true)
    (hcell : t.cell = Function.update s.cell p c) (hc : c.entry.accessed = false) (q : Page) :
    q ∈ used.filter (· != p) ↔ (t.entry q).accessed = true := by
  rw [List.mem_filter, bne_iff_ne, ← entry_cell, hcell]
  by_cases hq : q = p
  · subst hq
    rw [Function.update_self, hc]
    exact iff_of_false (fun hand => hand.2 rfl) Bool.false_ne_true
  · rw [Function.update_of_ne hq, entry_cell, ← h]
    exact and_iff_left hq

/-- The replay `r` stands where memory stands after it reported `journal`. -/
structure Mirrors (s : Memory) (journal : Array Event) (r : Replay) : Prop where
  /-- The policies agree. -/
  policy : r.policy = s.policy
  /-- The budgets agree. -/
  budget : r.budget = s.budget
  /-- The same pages are resident. -/
  resident : r.resident.Perm s.policy.tracked
  /-- The same pages are used. -/
  accessed : ∀ p, p ∈ r.accessed ↔ (s.entry p).accessed = true
  /-- As many pages were loaded. -/
  loads : r.loads = s.counters.loads
  /-- The same pages left, in the same order. -/
  victims : r.victims = evictedPages journal

namespace Mirrors

theorem mem_resident (hm : Mirrors s journal r) (h : s.Sound) :
    p ∈ r.resident ↔ (s.entry p).resident = true := by
  rw [hm.resident.mem_iff, h.mem_tracked]

/-- Memory may change in ways that the replay does not know of. -/
theorem of_same (hm : Mirrors s journal r) (hpolicy : t.policy = s.policy)
    (hbudget : t.budget = s.budget)
    (haccessed : ∀ p, (t.entry p).accessed = (s.entry p).accessed)
    (hloads : t.counters.loads = s.counters.loads) (hes : evictedPages es = #[]) :
    Mirrors t (journal ++ es) r where
  policy := hm.policy.trans hpolicy.symm
  budget := hm.budget.trans hbudget.symm
  resident := hpolicy ▸ hm.resident
  accessed p := by rw [hm.accessed, haccessed]
  loads := hm.loads.trans hloads.symm
  victims := hm.victims.trans (evictedPages_append_of_eq_empty hes).symm

/-! ## Faults -/

/-- An eviction takes the same page from both sides. -/
theorem evicted (hm : Mirrors s journal r) (h : s.Sound) {victim : Page} {policy : Policy}
    (hperm : s.policy.tracked.Perm (victim :: policy.tracked)) (p : Page) :
    Mirrors (s.evicted victim policy) (journal ++ #[.evicting victim p, .unmapped victim])
      { r with
        policy
        resident := r.resident.filter (· != victim)
        accessed := r.accessed.filter (· != victim)
        victims := r.victims.push victim } where
  policy := rfl
  budget := hm.budget.trans (budget_unloaded s victim).symm
  resident := by
    obtain ⟨hvictim, -⟩ := List.nodup_cons.mp (hperm.nodup_iff.mp h.nodup)
    have hrest : (victim :: policy.tracked).filter (· != victim) = policy.tracked := by
      rw [List.filter_cons, bne_self_eq_false, if_neg Bool.false_ne_true]
      refine List.filter_eq_self.mpr fun q hq => bne_iff_ne.mpr ?_
      rintro rfl
      exact hvictim hq
    have hfiltered := (hm.resident.trans hperm).filter (· != victim)
    rw [hrest] at hfiltered
    exact hfiltered
  accessed := mem_filter_of_update hm.accessed (cell_unloaded s victim) rfl
  loads := by
    have hunloaded : (s.unloaded victim).counters.loads = s.counters.loads := by
      unfold Memory.unloaded
      split <;> rfl
    exact hm.loads.trans hunloaded.symm
  victims := by
    have hvictims : evictedPages #[.evicting victim p, .unmapped victim] = #[victim] := rfl
    rw [evictedPages_append, hvictims, ← hm.victims]
    rfl

/-- Room is made on both sides or on neither. -/
theorem roomMade (hm : Mirrors s journal r) (h : s.Sound) (p : Page) :
    Mirrors s.roomMade (journal ++ s.roomEvents p) r.makeRoom := by
  have hlength : r.resident.length = s.table.residentCount := by
    rw [hm.resident.length_eq, h.count]
  have hbounded := h.bounded
  rw [← h.count, ← hm.budget] at hbounded
  by_cases hfull : s.budget ≤ s.table.residentCount
  · obtain ⟨victim, policy, hevict, hperm, hstate, hevents⟩ := h.roomMade_of_full hfull p
    have hmakes : r.resident.length = r.budget := by
      have hbudget := hm.budget
      omega
    rw [hstate, hevents, Replay.makeRoom, if_pos hmakes, hm.policy, hevict]
    exact hm.evicted h hperm p
  · obtain ⟨hstate, hevents⟩ := roomMade_of_room hfull p
    have hkeeps : ¬ r.resident.length = r.budget := by
      rw [hlength, hm.budget]
      omega
    rw [hstate, hevents, Replay.makeRoom, if_neg hkeeps]
    exact hm.of_same rfl rfl (fun _ => rfl) rfl rfl

/-- A page that is loaded and used on one side is loaded and used on the other. -/
theorem loaded (hm : Mirrors s journal r) (p : Page) :
    Mirrors { (s.loaded p).markAccessed p true with policy := s.policy.takeIn p }
      (journal ++ #[.mapped p .read])
      ({ r with
        policy := r.policy.takeIn p
        resident := p :: r.resident
        loads := r.loads + 1 }.touch p) where
  policy := congrArg (Policy.takeIn p) hm.policy
  budget := hm.budget
  resident := by
    rw [Policy.tracked_takeIn]
    exact (hm.resident.cons p).trans (List.perm_append_singleton p _).symm
  accessed := mem_used_of_update hm.accessed (cell_loaded_used s p) rfl
    fun _ => Replay.mem_accessed_touch
  loads := congrArg (· + 1) hm.loads
  victims := hm.victims.trans (evictedPages_append_of_eq_empty rfl).symm

/-- A page that may be used again is used on both sides. -/
theorem granted (hm : Mirrors s journal r) (hpolicy : t.policy = s.policy)
    (hbudget : t.budget = s.budget) (hloads : t.counters.loads = s.counters.loads)
    (hcell : t.cell = Function.update s.cell p c) (hc : c.entry.accessed = true)
    (hes : evictedPages es = #[]) : Mirrors t (journal ++ es) (r.touch p) where
  policy := hm.policy.trans hpolicy.symm
  budget := hm.budget.trans hbudget.symm
  resident := hpolicy ▸ hm.resident
  accessed := mem_used_of_update hm.accessed hcell hc fun _ => Replay.mem_accessed_touch
  loads := hm.loads.trans hloads.symm
  victims := hm.victims.trans (evictedPages_append_of_eq_empty hes).symm

/-- A fault is an access of the replay, and loads what the access loads. -/
theorem resolved (hm : Mirrors s journal r) (h : s.Sound)
    (hk : FaultKind.classify p (s.entry p) code = .ok kind) :
    ∃ r', r.access p = .ok r' ∧ Mirrors (s.resolved p kind) (journal ++ s.faultEvents p kind) r' ∧
      loadedPages (s.faultEvents p kind) = r.missing (.access p) := by
  obtain ⟨rfl, hr⟩ | ⟨rfl, hr, -⟩ | ⟨rfl, hr, -⟩ := resident_of_classify hk
  · have hp : p ∉ r.resident := by
      rw [hm.mem_resident h, hr]
      exact Bool.false_ne_true
    have hcounted : Mirrors s.counted (journal ++ #[.fault p .pageIn]) r :=
      hm.of_same rfl rfl (fun _ => rfl) rfl rfl
    have hroom := hcounted.roomMade h.counted p
    have habsent : (s.counted.roomMade.entry p).resident = false := by
      rw [← entry_cell, h.counted.cell_roomMade_of_absent (p := p) hr]
      exact hr
    have hfree : p ∉ r.makeRoom.policy.tracked := by
      rw [hroom.policy]
      exact h.counted.roomMade.1.not_mem_tracked habsent
    refine ⟨_, Replay.access_of_not_mem hp hfree, ?_, ?_⟩
    · have hloaded := hroom.loaded p
      rw [Array.append_assoc, Array.append_assoc] at hloaded
      exact hloaded
    · have hnone : loadedPages (s.counted.roomEvents p) = #[] := by
        unfold roomEvents
        split
        · split <;> rfl
        · rfl
      change loadedPages (#[.fault p .pageIn] ++ (s.counted.roomEvents p ++ #[.mapped p .read])) = _
      rw [loadedPages_append, loadedPages_append, hnone, Replay.missing, if_neg hp]
      rfl
  · have hp : p ∈ r.resident := (hm.mem_resident h).mpr hr
    refine ⟨r.touch p, Replay.access_of_mem hp,
      hm.granted rfl rfl rfl (cell_grantRead s p) rfl rfl, ?_⟩
    rw [Replay.missing, if_pos hp]
    rfl
  · have hp : p ∈ r.resident := (hm.mem_resident h).mpr hr
    refine ⟨r.touch p, Replay.access_of_mem hp,
      hm.granted rfl rfl rfl (cell_grantWrite s p) rfl rfl, ?_⟩
    rw [Replay.missing, if_pos hp]
    rfl

/-- The page of a fault is used afterwards on both sides. -/
theorem mem_of_resolved (hm : Mirrors (s.resolved p kind) journal r) (h : s.Sound)
    (hk : FaultKind.classify p (s.entry p) code = .ok kind) : p ∈ r.resident ∧ p ∈ r.accessed := by
  have hsound := h.resolved hk
  have hreadable : ((s.resolved p kind).entry p).permission.allowsRead = true := by
    rw [h.permission_resolved hk]
    cases (s.entry p).permission <;> rfl
  obtain ⟨hr, ha⟩ := (hsound.cell p).of_allowsRead hreadable
  exact ⟨(hm.mem_resident hsound).mpr hr, (hm.accessed p).mpr ha⟩

/-- A chain of faults after which the page can be read is one access of the replay. Only the first
fault can be seen there. -/
theorem faults (hm : Mirrors s journal r) (h : s.Sound) (hf : Faults p s es t)
    (hp : (t.entry p).permission.allowsRead = true) :
    ∃ r', r.access p = .ok r' ∧ Mirrors t (journal ++ es) r' ∧
      loadedPages es = r.missing (.access p) := by
  induction hf generalizing journal r with
  | none s =>
    obtain ⟨hr, ha⟩ := (h.cell p).of_allowsRead hp
    have hresident : p ∈ r.resident := (hm.mem_resident h).mpr hr
    refine ⟨r, Replay.access_again hresident ((hm.accessed p).mpr ha),
      hm.of_same rfl rfl (fun _ => rfl) rfl rfl, ?_⟩
    rw [Replay.missing, if_pos hresident]
    rfl
  | fault hk rest ih =>
    -- the rest of the chain repeats an access that has settled its page already
    obtain ⟨r', haccess, hm', hloaded⟩ := hm.resolved h hk
    obtain ⟨hresident, haccessed⟩ := hm'.mem_of_resolved h hk
    obtain ⟨r'', hagain, hm'', hnone⟩ := ih hm' (h.resolved hk) hp
    rw [Replay.access_again hresident haccessed, Except.ok.injEq] at hagain
    subst hagain
    refine ⟨r', haccess, ?_, ?_⟩
    · rw [← Array.append_assoc]
      exact hm''
    · rw [Replay.missing, if_pos hresident] at hnone
      rw [loadedPages_append, hloaded, hnone, Array.append_empty]

end Mirrors

/-! ## Ticks -/

/-- A pass over memory that began in `s` has reached `t`, and the pass of the replay over the same
queue has reached the used pages `used`. -/
structure PassMirrors (s t : Memory) (used : List Page) : Prop where
  /-- Rights were withdrawn and nothing else happened. -/
  withdrawn : Withdrawn s t
  /-- The same pages are used. -/
  accessed : ∀ q, q ∈ used ↔ (t.entry q).accessed = true

/-- Both passes see the same pages as used. -/
theorem PassMirrors.accessed_eq (h : PassMirrors s t used) (host : Host) (q : Page) :
    (tracker host).accessed t q = Replay.tracker.accessed used q := by
  rw [Bool.eq_iff_iff]
  exact (List.contains_iff_mem.trans (h.accessed q)).symm

/-- Both passes withdraw rights alike. -/
theorem PassMirrors.revoke (h : PassMirrors s t used) (ha : (tracker host).accessed t p = true) :
    PassMirrors s ((tracker host).revoke t p) (Replay.tracker.revoke used p) where
  withdrawn := h.withdrawn.revoke ha
  accessed := mem_filter_of_update h.accessed (cell_revoke host t p) rfl

/-- A tick withdraws the rights of the same pages on both sides, in the same order. -/
theorem Mirrors.ticked (hm : Mirrors s journal r) (hh : host.Obliging) (h : s.Sound) :
    Mirrors (s.ticked host) (journal ++ s.tickEvents host) r.tick := by
  have hstart : PassMirrors s.tickCounted s.tickCounted r.accessed :=
    ⟨h.tickCounted.withdrawn_self, hm.accessed⟩
  obtain ⟨hpolicy, hend⟩ := s.policy.tick_corresponds (tracker host) Replay.tracker
    (fun _ _ q hpass => hpass.accessed_eq host q)
    (fun _ _ q hpass => ⟨hpass.withdrawn.refusal hh q, rfl⟩)
    (fun _ _ q hpass ha => hpass.revoke ha) hstart
  have hpass : r.policy.tick Replay.tracker r.accessed =
      s.policy.tick Replay.tracker r.accessed := by
    rw [hm.policy]
  refine ⟨?_, ?_, ?_, ?_, ?_, ?_⟩
  · rw [Replay.tick, hpass]
    exact hpolicy.symm
  · exact hm.budget.trans (h.budget_ticked host).symm
  · exact hm.resident.trans (s.policy.tick_perm _ _).symm
  · rw [Replay.tick, hpass]
    exact hend.accessed
  · have hcounters : (s.tickPass host).state.counters = s.tickCounted.counters :=
      (h.withdrawn_tickPass host).counters
    change r.loads = (s.tickPass host).state.counters.loads
    rw [hcounters]
    exact hm.loads
  · have hnone : evictedPages (s.tickEvents host) = #[] := by
      unfold tickEvents
      split <;> rfl
    exact hm.victims.trans (evictedPages_append_of_eq_empty hnone).symm

end Memory

end DemandPaging
