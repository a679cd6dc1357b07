import DemandPaging.Proofs.Ensures
import DemandPaging.Proofs.Memory.Consistency
import DemandPaging.Proofs.Memory.Robust

/-!
# Procedures that the host may refuse

Every procedure keeps robust memory robust and every page at its bytes, both where it runs to its
end and at each of its stopping points. The state at a stopping point is one of a few: rights were
changed as a whole or not at all, a slot is torn, a page was saved but is still bound, or a page has
memory but no rights. No stop is a panic, because a page that is loaded is never one that the policy
holds.
-/

namespace DemandPaging

/-- A write stores some of the bytes, and all of them unless it fails. -/
theorem SwapFile.exists_write_eq_store (host : Host) (f : SwapFile) (p : Page) (image : PageImage) :
    ∃ k, f.write host p image = f.store p image k ∧ (writeFailure host p = none → k = pageSize) := by
  cases hw : host.writeSlot p with
  | some cut =>
    refine ⟨cut.stored, by rw [write, hw], fun hnone => ?_⟩
    rw [writeFailure, hw] at hnone
    cases hnone
  | none => exact ⟨pageSize, by rw [write, hw], fun _ => rfl⟩

namespace Memory

open Step

variable {host : Host} {s t : Memory} {p q : Page} {code : FaultCode}

/-- A step that began in `s` stopped in `t`: it returned an error, and no page stands for other
bytes. -/
def Spared (s : Memory) (stop : Stop) (t : Memory) : Prop :=
  (∃ e, stop = .error e) ∧ Retained s t

theorem Retained.spared (h : Retained s t) (e : PagerError) : Spared s (.error e) t :=
  ⟨⟨e, rfl⟩, h⟩

/-- Where a later part of a step stops, the step stops. -/
theorem Retained.ensures {α : Type} {x : Step Memory α} {Q : α → Memory → Prop} (h : Retained s t)
    (hx : x.Ensures t Q (Spared t)) : x.Ensures t Q (Spared s) :=
  hx.mono (fun _ _ hgo => hgo) fun _ _ hstop => ⟨hstop.1, h.trans hstop.2⟩

/-- The rights of a page change as a whole or not at all. -/
theorem ensures_protect {R : Stop → Memory → Prop} (s : Memory) (p : Page) (perm : Permission)
    (hstop : ∀ e, R (.error e) s) :
    (protect host p perm).Ensures s (fun _ t => t = s.withRights p perm) R := by
  refine (yields_query _ s).ensures_bind ?_
  refine ensures_refuse_bind (fun _ => ?_) fun e _ => hstop e
  refine (yields_update _ s).ensures_bind ?_
  exact (yields_update _ _).ensures rfl

/-! ## Unloading -/

namespace Robust

/-- A resident page that the policy does not hold may be saved, in part or as a whole. -/
private theorem retained_of_save (h : s.Robust) (hr : (s.entry p).resident = true)
    (hp : p ∉ s.policy.tracked) {d : Cell} (hcell : t.cell = Function.update s.cell p d)
    (hresident : d.entry.resident = true) (hperm : d.entry.rights = Permission.read.bits)
    (hframe : d.frame = ((s.cell p).withRights .read).frame) (hpolicy : t.policy = s.policy)
    (hcount : t.table.residentCount = s.table.residentCount) (hbudget : t.budget = s.budget) :
    Retained s t := by
  refine h.retained_of_update hcell ?_ (hresident.trans hr.symm) ?_ hpolicy hcount hbudget
  · exact ((h.cell p).withRights hresident hperm hframe).mono hp
  · -- the page is resident before and after, so its slot does not matter
    have himage : d.image = (s.cell p).image := by
      rw [← Cell.image_withRights (s.cell p) .read, Cell.image, Cell.image, hframe]
    rw [Cell.contents_of_resident hresident, himage]
    exact (Cell.contents_of_resident hr).symm

theorem torn (h : s.Robust) (hr : (s.entry p).resident = true) (hp : p ∉ s.policy.tracked)
    (k : Nat) : Retained s (s.torn p k) :=
  h.retained_of_save hr hp (cell_torn s p k) hr rfl rfl rfl rfl rfl

theorem saved (h : s.Robust) (hr : (s.entry p).resident = true) (hp : p ∉ s.policy.tracked) :
    Retained s (s.saved p) :=
  h.retained_of_save hr hp (cell_saved s p) hr rfl rfl rfl rfl rfl

/-- A resident page that the policy held until now, and that nothing was left half done at, may be
unloaded. -/
theorem unloaded (h : s.Robust) (hsound : (s.cell p).Sound) (hr : (s.entry p).resident = true)
    (hp : p ∉ s.policy.tracked) :
    Retained s (s.unloaded p) ∧ (s.unloaded p).table.residentCount < s.budget := by
  have hcount := residentCount_unloaded hr
  have hpos := h.count_pos hr
  have hbounded := h.bounded
  have hpolicy : (s.unloaded p).policy = s.policy := policy_unloaded s p
  refine ⟨⟨?_, ?_, budget_unloaded s p⟩, by omega⟩
  · refine h.of_update (cell_unloaded s p) ?_ (fun q hq _ => hpolicy ▸ hq) (hpolicy ▸ h.nodup) ?_ ?_
    · exact (Cell.robust_of_empty rfl rfl).mono (hpolicy ▸ hp)
    · have hempty : (s.cell p).unload.entry.resident = false := rfl
      rw [hr, hempty, Bool.toNat_true, Bool.toNat_false]
      omega
    · rw [budget_unloaded]
      omega
  · exact contents_of_update (cell_unloaded s p) (hsound.contents_unload hr)

theorem ensures_flush (h : s.Robust) (hr : (s.entry p).resident = true)
    (hp : p ∉ s.policy.tracked) :
    (flush host p).Ensures s (fun _ t => t = s.saved p) (Spared s) := by
  refine (ensures_protect s p .read h.retained.spared).bind ?_
  rintro ⟨⟩ _ rfl
  -- from here on the slot may be torn, but the page still counts as written
  obtain ⟨k, hstore, hwhole⟩ := SwapFile.exists_write_eq_store host s.swap p (s.mapping.image p)
  have hwrite : (update fun s : Memory =>
      { s with swap := s.swap.write host p (s.mapping.image p) }).Yields (s.withRights p .read) ()
        (s.torn p k) #[] := by
    have := yields_update (fun s : Memory =>
      { s with swap := s.swap.write host p (s.mapping.image p) }) (s.withRights p .read)
    rwa [image_withRights, show (s.withRights p .read).swap = s.swap from rfl, hstore] at this
  refine hwrite.ensures_bind ?_
  refine ensures_refuse_bind (fun hnone => ?_) fun e _ => (h.torn hr hp k).spared e
  rw [hwhole (Option.map_eq_none_iff.mp hnone)]
  refine (yields_update _ _).ensures_bind ?_
  exact (yields_update _ _).ensures rfl

theorem ensures_unload (h : s.Robust) (hr : (s.entry p).resident = true)
    (hp : p ∉ s.policy.tracked) :
    (unload host p).Ensures s (fun _ t => t = s.unloaded p) (Spared s) := by
  -- the memory of the page is taken back, whether or not it was saved before
  have hrest {t : Memory} (ht : Retained s t)
      (hend : { t with mapping := t.mapping.unbind p, table := t.table.clear p } = s.unloaded p) :
      Ensures (do
        refuse ((Mapping.unbindFailure host p).map .map)
        update fun s => { s with mapping := s.mapping.unbind p }
        record (·.clear p)
        report (.unmapped p)) t (fun _ t => t = s.unloaded p) (Spared s) := by
    refine ensures_refuse_bind (fun _ => ?_) fun e _ => ht.spared e
    refine (yields_update _ t).ensures_bind ?_
    refine (yields_update _ _).ensures_bind ?_
    exact (yields_report _ _).ensures hend
  refine (yields_query _ s).ensures_bind ?_
  refine (yields_refuse (if_pos hr) s).ensures_bind ?_
  by_cases hd : (s.entry p).dirty = true
  · rw [if_pos hd]
    refine (h.ensures_flush hr hp).bind ?_
    rintro ⟨⟩ _ rfl
    exact hrest (h.saved hr hp) (by rw [Memory.unloaded, if_pos hd])
  · rw [if_neg hd]
    exact hrest h.retained (by rw [Memory.unloaded, if_neg hd])

/-- A policy that let go of a page leaves the others as they are. -/
theorem dropped (h : s.Robust) {policy : Policy} {victim : Page}
    (hperm : s.policy.tracked.Perm (victim :: policy.tracked)) :
    Retained s { s with policy } ∧ victim ∉ policy.tracked := by
  obtain ⟨hvictim, hnodup⟩ := List.nodup_cons.mp (hperm.nodup_iff.mp h.nodup)
  refine ⟨h.of_same_cells rfl (fun q hq => ?_) hnodup rfl rfl, hvictim⟩
  exact hperm.mem_iff.mpr (List.mem_cons_of_mem _ hq)

/-- An eviction makes room and brings no page into memory. -/
theorem evicted (h : s.Robust) {victim : Page} {policy : Policy}
    (hevict : s.policy.evict = (some victim, policy)) :
    Retained s (s.evicted victim policy) ∧
      (s.evicted victim policy).table.residentCount < (s.evicted victim policy).budget ∧
      ∀ q, (s.entry q).resident = false → ((s.evicted victim policy).entry q).resident = false := by
  have hperm := Policy.perm_of_evict hevict
  obtain ⟨hdropped, hvictim⟩ := h.dropped hperm
  obtain ⟨hsound, hr⟩ := (h.cell victim).held (hperm.mem_iff.mpr (List.mem_cons_self ..))
  obtain ⟨hunloaded, hroom⟩ := hdropped.robust.unloaded (p := victim) hsound hr hvictim
  have hkept : Retained s (s.evicted victim policy) := by
    refine hdropped.trans (hunloaded.trans ?_)
    rw [unloaded_withPolicy] at hunloaded ⊢
    exact hunloaded.robust.retained_of_same rfl rfl rfl rfl
  refine ⟨hkept, ?_, fun q hq => ?_⟩
  · rw [hkept.budget]
    rwa [unloaded_withPolicy] at hroom
  · exact resident_unloaded_of_absent (s := s) hq

/-- An eviction that runs to its end unloads the page that the policy chooses. -/
theorem ensures_evictOne (h : s.Robust) (faulting : Page) :
    (evictOne host faulting).Ensures s
      (fun _ t => ∃ victim policy, s.policy.evict = (some victim, policy) ∧
        t = s.evicted victim policy) (Spared s) := by
  refine (yields_apply _ s).ensures_bind ?_
  by_cases hnil : s.policy.tracked = []
  · rw [Policy.evict_of_tracked_eq_nil hnil]
    exact fun _ => h.retained.spared _
  · obtain ⟨victim, policy, hevict, hperm⟩ := Policy.evict_perm hnil
    obtain ⟨hdropped, hvictim⟩ := h.dropped hperm
    have hr := h.resident_of_mem (hperm.mem_iff.mpr (List.mem_cons_self ..))
    rw [hevict]
    refine (yields_report _ _).ensures_bind ?_
    refine (hdropped.ensures (hdropped.robust.ensures_unload hr hvictim)).bind ?_
    rintro ⟨⟩ _ rfl
    refine (yields_update _ _).ensures ⟨victim, policy, rfl, ?_⟩
    rw [unloaded_withPolicy]
    rfl

end Robust

/-! ## Loading -/

/-- Page `p` has memory, but no bytes of its own yet. -/
def bound (s : Memory) (p : Page) : Memory := { s with mapping := s.mapping.bind p }

theorem cell_bound (s : Memory) (p : Page) :
    (s.bound p).cell = Function.update s.cell p { s.cell p with frame := some .fresh } := by
  refine Function.eq_update_iff.mpr ⟨?_, fun q h => ?_⟩
  · simp only [cell, bound, entry, Mapping.frame_bind, ite_true]
  · simp only [cell, bound, entry, Mapping.frame_bind, Ne.symm h, ite_false]

namespace Robust

/-- Memory behind a page that is not resident has no part in what the page stands for. -/
theorem bound (h : s.Robust) (hr : (s.entry p).resident = false) : Retained s (s.bound p) := by
  refine h.retained_of_update (cell_bound s p) ?_ rfl ?_ rfl rfl rfl
  · exact (Cell.robust_of_empty (h.entry_eq_empty hr) rfl).mono (h.not_mem_tracked hr)
  · exact (Cell.contents_of_absent hr).trans (Cell.contents_of_absent (c := s.cell p) hr).symm

/-- A page that is loaded where there is room may be left without rights, for the policy does not
hold it. -/
theorem filled (h : s.Robust) (hr : (s.entry p).resident = false)
    (hroom : s.table.residentCount < s.budget) : Retained s (s.filled p) := by
  have hcount : (s.filled p).table.residentCount = s.table.residentCount + 1 :=
    residentCount_loaded hr
  have hrights : ({ s.entry p with resident := true } : Entry).permission = .noAccess := by
    rw [h.entry_eq_empty hr]
    rfl
  refine ⟨?_, ?_, rfl⟩
  · refine h.of_update (cell_filled s p) ?_ (fun q hq _ => hq) h.nodup ?_ (hcount ▸ hroom)
    · refine (Cell.robust_of_resident rfl rfl ?_).mono (h.not_mem_tracked hr)
      rw [hrights]
      exact Permission.noAccess_le _
    · rw [hcount, hr]
      rfl
  · refine contents_of_update (cell_filled s p) ?_
    exact (Cell.contents_of_resident rfl).trans (Cell.contents_of_absent (c := s.cell p) hr).symm

/-- A page that was loaded as a whole may be handed to the policy. -/
theorem loaded (h : s.Robust) (hr : (s.entry p).resident = false)
    (hroom : s.table.residentCount < s.budget) :
    Retained s { (s.loaded p).markAccessed p true with policy := s.policy.takeIn p } := by
  have hcell := cell_loaded_used s p
  have hp := h.not_mem_tracked hr
  have hcount := residentCount_loaded hr
  refine ⟨?_, ?_, rfl⟩
  · refine h.of_update hcell ?_ (fun q hq hne => ?_) ?_ ?_ (hcount ▸ hroom)
    · exact (Cell.sound_load (h.entry_eq_empty hr)).robust fun _ => rfl
    · rw [Policy.tracked_takeIn, List.mem_append, List.mem_singleton] at hq
      exact hq.resolve_right hne
    · rw [Policy.tracked_takeIn]
      exact (List.perm_append_singleton p _).nodup_iff.mpr (List.nodup_cons.mpr ⟨hp, h.nodup⟩)
    · change (s.loaded p).table.residentCount + _ = _
      rw [hcount, hr]
      rfl
  · exact contents_of_update hcell (Cell.contents_load hr)

theorem ensures_load (h : s.Robust) (hr : (s.entry p).resident = false)
    (hroom : s.table.residentCount < s.budget) :
    (load host p .read).Ensures s (fun _ t => t = s.loaded p) (Spared s) := by
  have hfull : decide (s.budget < s.table.residentCount + 1) = false :=
    decide_eq_false (by omega)
  refine (yields_query _ s).ensures_bind ?_
  refine (yields_refuse (by rw [hfull]; rfl) s).ensures_bind ?_
  refine ensures_refuse_bind (fun _ => ?_) fun e _ => h.retained.spared e
  refine (yields_update _ s).ensures_bind ?_
  refine (yields_query _ _).ensures_bind ?_
  -- the page has memory by now, but its slot counts until it is recorded as resident
  refine ensures_ofExcept_bind (fun image himage => ?_) fun e _ => (h.bound hr).spared e
  have hslot : image = s.swap.slot p := by
    unfold SwapFile.read at himage
    split at himage
    · cases himage
    · cases himage
      rfl
  subst hslot
  refine (yields_update _ _).ensures_bind ?_
  refine (yields_update _ _).ensures_bind ?_
  refine (ensures_protect (s.filled p) p .read (h.filled hr hroom).spared).bind ?_
  rintro ⟨⟩ _ rfl
  refine (yields_update _ _).ensures_bind ?_
  exact (yields_report _ _).ensures rfl

/-- A page that was just loaded is not one that the policy holds, so it is taken in. -/
theorem ensures_pageIn (h : s.Robust) (hr : (s.entry p).resident = false)
    (hroom : s.table.residentCount < s.budget) :
    Ensures (do
      load host p .read
      record (·.setAccessed p true)
      track p
      return FaultKind.pageIn) s
      (fun kind t => kind = .pageIn ∧
        t = { (s.loaded p).markAccessed p true with policy := s.policy.takeIn p }) (Spared s) := by
  refine (h.ensures_load hr hroom).bind ?_
  rintro ⟨⟩ _ rfl
  refine (yields_update _ _).ensures_bind ?_
  refine (yields_track (s := (s.loaded p).markAccessed p true) (h.not_mem_tracked hr)).ensures_bind ?_
  exact (Yields.pure _ _).ensures ⟨rfl, rfl⟩

/-! ## Faults, ticks and allocations -/

theorem counted (h : s.Robust) : Retained s s.counted :=
  h.retained_of_same rfl rfl rfl rfl

/-- A fault that is resolved, also where the host could have refused, leaves what it leaves on every
host. -/
theorem ensures_handleFault (h : s.Robust) (p : Page) (code : FaultCode) :
    (handleFault host p code).Ensures s
      (fun kind t => FaultKind.classify p (s.entry p) code = .ok kind ∧ t = s.resolved p kind ∧
        Retained s t) (Spared s) := by
  refine (yields_query _ s).ensures_bind ?_
  refine ensures_ofExcept_bind (fun kind hk => ?_) fun e _ => h.retained.spared e
  refine (yields_update _ s).ensures_bind ?_
  refine (yields_report _ s.counted).ensures_bind ?_
  have hcounted := h.counted
  have hc := hcounted.robust
  refine hcounted.ensures ?_
  obtain ⟨rfl, hr⟩ | ⟨rfl, hr, hp⟩ | ⟨rfl, hr, -⟩ := resident_of_classify hk
  · refine (yields_query _ s.counted).ensures_bind ?_
    by_cases hfull : s.counted.budget ≤ s.counted.table.residentCount
    · rw [if_pos (decide_eq_true hfull)]
      refine (hc.ensures_evictOne p).bind ?_
      rintro ⟨⟩ _ ⟨victim, policy, hevict, rfl⟩
      obtain ⟨ht, hroom, habsent⟩ := hc.evicted hevict
      refine (ht.ensures (ht.robust.ensures_pageIn (habsent p hr) hroom)).mono ?_ fun _ _ hstop => hstop
      rintro _ _ ⟨rfl, rfl⟩
      refine ⟨hk, ?_, hcounted.trans (ht.trans (ht.robust.loaded (habsent p hr) hroom))⟩
      simp only [resolved, roomMade, if_pos hfull, hevict]
    · rw [if_neg (by rwa [decide_eq_true_iff])]
      have hroom := Nat.lt_of_not_le hfull
      refine (hc.ensures_pageIn hr hroom).mono ?_ fun _ _ hstop => hstop
      rintro _ _ ⟨rfl, rfl⟩
      refine ⟨hk, ?_, hcounted.trans (hc.loaded hr hroom)⟩
      simp only [resolved, roomMade, if_neg hfull]
  · refine (ensures_protect s.counted p .read hc.retained.spared).bind ?_
    rintro ⟨⟩ _ rfl
    refine (yields_update _ _).ensures_bind ((Yields.pure _ _).ensures ⟨hk, rfl, hcounted.trans ?_⟩)
    refine hc.retained_of_update (cell_grantRead s.counted p) ?_ rfl ?_ rfl rfl rfl
    · exact (hc.cell p).grantRead hr hp
    · rw [Cell.contents_setAccessed, Cell.contents_withRights]
      rfl
  · refine (ensures_protect s.counted p .readWrite hc.retained.spared).bind ?_
    rintro ⟨⟩ _ rfl
    refine (yields_update _ _).ensures_bind ((Yields.pure _ _).ensures ⟨hk, rfl, hcounted.trans ?_⟩)
    refine hc.retained_of_update (cell_grantWrite s.counted p) ?_ rfl ?_ rfl rfl rfl
    · exact (hc.cell p).grantWrite hr
    · rw [Cell.contents_setAccessed, Cell.contents_setDirty, Cell.contents_withRights]
      rfl

/-- A pass of the policy that was refused on its way has withdrawn rights from some pages and
reordered the queue. -/
theorem ticked (h : s.Robust) (host : Host) : Retained s (s.ticked host) := by
  have hcounted : Retained s s.tickCounted := h.retained_of_same rfl rfl rfl rfl
  have hpass : Retained s (s.tickPass host).state ∧ (s.tickPass host).state.policy = s.policy := by
    refine s.policy.tick_keeps (tracker host) (P := fun t => Retained s t ∧ t.policy = s.policy)
      (fun t p ⟨ht, hpolicy⟩ ha => ⟨ht.trans ?_, hpolicy⟩) ⟨hcounted, rfl⟩
    refine ht.robust.retained_of_update (cell_revoke host t p) ?_ rfl ?_ rfl rfl rfl
    · exact (ht.robust.cell p).revoke ha
    · exact Cell.contents_revoke _
  -- at its end, or where it was refused, the pass puts the queue together again
  obtain ⟨hkept, hpolicy⟩ := hpass
  have hperm : (s.tickPass host).policy.tracked.Perm s.policy.tracked := s.policy.tick_perm _ _
  refine hkept.trans (hkept.robust.of_same_cells rfl (fun q hq => ?_) ?_ rfl rfl)
  · rw [hpolicy]
    exact hperm.mem_iff.mp hq
  · exact hperm.nodup_iff.mpr h.nodup

theorem ensures_tick (h : s.Robust) :
    (tick host).Ensures s (fun _ => Retained s) (Spared s) := by
  intro journal
  rw [tick_eq]
  cases (s.tickPass host).refused with
  | none => exact h.ticked host
  | some e => exact (h.ticked host).spared (.revoke e)

/-- Whatever the host refuses, an action leaves every page at its bytes, and it stops with an error
or not at all. -/
theorem ensures_step (h : s.Robust) (host : Host) (a : Action) :
    (a.step host).Ensures s (fun _ => Retained s) (Spared s) := by
  cases a with
  | fault p code =>
    refine (h.ensures_handleFault p code).bind fun _ t ⟨_, _, ht⟩ => ?_
    exact (Yields.pure () t).ensures ht
  | tick => exact h.ensures_tick
  | allocate size =>
    obtain ⟨r, n, es, hallocate, -⟩ := yields_allocate s size
    refine hallocate.ensures_bind ((Yields.pure () _).ensures ?_)
    exact h.retained_of_same rfl rfl rfl rfl

end Robust

end Memory

end DemandPaging
