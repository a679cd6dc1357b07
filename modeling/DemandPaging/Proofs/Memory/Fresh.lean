import DemandPaging.Proofs.Ensures
import DemandPaging.Proofs.Memory.Sound

/-!
# Fresh memory

A valid configuration can be set up on a host that refuses nothing. The memory
that results has no resident page, every page of it stands for zeros, and it
is sound. Setting up reads the configuration only for the policy and the
budget; the timer and the directory of the swap file leave no trace in it.
-/

namespace DemandPaging

open Step

/-- A host on which memory can be set up: no call is refused, and the range is placed at a page
boundary below the end of the address space. -/
structure Host.Ready (host : Host) : Prop extends host.Obliging where
  /-- The swap file is created. -/
  createFile : ∀ directory, host.createFile directory = none
  /-- The swap file gets its size. -/
  extendFile : host.extendFile = none
  /-- The range is reserved. -/
  reserve : host.reserve = none
  /-- The range starts at a page boundary. -/
  aligned : host.placement.isPageAligned = true
  /-- The end of the range is an address. -/
  fits : host.placement.toNat + memorySize < wordLimit

/-- The host that refuses nothing and places the range where it is wanted is ready. -/
theorem Host.ready_willing : Host.willing.Ready where
  bind _ := rfl
  unbind _ := rfl
  protect _ _ := rfl
  readSlot _ := rfl
  writeSlot _ := rfl
  createFile _ := rfl
  extendFile := rfl
  reserve := rfl
  aligned := Range.preferred.aligned
  fits := Range.preferred.fits

/-- A valid budget admits a page and no more pages than there are. -/
theorem Config.budget_of_validate {config : Config} (h : config.validate = .ok ()) :
    0 < config.budget ∧ config.budget ≤ pageCount := by
  unfold Config.validate at h
  by_cases hb : config.budget = 0 ∨ pageCount < config.budget
  · rw [if_pos hb] at h
    cases h
  · omega

/-- A policy is built for every budget that a valid configuration can have, and holds no page at
first. -/
theorem Policy.exists_build (host : Host) (kind : PolicyKind) {budget : Nat} (seed : Option UInt64)
    (hpos : 0 < budget) (hle : budget ≤ pageCount) :
    ∃ policy, Policy.build host kind budget seed = .ok policy ∧ policy.tracked = [] := by
  have hzero : ¬ budget = 0 := by omega
  have hroom : ¬ capacityLimit ≤ budget * numberSize := by
    simp only [capacityLimit, numberSize, pageCount] at *
    omega
  unfold Policy.build
  rw [if_neg hzero, if_neg hroom]
  cases kind with
  | fifo => exact ⟨_, rfl, rfl⟩
  | clock => exact ⟨_, rfl, rfl⟩
  | random => exact ⟨_, rfl, rfl⟩

/-- A policy that was just built holds no page. -/
theorem Policy.tracked_of_build {host : Host} {kind : PolicyKind} {budget : Nat} {seed : Option UInt64}
    {policy : Policy} (h : Policy.build host kind budget seed = .ok policy) : policy.tracked = [] := by
  unfold Policy.build at h
  split at h
  · cases h
  · split at h
    · cases h
    · cases h
      cases kind <;> rfl

/-- A policy that was just built is of the kind that was asked for. -/
theorem Policy.kind_of_build {host : Host} {kind : PolicyKind} {budget : Nat} {seed : Option UInt64}
    {policy : Policy} (h : Policy.build host kind budget seed = .ok policy) : policy.kind = kind := by
  unfold Policy.build at h
  split at h
  · cases h
  · split at h
    · cases h
    · cases h
      cases kind <;> rfl

namespace Memory

variable {host : Host} {config : Config} {s : Memory}

/-- `s` was just set up from `config`. -/
structure Fresh (host : Host) (config : Config) (s : Memory) : Prop where
  /-- No page is resident. -/
  table : s.table = .new
  /-- Every page is reserved. -/
  frames : s.mapping.frames = .const (some .reserved)
  /-- Every slot is zero. -/
  swap : s.swap = .blank
  /-- The policy is the configured one. -/
  policy : Policy.build host config.policy config.budget config.seed = .ok s.policy
  /-- The policy holds no page. -/
  tracked : s.policy.tracked = []
  /-- The budget is the configured one. -/
  budget : s.budget = config.budget
  /-- Nothing was counted. -/
  counters : s.counters = {}
  /-- Nothing was allocated. -/
  allocated : s.allocated = 0

/-- Every page of fresh memory is reserved, and its slot is zero. -/
theorem Fresh.cell (h : Fresh host config s) (p : Page) :
    s.cell p = ⟨.empty, some .reserved, .zero⟩ := by
  simp only [Memory.cell, entry, Mapping.frame, h.table, h.frames, h.swap, PageTable.entry_new,
    PageMap.get_const, SwapFile.slot_blank]

/-- No page of fresh memory is resident. -/
theorem Fresh.entry (h : Fresh host config s) (p : Page) : s.entry p = .empty :=
  congrArg Cell.entry (h.cell p)

/-- The policy of fresh memory is of the configured kind. -/
theorem Fresh.kind (h : Fresh host config s) : s.policy.kind = config.policy :=
  Policy.kind_of_build h.policy

/-- Every page of fresh memory stands for zeros. -/
theorem Fresh.contents (h : Fresh host config s) (p : Page) : s.contents p = .zero := by
  rw [Memory.contents, h.cell]
  rfl

/-- Fresh memory is sound. -/
theorem Fresh.sound (h : Fresh host config s) (hc : config.validate = .ok ()) : s.Sound where
  cell p := by
    rw [h.cell]
    exact .absent .zero
  nodup := by
    rw [h.tracked]
    exact List.nodup_nil
  mem_tracked p := by
    rw [← entry_cell, h.cell, h.tracked]
    exact iff_of_false List.not_mem_nil Bool.false_ne_true
  count := by
    rw [h.tracked, h.table]
    rfl
  bounded := by
    rw [h.tracked]
    exact Nat.zero_le _
  positive := h.budget ▸ (Config.budget_of_validate hc).1

/-- The range is reserved where the host places it. -/
private theorem yields_reserve {σ : Type} (hh : host.Ready) (u : σ) :
    ∃ range es, (Mapping.reserve host).Yields u ⟨range, .const (some .reserved)⟩ u es := by
  have hrange : Range.ofBase host.placement = .ok ⟨host.placement, hh.aligned, hh.fits⟩ := by
    rw [Range.ofBase, dif_pos hh.aligned, dif_pos hh.fits]
  have hrest : Yields (do
      let range ← ofChecked (Range.ofBase host.placement)
      return (⟨range, .const (some .reserved)⟩ : Mapping)) u
      ⟨⟨host.placement, hh.aligned, hh.fits⟩, .const (some .reserved)⟩ u #[] :=
    (yields_ofChecked hrange u).bind_silent (Yields.pure _ _)
  refine ⟨⟨host.placement, hh.aligned, hh.fits⟩,
    if host.placement.toNat ≠ preferredBase then #[.baseMoved host.placement] else #[], ?_⟩
  refine (yields_refuse (by rw [hh.reserve]; rfl) u).bind_silent ?_
  refine (yields_refuse (if_pos hh.aligned) u).bind_silent ?_
  by_cases hmoved : host.placement.toNat ≠ preferredBase
  · rw [if_pos hmoved, if_pos hmoved]
    exact (yields_report _ u).bind_last hrest
  · rw [if_neg hmoved, if_neg hmoved]
    exact hrest

/-- Memory can be set up from every valid configuration. -/
theorem exists_fresh {σ : Type} (hh : host.Ready) (hc : config.validate = .ok ()) (u : σ) :
    ∃ s es, (new host config).Yields u s u es ∧ Fresh host config s := by
  obtain ⟨hpos, hle⟩ := Config.budget_of_validate hc
  obtain ⟨policy, hpolicy, htracked⟩ := Policy.exists_build host config.policy config.seed hpos hle
  obtain ⟨range, es, hreserve⟩ := yields_reserve hh u
  refine ⟨⟨.new, ⟨range, .const (some .reserved)⟩, .blank, policy, config.budget, {}, 0⟩,
    #[.policyBuilt config.policy config.budget] ++ (#[.swapReady] ++ es), ?_,
    ⟨rfl, rfl, rfl, hpolicy, htracked, rfl, rfl, rfl⟩⟩
  have hswap : (SwapFile.create host config.swapDirectory).Yields u .blank u #[.swapReady] := by
    refine (yields_refuse (by rw [hh.createFile]; rfl) u).bind_silent ?_
    refine (yields_refuse (by rw [hh.extendFile]; rfl) u).bind_silent ?_
    exact (yields_report _ u).bind_last (Yields.pure _ u)
  refine (yields_ofExcept hc u).bind_silent ?_
  refine (yields_ofOutcome hpolicy u).bind_silent ?_
  refine (yields_report _ u).bind ?_
  refine hswap.bind ?_
  exact hreserve.bind_last (Yields.pure _ u)

/-- Memory that was set up is fresh, and its configuration is valid. Setting up touches nothing else, also when it is
refused. -/
theorem ensures_new {σ : Type} (host : Host) (config : Config) (u : σ) :
    (new host config).Ensures u
      (fun s t => t = u ∧ Fresh host config s ∧ config.validate = .ok ()) fun _ t => t = u := by
  refine ensures_ofExcept_bind (fun _ hc => ?_) fun _ _ => rfl
  refine ensures_ofOutcome_bind (fun policy hpolicy => ?_) fun _ _ => rfl
  refine (yields_report _ u).ensures_bind ?_
  refine Ensures.bind (P := fun swap t => t = u ∧ swap = .blank) ?_ fun swap v hswap => ?_
  · refine ensures_refuse_bind (fun _ => ?_) fun _ _ => rfl
    refine ensures_refuse_bind (fun _ => ?_) fun _ _ => rfl
    exact (yields_report _ u).ensures_bind ((Yields.pure _ u).ensures ⟨rfl, rfl⟩)
  obtain ⟨rfl, rfl⟩ := hswap
  refine Ensures.bind (P := fun m t => t = v ∧ m.frames = .const (some .reserved)) ?_
    fun m w hm => ?_
  · refine ensures_refuse_bind (fun _ => ?_) fun _ _ => rfl
    refine ensures_refuse_bind (fun _ => ?_) fun _ _ => rfl
    have hrange : Ensures (do
        let range ← ofChecked (Range.ofBase host.placement)
        return (⟨range, .const (some .reserved)⟩ : Mapping)) v
        (fun m t => t = v ∧ m.frames = .const (some .reserved)) fun _ t => t = v :=
      ensures_ofChecked_bind (fun _ _ => (Yields.pure _ v).ensures ⟨rfl, rfl⟩) fun _ _ => rfl
    by_cases hmoved : host.placement.toNat ≠ preferredBase
    · rw [if_pos hmoved]
      exact (yields_report _ v).ensures_bind hrange
    · rw [if_neg hmoved]
      exact hrange
  obtain ⟨rfl, hframes⟩ := hm
  refine (Yields.pure _ w).ensures ⟨rfl, ?_, hc⟩
  exact ⟨rfl, hframes, rfl, hpolicy, Policy.tracked_of_build hpolicy, rfl, rfl, rfl⟩

/-- The same, said of an account. -/
theorem fresh_of_new {σ : Type} {u u' : σ} {es : Array Event}
    (hnew : (new host config).Yields u s u' es) :
    Fresh host config s ∧ config.validate = .ok () :=
  ((ensures_new host config u).of_ok (hnew #[])).2

end Memory

end DemandPaging
