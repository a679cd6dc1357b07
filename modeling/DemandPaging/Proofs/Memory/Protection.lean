import DemandPaging.Proofs.Memory.History

/-!
# Recorded rights and the protection in force

The page table is a lower bound of what the host permits: after a failure the host may permit more
than is recorded, never less. Without failures the two are equal.

The pager itself reads a page when it saves it and writes a page when it fills it, and no fault
would help it if the host denied that. The watched procedures call `w p a` right before each such
transfer. Under the idle watch they are the procedures themselves; under the strict watch the host
ends the process at a transfer that it does not permit. That the two do the same from every state
that can arise means that the host permits every transfer.
-/

namespace DemandPaging.Memory

open Step

variable {host host₀ : Host} {config : Config} {s t : Memory} {p q : Page} {code : FaultCode}

/-! ## Watched procedures -/

/-- What is done before the pager reads or writes the memory of a page. -/
abbrev Watch := Page → Access → Step Memory Unit

namespace Watch

/-- Nothing is done. -/
def idle : Watch := fun _ _ => pure ()

/-- The process is ended if the host does not permit the access. -/
def strict : Watch := fun p a => do
  match ← Step.query (hostDenial p a) with
  | none => return ()
  | some _ => throw (.killed .segmentation)

end Watch

/-- `flush`, where `w` watches the read of the page. -/
def flushWatched (w : Watch) (host : Host) (p : Page) : Step Memory Unit := do
  protect host p .read
  w p .read
  Step.update fun s => { s with swap := s.swap.write host p (s.mapping.image p) }
  Step.refuse ((SwapFile.writeFailure host p).map .swap)
  record (·.setDirty p false)
  count fun c => { c with flushes := c.flushes + 1 }

/-- `unload`, watched. -/
def unloadWatched (w : Watch) (host : Host) (p : Page) : Step Memory Unit := do
  let e ← Step.query (·.entry p)
  Step.refuse (if e.resident then none else some (.invariant p .victimNotResident))
  if e.dirty then
    flushWatched w host p
  Step.refuse ((Mapping.unbindFailure host p).map .map)
  Step.update fun s => { s with mapping := s.mapping.unbind p }
  record (·.clear p)
  Step.report (.unmapped p)

/-- `load`, where `w` watches the write of the page. -/
def loadWatched (w : Watch) (host : Host) (p : Page) (perm : Permission) : Step Memory Unit := do
  let full ← Step.query fun s => decide (s.budget < s.table.residentCount + 1)
  Step.refuse (if full then some (.invariant p .noRoom) else none)
  Step.refuse ((Mapping.bindFailure host p).map .map)
  Step.update fun s => { s with mapping := s.mapping.bind p }
  w p .write
  let image ← Step.ofExcept ((← Step.query fun s => s.swap.read host p).mapError .swap)
  fill p image
  record (·.setResident p)
  protect host p perm
  count fun c => { c with loads := c.loads + 1 }
  Step.report (.mapped p perm)

/-- `evictOne`, watched. -/
def evictOneWatched (w : Watch) (host : Host) (faulting : Page) : Step Memory Unit := do
  let victim? ← Step.apply fun s =>
    let choice := s.policy.evict
    (choice.1, { s with policy := choice.2 })
  match victim? with
  | none => Step.fail (.invariant faulting .noVictim)
  | some victim =>
    Step.report (.evicting victim faulting)
    unloadWatched w host victim
    count fun c => { c with evictions := c.evictions + 1 }

/-- `handleFault`, watched. -/
def handleFaultWatched (w : Watch) (host : Host) (p : Page) (code : FaultCode) :
    Step Memory FaultKind := do
  let kind ← Step.ofExcept (FaultKind.classify p (← Step.query (·.entry p)) code)
  count fun c => { c with faults := c.faults + 1 }
  Step.report (.fault p kind)
  match kind with
  | .pageIn =>
    if ← Step.query fun s => decide (s.budget ≤ s.table.residentCount) then
      evictOneWatched w host p
    loadWatched w host p .read
    record (·.setAccessed p true)
    track p
  | .grantRead =>
    protect host p .read
    record (·.setAccessed p true)
  | .grantWrite =>
    protect host p .readWrite
    record fun t => (t.setDirty p true).setAccessed p true
  return kind

/-- Under the idle watch, a fault is handled as ever. -/
theorem handleFaultWatched_idle (host : Host) (p : Page) (code : FaultCode) :
    handleFaultWatched .idle host p code = handleFault host p code := rfl

/-! ## The strict watch -/

/-- The strict watch lets an access pass that the host permits. -/
theorem yields_strict {a : Access} (h : hostDenial p a s = none) :
    (Watch.strict p a).Yields s () s #[] := by
  refine (yields_query _ s).bind_silent ?_
  rw [h]
  exact Yields.pure () s

theorem hostDenial_of_frame {f : Frame} {a : Access} (hf : s.mapping.frame p = some f)
    (ha : a.allowedBy f.rights = true) : hostDenial p a s = none := by
  simp only [hostDenial, Mapping.denial, hf, ha, ite_true]

namespace Robust

/-- A page is made readable before it is saved, whatever its rights were. -/
theorem agree_flush (h : s.Robust) (p : Page) :
    Agree (flushWatched .strict host p) (flush host p) s := by
  refine (ensures_protect (R := fun _ _ => True) s p .read fun _ => trivial).agree_bind ?_
  rintro ⟨⟩ _ rfl
  obtain ⟨f, hf⟩ := Option.isSome_iff_exists.mp (h.isSome_frame p)
  have hframe : (s.withRights p .read).mapping.frame p = some { f with rights := .read } := by
    simp only [withRights, Mapping.frame_protect, ite_true, hf, Option.map_some]
  exact (yields_strict (hostDenial_of_frame hframe rfl)).agree_skip _

theorem agree_unload (h : s.Robust) (hr : (s.entry p).resident = true) :
    Agree (unloadWatched .strict host p) (unload host p) s := by
  refine (yields_query _ s).agree_bind ?_
  refine (yields_refuse (if_pos hr) s).agree_bind ?_
  by_cases hd : (s.entry p).dirty = true
  · rw [if_pos hd, if_pos hd]
    exact (h.agree_flush p).bind _
  · rw [if_neg hd, if_neg hd]
    exact Agree.refl _ s

/-- A page is bound with all rights before it is filled. -/
theorem agree_load (s : Memory) (p : Page) (perm : Permission) :
    Agree (loadWatched .strict host p perm) (load host p perm) s := by
  have hstays (o : Option PagerError) :
      (refuse o).Ensures s (fun _ t => t = s) fun _ _ => True :=
    ensures_refuse (fun _ => rfl) fun _ _ => trivial
  refine (yields_query _ s).agree_bind ?_
  refine (hstays _).agree_bind ?_
  rintro ⟨⟩ _ rfl
  refine (hstays _).agree_bind ?_
  rintro ⟨⟩ _ rfl
  refine (yields_update _ _).agree_bind ?_
  refine (yields_strict (hostDenial_of_frame (f := .fresh) ?_ rfl)).agree_skip _
  rw [Mapping.frame_bind, if_pos rfl]

theorem agree_evictOne (h : s.Robust) (faulting : Page) :
    Agree (evictOneWatched .strict host faulting) (evictOne host faulting) s := by
  refine (yields_apply _ s).agree_bind ?_
  by_cases hnil : s.policy.tracked = []
  · rw [Policy.evict_of_tracked_eq_nil hnil]
    exact Agree.refl _ s
  · obtain ⟨victim, policy, hevict, hperm⟩ := Policy.evict_perm hnil
    have hr := h.resident_of_mem (hperm.mem_iff.mpr (List.mem_cons_self ..))
    rw [hevict]
    refine (yields_report _ _).agree_bind ?_
    exact ((h.dropped hperm).1.robust.agree_unload hr).bind _

/-- Watched strictly, a fault is handled as ever. -/
theorem agree_handleFault (h : s.Robust) (p : Page) (code : FaultCode) :
    Agree (handleFaultWatched .strict host p code) (handleFault host p code) s := by
  refine (yields_query _ s).agree_bind ?_
  have hkind : (ofExcept (FaultKind.classify p (s.entry p) code)).Ensures s
      (fun kind t => t = s ∧ FaultKind.classify p (s.entry p) code = .ok kind) fun _ _ => True := by
    intro journal
    cases FaultKind.classify p (s.entry p) code with
    | ok kind => exact ⟨rfl, rfl⟩
    | error e => trivial
  refine hkind.agree_bind ?_
  rintro kind _ ⟨rfl, hk⟩
  refine (yields_update _ _).agree_bind ?_
  refine (yields_report _ _).agree_bind ?_
  cases kind with
  | grantRead => exact Agree.refl _ _
  | grantWrite => exact Agree.refl _ _
  | pageIn =>
    refine (yields_query _ _).agree_bind ?_
    have hc := h.counted.robust
    split
    · refine ((hc.agree_evictOne p).bind _).trans ?_
      refine (hc.ensures_evictOne p).agree_bind fun _ t _ => ?_
      exact (agree_load t p .read).bind _
    · exact (agree_load _ p .read).bind _

theorem exists_rights (h : s.Robust) (p : Page) :
    ∃ rights, s.mapping.rights? p = some rights ∧ (s.entry p).permission ≤ rights := by
  obtain ⟨f, hf, hle⟩ := (h.cell p).rights
  exact ⟨f.rights, congrArg (Option.map Frame.rights) hf, hle⟩

end Robust

/-- In every state that faults, ticks, allocations and stores lead to, whatever the host refuses on
the way: the host permits on every page at least what is recorded; if it refused nothing, it permits
exactly what is recorded, and a page that is not resident is reserved; and whenever the pager
transfers a page itself, the host permits that. -/
theorem permission_le_rights_of_history {s₀ : Memory} {es : Array Event}
    (hnew : (new host₀ config).Yields () s₀ () es) (incidents : List Incident) :
    (∀ p, ∃ rights, (s₀.lived incidents).mapping.rights? p = some rights ∧
        ((s₀.lived incidents).entry p).permission ≤ rights) ∧
      ((∀ x ∈ incidents, x.Obliged) →
        ∀ p, (s₀.lived incidents).mapping.rights? p =
            some ((s₀.lived incidents).entry p).permission ∧
          (((s₀.lived incidents).entry p).resident = false →
            (s₀.lived incidents).mapping.frame p = some .reserved)) ∧
      ∀ (host : Host) (p : Page) (code : FaultCode),
        Agree (handleFaultWatched .strict host p code) (handleFault host p code)
          (s₀.lived incidents) := by
  obtain ⟨hrobust, -⟩ := robust_lived_of_new hnew incidents
  obtain ⟨hfresh, hc⟩ := fresh_of_new hnew
  refine ⟨hrobust.exists_rights, fun hall p => ?_, fun host p code => hrobust.agree_handleFault p code⟩
  have hsound := (hfresh.sound hc).lived hall
  exact ⟨congrArg (Option.map Frame.rights) (hsound.frame_eq p), (hsound.cell p).frame_of_absent⟩

/-- A written page lost its rights in a tick and has to be saved. -/
theorem permission_le_rights_of_history_withdrawn : ∃ s₀ es s,
    (new .willing { budget := 1 }).Yields () s₀ () es ∧
      s₀.lived [.action .willing (.fault 0 .notMapped), .action .willing (.fault 0 .accessDenied),
        .store 0 5 7, .action .willing .tick] = s ∧
      (∀ p, s.mapping.rights? p = some (s.entry p).permission) ∧
      Agree (handleFaultWatched .strict .willing 1 .notMapped) (handleFault .willing 1 .notMapped)
        s := by
  have hvalid : ({ budget := 1 } : Config).validate = .ok () := rfl
  obtain ⟨s₀, es, hnew, -⟩ := exists_fresh Host.ready_willing hvalid ()
  obtain ⟨-, hequal, hagree⟩ := permission_le_rights_of_history hnew
    [.action .willing (.fault 0 .notMapped), .action .willing (.fault 0 .accessDenied),
      .store 0 5 7, .action .willing .tick]
  have hh : Host.willing.Obliging := Host.ready_willing.toObliging
  refine ⟨s₀, es, _, hnew, rfl, fun p => (hequal ?_ p).1, hagree .willing 1 .notMapped⟩
  simp only [List.forall_mem_cons, Incident.Obliged, hh, List.not_mem_nil, false_implies,
    implies_true, and_self]

end DemandPaging.Memory
