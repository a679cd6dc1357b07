import DemandPaging.Proofs.Memory.Refusal
import DemandPaging.Proofs.Memory.Request

/-!
# Histories with failures

Between two actions the host may change what it refuses, and programs store bytes wherever the host
lets them. The host lets them also where it is ahead of the page table, which happens after a
failure: then the page is not resident, or the policy does not hold it, and the store does not harm
the invariant. So whatever happened before, an action that stops leaves every page at its bytes, and
memory as fit for the next action as it was.
-/

namespace DemandPaging.Memory

open Step

variable {host host₀ : Host} {config : Config} {s t : Memory} {p q : Page}

/-- What happens to managed memory from outside. -/
inductive Incident where
  /-- An action, under the conditions that the host sets at that moment. -/
  | action (host : Host) (a : Action)
  /-- A program stores a byte if the host lets it. -/
  | store (p : Page) (i : Offset) (b : UInt8)

/-- The state after an incident. -/
def meet (s : Memory) : Incident → Memory
  | .action host a => s.perform host a
  | .store p i b => if (hostDenial p .write s).isNone then s.stored p i b else s

/-- The state after incidents in a row. -/
def lived (s : Memory) (incidents : List Incident) : Memory := incidents.foldl meet s

theorem meet_store (s : Memory) (p : Page) (i : Offset) (b : UInt8) : s.meet (.store p i b) =
    if (hostDenial p .write s).isNone then s.stored p i b else s := rfl

/-- Where a store is let, the page is writable for the host. -/
theorem exists_frame_of_hostDenial (h : (hostDenial p .write s).isNone = true) :
    ∃ f, s.mapping.frame p = some f ∧ f.rights = .readWrite := by
  unfold hostDenial Mapping.denial at h
  cases hf : s.mapping.frame p with
  | none =>
    rw [hf] at h
    cases h
  | some f =>
    refine ⟨f, rfl, Access.eq_readWrite_of_allowedBy ?_⟩
    by_contra ha
    simp only [hf, ha, ite_false] at h
    cases h

namespace Robust

theorem stored (h : s.Robust) (hlet : (hostDenial p .write s).isNone = true) (i : Offset)
    (b : UInt8) : (s.stored p i b).Robust := by
  obtain ⟨f, hf, hw⟩ := exists_frame_of_hostDenial hlet
  exact h.of_update (cell_stored s p i b) ((h.cell p).store hf hw i b) (fun q hq _ => hq) h.nodup
    rfl h.bounded

theorem meet (h : s.Robust) (x : Incident) : (s.meet x).Robust ∧ (s.meet x).budget = s.budget := by
  cases x with
  | action host a =>
    have hretained : Retained s (s.perform host a) :=
      ((h.ensures_step host a).mono (fun _ _ hgo => hgo) fun _ _ hstop => hstop.2).state_after #[]
    exact ⟨hretained.robust, hretained.budget⟩
  | store p i b =>
    by_cases hlet : (hostDenial p .write s).isNone = true
    · rw [meet_store, if_pos hlet]
      exact ⟨h.stored hlet i b, rfl⟩
    · rw [meet_store, if_neg hlet]
      exact ⟨h, rfl⟩

theorem lived (h : s.Robust) (incidents : List Incident) :
    (s.lived incidents).Robust ∧ (s.lived incidents).budget = s.budget := by
  induction incidents generalizing s with
  | nil => exact ⟨h, rfl⟩
  | cons x incidents ih =>
    obtain ⟨hx, hbudget⟩ := h.meet x
    obtain ⟨hrest, hbudget'⟩ := ih hx
    exact ⟨hrest, hbudget'.trans hbudget⟩

end Robust

/-- No action of the incident is refused anything. -/
def Incident.Obliged : Incident → Prop
  | .action host _ => host.Obliging
  | .store _ _ _ => True

/-- What an incident makes of sound memory as long as nothing is refused. -/
inductive Next (s : Memory) : Memory → Prop
  /-- Nothing happens. -/
  | same : Next s s
  /-- A fault is resolved. -/
  | resolved {p : Page} {code : FaultCode} {kind : FaultKind}
      (hk : FaultKind.classify p (s.entry p) code = .ok kind) : Next s (s.resolved p kind)
  /-- A tick is delivered. -/
  | ticked {host : Host} (hh : host.Obliging) : Next s (s.ticked host)
  /-- More bytes are in use. -/
  | allocated (n : Nat) : Next s { s with allocated := n }
  /-- A byte of a writable page is replaced. -/
  | stored {p : Page} (hp : (s.entry p).permission = .readWrite) (i : Offset) (b : UInt8) :
      Next s (s.stored p i b)

/-- As long as nothing is refused, every incident is one of these. -/
theorem Sound.next_meet (h : s.Sound) {x : Incident} (hx : x.Obliged) : Next s (s.meet x) := by
  cases x with
  | action host a =>
    change Next s (s.perform host a)
    cases a with
    | fault p code =>
      cases hk : FaultKind.classify p (s.entry p) code with
      | ok kind =>
        rw [h.perform_fault hx hk]
        exact .resolved hk
      | error e =>
        rw [perform_fault_of_refused host hk]
        exact .same
    | tick =>
      rw [perform_tick]
      exact .ticked hx
    | allocate size =>
      obtain ⟨n, hsame⟩ := exists_perform_allocate host s size
      rw [hsame]
      exact .allocated n
  | store p i b =>
    by_cases hlet : (hostDenial p .write s).isNone = true
    · -- the rights in force are those recorded, so the page counts as written
      obtain ⟨f, hf, hw⟩ := exists_frame_of_hostDenial hlet
      have hframe := h.frame_eq p
      rw [hf, Option.some.injEq] at hframe
      rw [meet_store, if_pos hlet]
      exact .stored (by rw [← hw, hframe]) i b
    · rw [meet_store, if_neg hlet]
      exact .same

theorem Sound.next (h : s.Sound) (hn : Next s t) : t.Sound := by
  cases hn with
  | same => exact h
  | resolved hk => exact h.resolved hk
  | ticked hh => exact h.ticked _
  | allocated n => exact h.of_same_cells rfl rfl rfl rfl
  | stored hp i b => exact h.stored hp i b

/-- As long as nothing is refused, memory stays sound, and it keeps whatever each of its steps
keeps. -/
theorem Sound.lived_keeps (h : s.Sound) {P : Memory → Prop} (hs : P s)
    (hnext : ∀ t u, t.Sound → P t → Next t u → P u) {incidents : List Incident}
    (hall : ∀ x ∈ incidents, x.Obliged) : (s.lived incidents).Sound ∧ P (s.lived incidents) := by
  induction incidents generalizing s with
  | nil => exact ⟨h, hs⟩
  | cons x incidents ih =>
    obtain ⟨hx, hrest⟩ := List.forall_mem_cons.mp hall
    have hn := h.next_meet hx
    exact ih (h.next hn) (hnext s (s.meet x) h hs hn) hrest

/-- As long as nothing is refused, memory stays sound. -/
theorem Sound.lived (h : s.Sound) {incidents : List Incident} (hall : ∀ x ∈ incidents, x.Obliged) :
    (s.lived incidents).Sound :=
  (h.lived_keeps (P := fun _ => True) trivial (fun _ _ _ _ _ => trivial) hall).1

/-- Memory that was set up and went through any incidents. -/
theorem robust_lived_of_new {u u' : Unit} {es : Array Event}
    (hnew : (new host₀ config).Yields u s u' es) (incidents : List Incident) :
    (s.lived incidents).Robust ∧ (s.lived incidents).budget = config.budget := by
  obtain ⟨hfresh, hc⟩ := fresh_of_new hnew
  obtain ⟨hrobust, hbudget⟩ := (hfresh.sound hc).robust.lived incidents
  exact ⟨hrobust, hbudget.trans hfresh.budget⟩

/-- A fault stops if it has to evict a written page and the slot of that page cannot be written as a
whole. -/
theorem exists_stop_of_torn (host : Host) {code : FaultCode} {victim : Page} {policy : Policy}
    {torn : TornWrite}
    (hk : FaultKind.classify p (s.entry p) code = .ok .pageIn)
    (hfull : s.budget ≤ s.table.residentCount) (hevict : s.policy.evict = (some victim, policy))
    (hd : (s.entry victim).dirty = true) (htorn : host.writeSlot victim = some torn)
    (journal : Array Event) : ∃ e t, handleFault host p code ⟨s, journal⟩ = .error e t := by
  have hflush (s : Memory) :
      (flush host victim).Ensures s (fun _ _ => False) fun _ _ => True := by
    refine (ensures_protect s victim .read fun _ => trivial).bind ?_
    rintro ⟨⟩ _ rfl
    refine (yields_update _ _).ensures_bind ?_
    refine ensures_refuse_bind (fun hnone => ?_) fun _ _ => trivial
    rw [SwapFile.writeFailure, htorn] at hnone
    cases hnone
  have hunload : (unload host victim).Ensures { s.counted with policy } (fun _ _ => False)
      fun _ _ => True := by
    refine (yields_query _ _).ensures_bind ?_
    refine ensures_refuse_bind (fun _ => ?_) fun _ _ => trivial
    rw [show ({ s.counted with policy } : Memory).entry victim = s.entry victim from rfl, if_pos hd]
    exact (hflush _).bind fun _ _ h => h.elim
  have hfault : (handleFault host p code).Ensures s (fun _ _ => False) fun _ _ => True := by
    refine (yields_query _ s).ensures_bind ?_
    refine (yields_ofExcept hk s).ensures_bind ?_
    refine (yields_update _ s).ensures_bind ?_
    refine (yields_report _ s.counted).ensures_bind ?_
    refine (yields_query _ s.counted).ensures_bind ?_
    have hfull' : s.counted.budget ≤ s.counted.table.residentCount := hfull
    rw [if_pos (decide_eq_true hfull')]
    refine Ensures.bind (P := fun _ _ => False) ?_ fun _ _ h => h.elim
    refine (yields_apply _ s.counted).ensures_bind ?_
    rw [show s.counted.policy = s.policy from rfl, hevict]
    refine (yields_report _ _).ensures_bind ?_
    exact hunload.bind fun _ _ h => h.elim
  obtain ⟨e, t, hstop, -⟩ := hfault.exists_error journal
  exact ⟨e, t, hstop⟩

/-- Two faults make a page writable that was not resident. -/
theorem Sound.lived_two_faults (hh : host.Obliging) (h : s.Sound) (hr : (s.entry p).resident = false)
    (code : FaultCode) :
    (s.lived [.action host (.fault p code), .action host (.fault p .accessDenied)]).Sound ∧
      ((s.lived [.action host (.fault p code), .action host (.fault p .accessDenied)]).entry
        p).permission = .readWrite := by
  have hk := classify_of_absent hr code
  have h₁ := h.resolved hk
  have hk₁ := h₁.classify_of_read (h.permission_pageIn hr)
  have hlived : s.lived [.action host (.fault p code), .action host (.fault p .accessDenied)] =
      (s.resolved p .pageIn).resolved p .grantWrite := by
    simp only [Memory.lived, List.foldl_cons, List.foldl_nil, Memory.meet]
    rw [h.perform_fault hh hk, h₁.perform_fault hh hk₁]
  rw [hlived]
  refine ⟨h₁.resolved hk₁, ?_⟩
  rw [h₁.permission_resolved hk₁, h.permission_pageIn hr]
  rfl

/-- One page was loaded and written where there is room for one. -/
theorem Fresh.lived_written_page (hfresh : Fresh host₀ config s) (hvalid : config.validate = .ok ())
    (hone : config.budget = 1) (hh : host.Obliging) {i : Offset} {b : UInt8}
    (hs : s.lived [.action host (.fault p .notMapped), .action host (.fault p .accessDenied),
      .store p i b] = t) :
    t.Sound ∧ t.budget = 1 ∧ (t.entry p).permission = .readWrite ∧ t.policy.tracked = [p] ∧
      (t.contents p).get i = b := by
  have habsent : (s.entry p).resident = false := by
    rw [hfresh.entry]
    rfl
  obtain ⟨h₂, hwrite⟩ := (hfresh.sound hvalid).lived_two_faults hh habsent .notMapped
  have hallowed : Access.write.allowedBy ((s.lived [.action host (.fault p .notMapped),
      .action host (.fault p .accessDenied)]).entry p).permission = true := by
    rw [hwrite]
    rfl
  have hlet := h₂.hostDenial_eq_none hallowed
  have hstored : t = (s.lived [.action host (.fault p .notMapped),
      .action host (.fault p .accessDenied)]).stored p i b := by
    rw [← hs]
    exact if_pos (Option.isNone_iff_eq_none.mpr hlet)
  have h : t.Sound := hstored ▸ h₂.stored hwrite i b
  have hbudget : t.budget = 1 := by
    rw [← hs, ((hfresh.sound hvalid).robust.lived _).2, hfresh.budget, hone]
  have hperm : (t.entry p).permission = .readWrite := hstored ▸ hwrite
  have hr := ((h.cell p).of_allowsRead (by rw [entry_cell, hperm]; rfl)).1
  have hr₂ := ((h₂.cell p).of_allowsRead (Access.allowsRead_of_allowedBy hallowed)).1
  refine ⟨h, hbudget, hperm, h.tracked_eq_singleton hbudget hr, ?_⟩
  rw [hstored, h₂.get_contents_stored hr₂, if_pos ⟨rfl, rfl⟩]

/-- Whatever the host refused before and refuses now: an action that stops returns an error, no page
stands for other bytes than before, the page table is consistent, the budget is kept, and the policy
holds resident pages only, each of them once. So the stored number of resident pages is not zero
while a page is resident, and no action, the next one included, ends in a panic. -/
theorem unharmed_of_error {s₀ : Memory} {es : Array Event}
    (hnew : (new host₀ config).Yields () s₀ () es) (incidents : List Incident) {a : Action}
    {journal : Array Event} {stop : Stop} {t : Traced Memory}
    (hstop : a.step host ⟨s₀.lived incidents, journal⟩ = .error stop t) :
    (∃ e, stop = .error e) ∧
      (∀ p, t.state.contents p = (s₀.lived incidents).contents p) ∧
      t.state.table.isConsistent = true ∧
      t.state.table.residentCount ≤ config.budget ∧
      t.state.policy.tracked.Nodup ∧
      (∀ p ∈ t.state.policy.tracked, (t.state.entry p).resident = true) ∧
      ∀ p, (t.state.entry p).resident = true → 0 < t.state.table.residentCount := by
  obtain ⟨hrobust, hbudget⟩ := robust_lived_of_new hnew incidents
  obtain ⟨herror, hretained⟩ := (hrobust.ensures_step host a).of_error hstop
  have hkept := hretained.robust
  refine ⟨herror, hretained.contents, hkept.isConsistent_table, ?_, hkept.nodup,
    fun p hp => hkept.resident_of_mem hp, fun p hp => hkept.count_pos hp⟩
  rw [← hbudget, ← hretained.budget]
  exact hkept.bounded

/-- A written page has to leave, and only a part of it reaches the swap file. -/
theorem unharmed_of_error_torn_slot : ∃ s₀ es s,
    (new .willing { budget := 1 }).Yields () s₀ () es ∧
      s₀.lived [.action .willing (.fault 0 .notMapped), .action .willing (.fault 0 .accessDenied),
        .store 0 5 7] = s ∧
      ∃ stop t, (Action.fault 1 .notMapped).step { writeSlot := fun _ => some ⟨100, .fileTooLarge⟩ }
          ⟨s, #[]⟩ = .error stop t ∧
        (∀ p, t.state.contents p = s.contents p) ∧ t.state.table.residentCount ≤ 1 := by
  have hvalid : ({ budget := 1 } : Config).validate = .ok () := rfl
  obtain ⟨s₀, es, hnew, hfresh⟩ := exists_fresh Host.ready_willing hvalid ()
  have hh : Host.willing.Obliging := Host.ready_willing.toObliging
  obtain ⟨s, hs⟩ : ∃ s, s₀.lived [.action .willing (.fault 0 .notMapped),
      .action .willing (.fault 0 .accessDenied), .store 0 5 7] = s := ⟨_, rfl⟩
  -- the written page is the only one that the policy holds
  obtain ⟨h, hbudget, hperm, htracked, -⟩ := hfresh.lived_written_page hvalid rfl hh hs
  obtain ⟨victim, policy, hevict, hrest⟩ := Policy.evict_perm (p := s.policy)
    (by rw [htracked]; exact List.cons_ne_nil 0 [])
  have hvictim : victim = 0 := by
    have hmem : victim ∈ s.policy.tracked := hrest.mem_iff.mpr (List.mem_cons_self ..)
    rwa [htracked, List.mem_singleton] at hmem
  subst hvictim
  have hfull : s.budget ≤ s.table.residentCount := by
    rw [h.count, htracked, hbudget]
    exact Nat.le_refl 1
  have hother : (s.entry 1).resident = false := by
    rw [← Bool.not_eq_true, ← h.mem_tracked, htracked]
    decide
  obtain ⟨stop, t, hfault⟩ := exists_stop_of_torn
    { writeSlot := fun _ => some ⟨100, .fileTooLarge⟩ } (classify_of_absent hother .notMapped) hfull
    hevict ((h.cell 0).dirty_of_readWrite hperm) rfl #[]
  have hstop : (Action.fault 1 .notMapped).step { writeSlot := fun _ => some ⟨100, .fileTooLarge⟩ }
      ⟨s, #[]⟩ = .error stop t := by
    simp only [Action.step, bind, EStateM.bind, hfault]
  subst hs
  obtain ⟨-, hcontents, -, hkept, -⟩ := unharmed_of_error hnew _ hstop
  exact ⟨s₀, es, _, hnew, rfl, stop, t, hstop, hcontents, hkept⟩

end DemandPaging.Memory
