import DemandPaging.Proofs.Memory.History

/-!
# Faults that are rejected

A fault can contradict what the page table records: a resident page is never unmapped, and a page
with full rights never denies an access. Such a fault is rejected at the start, and it leaves no
trace. Any other fault is resolved. On the way there the handler checks four more rules: there is a
victim, it is resident, the budget admits the page, and the policy does not hold the page yet. On
sound memory none of these checks ever fails, at whatever point the host stops the handler. Only the
host stops it.
-/

namespace DemandPaging

/-- A page with the entry `e` cannot raise a fault with this code. -/
def Entry.RulesOut (e : Entry) (code : FaultCode) : Prop :=
  e.resident = true ∧ (code = .notMapped ∨ e.permission = .readWrite)

/-- The rule that a fault with this code breaks on a page that cannot raise it. -/
def FaultCode.objection (code : FaultCode) : Violation :=
  if code = .notMapped then .residentUnmapped else .alreadyReadWrite

/-- The host refused to change the mapping or to move a page between memory and swap file. -/
inductive Stop.OfHost : Stop → Prop
  /-- The mapping was not changed. -/
  | map (e : MapError) : OfHost (.error (.map e))
  /-- A slot was not read or not written as a whole. -/
  | swap (e : SwapError) : OfHost (.error (.swap e))

/-- What is refused with a host's failure of the mapping. -/
theorem Stop.ofHost_of_map {o : Option MapError} {e : PagerError} (h : o.map .map = some e) :
    OfHost (.error e) := by
  cases o with
  | none => cases h
  | some cause =>
    cases h
    exact .map cause

/-- What is refused with a host's failure of the swap file. -/
theorem Stop.ofHost_of_swap {o : Option SwapError} {e : PagerError} (h : o.map .swap = some e) :
    OfHost (.error e) := by
  cases o with
  | none => cases h
  | some cause =>
    cases h
    exact .swap cause

namespace Memory

open Step

variable {host host₀ : Host} {config : Config} {s : Memory} {p : Page} {code : FaultCode}
  {kind : FaultKind}

/-! ## Classification -/

/-- A fault that the entry rules out is not classified. -/
theorem classify_of_rulesOut (h : (s.entry p).RulesOut code) :
    FaultKind.classify p (s.entry p) code = .error (.invariant p code.objection) := by
  rcases h with ⟨hr, hcase⟩
  by_cases hcode : code = .notMapped
  · simp only [FaultKind.classify, FaultCode.objection, hr, hcode, ite_true]
  · have hp := hcase.resolve_left hcode
    simp only [FaultKind.classify, FaultCode.objection, hr, hp, hcode, ite_true, ite_false]

/-- Every other fault is. -/
theorem exists_classify_of_not_rulesOut (h : ¬ (s.entry p).RulesOut code) :
    ∃ kind, FaultKind.classify p (s.entry p) code = .ok kind := by
  cases hr : (s.entry p).resident with
  | false => exact ⟨.pageIn, classify_of_absent hr code⟩
  | true =>
    have hcode : code ≠ .notMapped := by
      intro hn
      exact h ⟨hr, Or.inl hn⟩
    cases hp : (s.entry p).permission with
    | noAccess =>
      refine ⟨.grantRead, ?_⟩
      simp only [FaultKind.classify, hr, hp, hcode, ite_true, ite_false]
    | read =>
      refine ⟨.grantWrite, ?_⟩
      simp only [FaultKind.classify, hr, hp, hcode, ite_true, ite_false]
    | readWrite => exact absurd ⟨hr, Or.inr hp⟩ h

/-! ## Where the handler can stop -/

/-- Only the host stops the step. -/
def OnlyHost {α : Type} (x : Step Memory α) (s : Memory) : Prop :=
  x.Ensures s (fun _ _ => True) fun stop _ => stop.OfHost

theorem onlyHost_protect (host : Host) (s : Memory) (p : Page) (perm : Permission) :
    OnlyHost (protect host p perm) s := by
  refine (yields_query _ s).ensures_bind ?_
  refine ensures_refuse_bind ?_ fun e he => Stop.ofHost_of_map he
  intro _
  refine (yields_update _ s).ensures_bind ?_
  exact (yields_update _ _).ensures trivial

theorem onlyHost_flush (host : Host) (s : Memory) (p : Page) :
    OnlyHost (flush host p) s := by
  refine (onlyHost_protect host s p .read).bind ?_
  intro _ t _
  refine (yields_update _ t).ensures_bind ?_
  refine ensures_refuse_bind ?_ fun e he => Stop.ofHost_of_swap he
  intro _
  refine (yields_update _ _).ensures_bind ?_
  exact (yields_update _ _).ensures trivial

/-- A resident page is unloaded unless the host refuses. -/
theorem onlyHost_unload (host : Host) (hr : (s.entry p).resident = true) :
    OnlyHost (unload host p) s := by
  have hrest (t : Memory) : OnlyHost (do
      refuse ((Mapping.unbindFailure host p).map .map)
      update fun s => { s with mapping := s.mapping.unbind p }
      record (·.clear p)
      report (.unmapped p)) t := by
    refine ensures_refuse_bind ?_ fun e he => Stop.ofHost_of_map he
    intro _
    refine (yields_update _ t).ensures_bind ?_
    refine (yields_update _ _).ensures_bind ?_
    exact (yields_report _ _).ensures trivial
  refine (yields_query _ s).ensures_bind ?_
  refine (yields_refuse (if_pos hr) s).ensures_bind ?_
  split
  · apply (onlyHost_flush host s p).bind
    intro _ t _
    exact hrest t
  · exact hrest s

/-- Where the budget is used up there is a victim, and it is resident. -/
theorem Sound.onlyHost_evictOne (h : s.Sound) (host : Host)
    (hfull : s.budget ≤ s.table.residentCount) (faulting : Page) :
    OnlyHost (evictOne host faulting) s := by
  obtain ⟨victim, policy, hevict, hperm⟩ := h.exists_victim hfull
  have hr : (s.entry victim).resident = true := h.resident_of_perm hperm
  refine (yields_apply _ s).ensures_bind ?_
  rw [hevict]
  refine (yields_report _ _).ensures_bind ?_
  refine (onlyHost_unload (s := { s with policy }) host hr).bind ?_
  intro _ t _
  exact (yields_update _ t).ensures trivial

/-- Where the budget admits the page it is loaded unless the host refuses. -/
theorem onlyHost_load (host : Host) (p : Page) (hroom : s.table.residentCount < s.budget) :
    OnlyHost (load host p .read) s := by
  have hfull : decide (s.budget < s.table.residentCount + 1) = false := decide_eq_false (by omega)
  refine (yields_query _ s).ensures_bind ?_
  refine (yields_refuse (by rw [hfull]; rfl) s).ensures_bind ?_
  refine ensures_refuse_bind ?_ fun e he => Stop.ofHost_of_map he
  intro _
  refine (yields_update _ s).ensures_bind ?_
  refine (yields_query _ _).ensures_bind ?_
  refine ensures_ofExcept_bind ?_ ?_
  · intro image _
    refine (yields_update _ _).ensures_bind ?_
    refine (yields_update _ _).ensures_bind ?_
    refine (onlyHost_protect host _ p .read).bind ?_
    intro _ t _
    refine (yields_update _ t).ensures_bind ?_
    exact (yields_report _ _).ensures trivial
  · intro e he
    unfold SwapFile.read at he
    split at he
    · cases he
      exact .swap _
    · cases he

/-- A page that was just loaded is not one that the policy holds. -/
theorem Robust.onlyHost_pageIn (h : s.Robust) (host : Host) (hr : (s.entry p).resident = false)
    (hroom : s.table.residentCount < s.budget) :
    OnlyHost (do
      load host p .read
      record (·.setAccessed p true)
      track p
      return FaultKind.pageIn) s := by
  have hload : (load host p .read).Ensures s (fun _ t => t = s.loaded p) fun stop _ => stop.OfHost :=
    (h.ensures_load hr hroom).of_end_of_stop (onlyHost_load host p hroom)
  refine hload.bind ?_
  rintro ⟨⟩ _ rfl
  refine (yields_update _ _).ensures_bind ?_
  refine (yields_track (s := (s.loaded p).markAccessed p true) (h.not_mem_tracked hr)).ensures_bind ?_
  exact (Yields.pure _ _).ensures trivial

/-- A fault that can be classified is resolved unless the host refuses. -/
theorem Sound.onlyHost_handleFault (h : s.Sound) (host : Host)
    (hk : FaultKind.classify p (s.entry p) code = .ok kind) :
    OnlyHost (handleFault host p code) s := by
  refine (yields_query _ s).ensures_bind ?_
  refine (yields_ofExcept hk s).ensures_bind ?_
  refine (yields_update _ s).ensures_bind ?_
  refine (yields_report _ s.counted).ensures_bind ?_
  rcases resident_of_classify hk with ⟨rfl, hr⟩ | ⟨rfl, -, -⟩ | ⟨rfl, -, -⟩
  · refine (yields_query _ s.counted).ensures_bind ?_
    by_cases hfull : s.counted.budget ≤ s.counted.table.residentCount
    · rw [if_pos (decide_eq_true hfull)]
      -- an eviction that the host lets pass makes room for the page
      have hevict := (h.counted.robust.ensures_evictOne p).of_end_of_stop
        (h.counted.onlyHost_evictOne host hfull p)
      apply hevict.bind
      rintro _ _ ⟨victim, policy, hchoice, rfl⟩
      obtain ⟨ht, hroom, habsent⟩ := h.counted.robust.evicted hchoice
      exact ht.robust.onlyHost_pageIn host (habsent p hr) hroom
    · rw [if_neg (by rwa [decide_eq_true_iff])]
      exact h.counted.robust.onlyHost_pageIn host hr (Nat.lt_of_not_le hfull)
  · refine (onlyHost_protect host s.counted p .read).bind ?_
    intro _ t _
    refine (yields_update _ t).ensures_bind ?_
    exact (Yields.pure _ _).ensures trivial
  · refine (onlyHost_protect host s.counted p .readWrite).bind ?_
    intro _ t _
    refine (yields_update _ t).ensures_bind ?_
    exact (Yields.pure _ _).ensures trivial

/-! ## The outcome of a fault -/

/-- Memory was set up, and any incidents happened while the host refused nothing. A fault on a page
that cannot raise it is rejected, with the rule that it breaks and the page, and the whole of memory
stays as it is. On a host that refuses nothing this is the only way in which a fault can fail. Where
the host refuses what the fault needs, it fails with that refusal and never with a rule of the pager
or a panic. -/
theorem handleFault_outcome_of_new {s₀ : Memory} {es : Array Event}
    (hnew : (new host₀ config).Yields () s₀ () es) {incidents : List Incident}
    (hall : ∀ x ∈ incidents, x.Obliged) (p : Page) (code : FaultCode) (journal : Array Event) :
    (((s₀.lived incidents).entry p).RulesOut code →
      ∀ host, handleFault host p code ⟨s₀.lived incidents, journal⟩ =
        .error (.error (.invariant p code.objection)) ⟨s₀.lived incidents, journal⟩) ∧
    (∀ host, host.Obliging →
      ((∃ stop t, handleFault host p code ⟨s₀.lived incidents, journal⟩ = .error stop t) ↔
        ((s₀.lived incidents).entry p).RulesOut code) ∧
      (¬ ((s₀.lived incidents).entry p).RulesOut code →
        ∃ kind t, handleFault host p code ⟨s₀.lived incidents, journal⟩ = .ok kind t)) ∧
    (¬ ((s₀.lived incidents).entry p).RulesOut code →
      ∀ host stop t, handleFault host p code ⟨s₀.lived incidents, journal⟩ = .error stop t →
        stop.OfHost) := by
  obtain ⟨hfresh, hvalid⟩ := fresh_of_new hnew
  have h := (hfresh.sound hvalid).lived hall
  have rejected (hout : ((s₀.lived incidents).entry p).RulesOut code) (host : Host) :=
    handleFault_of_refused host (classify_of_rulesOut hout) journal
  have resolved (hout : ¬ ((s₀.lived incidents).entry p).RulesOut code) {host : Host}
      (hh : host.Obliging) :
      ∃ kind t, handleFault host p code ⟨s₀.lived incidents, journal⟩ = .ok kind t := by
    obtain ⟨kind, hk⟩ := exists_classify_of_not_rulesOut hout
    exact ⟨kind, _, yields_handleFault hh h hk journal⟩
  refine ⟨rejected, ?_, ?_⟩
  · intro host hh
    refine ⟨⟨?_, ?_⟩, fun hout => resolved hout hh⟩
    · rintro ⟨stop, t, hstop⟩
      by_contra hout
      obtain ⟨kind, u, hok⟩ := resolved hout hh
      rw [hok] at hstop
      cases hstop
    · intro hout
      exact ⟨_, _, rejected hout host⟩
  · intro hout host stop t hstop
    obtain ⟨kind, hk⟩ := exists_classify_of_not_rulesOut hout
    exact (h.onlyHost_handleFault host hk).of_error hstop

/-- Page 0 was written. A further fault on it is rejected, whatever its code; a fault on page 1 has
page 0 leave. -/
theorem handleFault_outcome_of_new_written_page : ∃ s₀ es s,
    (new .willing { budget := 1 }).Yields () s₀ () es ∧
      s₀.lived [.action .willing (.fault 0 .notMapped), .action .willing (.fault 0 .accessDenied)] = s ∧
      handleFault .willing 0 .notMapped ⟨s, #[]⟩ =
        .error (.error (.invariant 0 .residentUnmapped)) ⟨s, #[]⟩ ∧
      handleFault .willing 0 (.other 128) ⟨s, #[]⟩ =
        .error (.error (.invariant 0 .alreadyReadWrite)) ⟨s, #[]⟩ ∧
      ∃ kind t, handleFault .willing 1 .notMapped ⟨s, #[]⟩ = .ok kind t := by
  have hvalid : ({ budget := 1 } : Config).validate = .ok () := rfl
  obtain ⟨s₀, es, hnew, hfresh⟩ := exists_fresh Host.ready_willing hvalid ()
  have hh : Host.willing.Obliging := Host.ready_willing.toObliging
  have habsent : (s₀.entry 0).resident = false := by
    rw [hfresh.entry]
    rfl
  have hall : ∀ x ∈ [Incident.action .willing (.fault 0 .notMapped),
      .action .willing (.fault 0 .accessDenied)], x.Obliged := by
    intro x hx
    simp only [List.mem_cons, List.not_mem_nil, or_false] at hx
    rcases hx with rfl | rfl <;> exact hh
  obtain ⟨h, hperm⟩ := (hfresh.sound hvalid).lived_two_faults hh habsent .notMapped
  have hr := ((h.cell 0).of_allowsRead (by rw [entry_cell, hperm]; rfl)).1
  have hbudget := (robust_lived_of_new hnew [.action .willing (.fault 0 .notMapped),
    .action .willing (.fault 0 .accessDenied)]).2
  refine ⟨s₀, es, _, hnew, rfl, ?_, ?_, ?_⟩
  · exact (handleFault_outcome_of_new hnew hall 0 .notMapped #[]).1 ⟨hr, Or.inl rfl⟩ .willing
  · exact (handleFault_outcome_of_new hnew hall 0 (.other 128) #[]).1 ⟨hr, Or.inr hperm⟩ .willing
  · refine ((handleFault_outcome_of_new hnew hall 1 .notMapped #[]).2.1 .willing hh).2 ?_
    rintro ⟨hr₁, -⟩
    have htracked := h.tracked_eq_singleton hbudget hr
    rw [← h.mem_tracked, htracked] at hr₁
    revert hr₁
    decide

end Memory

end DemandPaging
