import DemandPaging.Proofs.Memory.Sound

/-!
# Faults on sound memory

`s.resolved p kind` is the state after a fault on page `p` that is classified as
`kind`. On sound memory and a host that refuses nothing the procedure that
handles faults ends in exactly this state, whatever the budget and the policy;
the state is sound again, and no page stands for other bytes than before.
-/

namespace DemandPaging.Memory

open Step

variable {host : Host} {s : Memory} {p q : Page} {code : FaultCode} {kind : FaultKind}

/-! ## Eviction -/

/-- `victim` is unloaded, and the policy has let go of it. -/
def evicted (s : Memory) (victim : Page) (policy : Policy) : Memory :=
  { s.unloaded victim with
    policy
    counters := { (s.unloaded victim).counters with
      evictions := (s.unloaded victim).counters.evictions + 1 } }

/-- The policy has a victim where the budget is used up. -/
theorem Sound.exists_victim (h : s.Sound) (hfull : s.budget ≤ s.table.residentCount) :
    ∃ victim policy, s.policy.evict = (some victim, policy) ∧
      s.policy.tracked.Perm (victim :: policy.tracked) := by
  refine Policy.evict_perm fun hnil => ?_
  have hcount := h.count
  have hpositive := h.positive
  rw [hnil, List.length_nil] at hcount
  omega

/-- An eviction leaves sound memory with room for another page. -/
theorem Sound.evicted (h : s.Sound) {victim : Page} {policy : Policy}
    (hperm : s.policy.tracked.Perm (victim :: policy.tracked)) :
    (s.evicted victim policy).Sound ∧
      (s.evicted victim policy).table.residentCount < (s.evicted victim policy).budget := by
  obtain ⟨hsound, hroom⟩ := h.unloaded hperm
  refine ⟨hsound.of_same_cells rfl rfl rfl rfl, ?_⟩
  change (s.unloaded victim).table.residentCount < (s.unloaded victim).budget
  rw [budget_unloaded]
  exact hroom

/-- The victim that the policy chooses is unloaded. -/
theorem yields_evictOne (hh : host.Obliging) (h : s.Sound) {victim : Page} {policy : Policy}
    (hevict : s.policy.evict = (some victim, policy))
    (hperm : s.policy.tracked.Perm (victim :: policy.tracked)) (faulting : Page) :
    (evictOne host faulting).Yields s () (s.evicted victim policy)
      #[.evicting victim faulting, .unmapped victim] := by
  have hr := h.resident_of_perm hperm
  have hchoice : Yields (apply fun s : Memory =>
      (s.policy.evict.1, { s with policy := s.policy.evict.2 })) s (some victim) { s with policy } #[] := by
    have := yields_apply (fun s : Memory =>
      (s.policy.evict.1, { s with policy := s.policy.evict.2 })) s
    rwa [hevict] at this
  have hunload := yields_unload (s := { s with policy }) hh hr (h.isSome_frame victim)
  rw [unloaded_withPolicy] at hunload
  refine hchoice.bind_silent ?_
  change Yields _ _ _ _ (#[.evicting victim faulting] ++ #[.unmapped victim])
  refine (yields_report _ _).bind ?_
  exact hunload.bind_last (yields_update _ _)

/-- One page is unloaded if the budget is used up. -/
def roomMade (s : Memory) : Memory :=
  if s.budget ≤ s.table.residentCount then
    match s.policy.evict with
    | (some victim, policy) => s.evicted victim policy
    | (none, _) => s
  else s

@[simp] theorem budget_roomMade (s : Memory) : s.roomMade.budget = s.budget := by
  unfold roomMade
  split
  · split
    · exact budget_unloaded ..
    · rfl
  · rfl

/-- What is reported when room is made for page `p`. -/
def roomEvents (s : Memory) (p : Page) : Array Event :=
  if s.budget ≤ s.table.residentCount then
    match s.policy.evict.1 with
    | some victim => #[.evicting victim p, .unmapped victim]
    | none => #[]
  else #[]

/-- Room is made by an eviction where the budget is used up. -/
theorem Sound.roomMade_of_full (h : s.Sound) (hfull : s.budget ≤ s.table.residentCount) (p : Page) :
    ∃ victim policy, s.policy.evict = (some victim, policy) ∧
      s.policy.tracked.Perm (victim :: policy.tracked) ∧
      s.roomMade = s.evicted victim policy ∧
      s.roomEvents p = #[.evicting victim p, .unmapped victim] := by
  obtain ⟨victim, policy, hevict, hperm⟩ := h.exists_victim hfull
  refine ⟨victim, policy, hevict, hperm, ?_, ?_⟩
  · rw [Memory.roomMade, if_pos hfull, hevict]
  · rw [roomEvents, if_pos hfull, hevict]

/-- Nothing is done where there is room. -/
theorem roomMade_of_room (hroom : ¬ s.budget ≤ s.table.residentCount) (p : Page) :
    s.roomMade = s ∧ s.roomEvents p = #[] :=
  ⟨if_neg hroom, if_neg hroom⟩

/-- There is room afterwards. -/
theorem Sound.roomMade (h : s.Sound) :
    s.roomMade.Sound ∧ s.roomMade.table.residentCount < s.roomMade.budget := by
  by_cases hfull : s.budget ≤ s.table.residentCount
  · obtain ⟨victim, policy, -, hperm, hstate, -⟩ := h.roomMade_of_full hfull .first
    rw [hstate]
    exact h.evicted hperm
  · rw [(roomMade_of_room hfull .first).1]
    exact ⟨h, Nat.lt_of_not_le hfull⟩

/-- Making room unloads a resident page or none. -/
theorem Sound.cell_roomMade (h : s.Sound) :
    s.roomMade.cell = s.cell ∨ ∃ victim, (s.entry victim).resident = true ∧
      s.roomMade.cell = Function.update s.cell victim (s.cell victim).unload := by
  by_cases hfull : s.budget ≤ s.table.residentCount
  · obtain ⟨victim, policy, -, hperm, hstate, -⟩ := h.roomMade_of_full hfull .first
    rw [hstate]
    exact Or.inr ⟨victim, h.resident_of_perm hperm, cell_unloaded s victim⟩
  · rw [(roomMade_of_room hfull .first).1]
    exact Or.inl rfl

/-- An absent page stays absent while room is made for it. -/
theorem Sound.cell_roomMade_of_absent (h : s.Sound) (hr : (s.entry p).resident = false) :
    s.roomMade.cell p = s.cell p := by
  obtain hsame | ⟨victim, hvictim, hcell⟩ := h.cell_roomMade
  · rw [hsame]
  · have hne : p ≠ victim := by
      intro he
      rw [he, hvictim] at hr
      cases hr
    rw [hcell, Function.update_of_ne hne]

/-- No page stands for other bytes after room was made. -/
theorem Sound.contents_roomMade (h : s.Sound) (q : Page) :
    s.roomMade.contents q = s.contents q := by
  obtain hsame | ⟨victim, hvictim, hcell⟩ := h.cell_roomMade
  · rw [Memory.contents, hsame]
    rfl
  · exact contents_of_update hcell ((h.cell victim).contents_unload hvictim) q

/-! ## The fault -/

/-- A fault is counted. -/
def counted (s : Memory) : Memory :=
  { s with counters := { s.counters with faults := s.counters.faults + 1 } }

/-- The state after a fault on page `p`. -/
def resolved (s : Memory) (p : Page) : FaultKind → Memory
  | .pageIn =>
    { (s.counted.roomMade.loaded p).markAccessed p true with
      policy := s.counted.roomMade.policy.takeIn p }
  | .grantRead => (s.counted.withRights p .read).markAccessed p true
  | .grantWrite => ((s.counted.withRights p .readWrite).markDirty p true).markAccessed p true

@[simp] theorem budget_resolved (s : Memory) (p : Page) (kind : FaultKind) :
    (s.resolved p kind).budget = s.budget := by
  cases kind with
  | pageIn => exact budget_roomMade s.counted
  | grantRead => rfl
  | grantWrite => rfl

/-- What is reported about a fault on page `p`. -/
def faultEvents (s : Memory) (p : Page) (kind : FaultKind) : Array Event :=
  #[.fault p kind] ++
    match kind with
    | .pageIn => s.roomEvents p ++ #[.mapped p .read]
    | .grantRead | .grantWrite => #[]

theorem classify_of_absent (hr : (s.entry p).resident = false) (code : FaultCode) :
    FaultKind.classify p (s.entry p) code = .ok .pageIn :=
  if_neg (by rw [hr]; exact Bool.false_ne_true)

/-- The rights of a resident page decide about a denied access. -/
theorem classify_of_resident (hr : (s.entry p).resident = true) :
    FaultKind.classify p (s.entry p) .accessDenied =
      match (s.entry p).permission with
      | .noAccess => .ok .grantRead
      | .read => .ok .grantWrite
      | .readWrite => .error (.invariant p .alreadyReadWrite) := by
  cases hp : (s.entry p).permission <;>
    simp only [FaultKind.classify, hr, hp, reduceCtorEq, ite_true, ite_false]

/-- A fault is classified as a page that is missing exactly if the page is not resident. -/
theorem resident_of_classify (h : FaultKind.classify p (s.entry p) code = .ok kind) :
    (kind = .pageIn ∧ (s.entry p).resident = false) ∨
      (kind = .grantRead ∧ (s.entry p).resident = true ∧ (s.entry p).permission = .noAccess) ∨
      (kind = .grantWrite ∧ (s.entry p).resident = true ∧ (s.entry p).permission = .read) := by
  unfold FaultKind.classify at h
  cases hr : (s.entry p).resident with
  | false =>
    rw [hr] at h
    cases h
    exact Or.inl ⟨rfl, rfl⟩
  | true =>
    rw [hr, if_pos rfl] at h
    split at h
    · cases h
    · cases hp : (s.entry p).permission with
      | noAccess =>
        rw [hp] at h
        cases h
        exact Or.inr (Or.inl ⟨rfl, rfl, rfl⟩)
      | read =>
        rw [hp] at h
        cases h
        exact Or.inr (Or.inr ⟨rfl, rfl, rfl⟩)
      | readWrite =>
        rw [hp] at h
        cases h

theorem Sound.counted (h : s.Sound) : s.counted.Sound := h.of_same_cells rfl rfl rfl rfl

theorem cell_grantRead (s : Memory) (p : Page) : (s.resolved p .grantRead).cell =
    Function.update s.cell p (((s.cell p).withRights .read).setAccessed true) := by
  simp only [resolved]
  rw [cell_markAccessed, cell_withRights, Function.update_idem, Function.update_self]
  rfl

theorem cell_grantWrite (s : Memory) (p : Page) : (s.resolved p .grantWrite).cell =
    Function.update s.cell p
      ((((s.cell p).withRights .readWrite).setDirty true).setAccessed true) := by
  simp only [resolved]
  rw [cell_markAccessed, cell_markDirty, cell_withRights, Function.update_idem,
    Function.update_idem, Function.update_self, Function.update_self]
  rfl

theorem cell_pageIn (s : Memory) (p : Page) : (s.resolved p .pageIn).cell =
    Function.update s.counted.roomMade.cell p ((s.counted.roomMade.cell p).load.setAccessed true) :=
  cell_loaded_used s.counted.roomMade p

/-- A fault on page `p` loads it, and the budget admits it. -/
structure Admission (s : Memory) (p : Page) : Prop where
  /-- There is room for a page. -/
  room : s.table.residentCount < s.budget
  /-- What is reported. -/
  events : s.faultEvents p .pageIn = #[.fault p .pageIn, .mapped p .read]
  /-- A fault and a load are counted. -/
  counters : (s.resolved p .pageIn).counters =
    { s.counters with faults := s.counters.faults + 1, loads := s.counters.loads + 1 }
  /-- One more page is resident. -/
  count : (s.resolved p .pageIn).table.residentCount = s.table.residentCount + 1
  /-- The policy takes the page in. -/
  policy : (s.resolved p .pageIn).policy = s.policy.takeIn p
  /-- No other page is touched. -/
  cell : (s.resolved p .pageIn).cell = Function.update s.cell p ((s.cell p).load.setAccessed true)

/-- A fault on page `p` loads it after `victim` left, of which the policy `rest` has let go. -/
structure Exchange (s : Memory) (p victim : Page) (rest : Policy) : Prop where
  /-- The budget is used up. -/
  full : s.table.residentCount = s.budget
  /-- The policy chooses the page that leaves. -/
  evict : s.policy.evict = (some victim, rest)
  /-- The page that leaves was resident. -/
  resident : (s.entry victim).resident = true
  /-- What is reported. -/
  events : s.faultEvents p .pageIn =
    #[.fault p .pageIn, .evicting victim p, .unmapped victim, .mapped p .read]
  /-- A fault, a load and an eviction are counted, and a flush if the page that leaves was written.
  -/
  counters : (s.resolved p .pageIn).counters =
    { s.counters with
      faults := s.counters.faults + 1, loads := s.counters.loads + 1
      evictions := s.counters.evictions + 1
      flushes := s.counters.flushes + (s.entry victim).dirty.toNat }
  /-- As many pages are resident. -/
  count : (s.resolved p .pageIn).table.residentCount = s.table.residentCount
  /-- The policy takes the page in. -/
  policy : (s.resolved p .pageIn).policy = rest.takeIn p
  /-- No other page is touched. -/
  cell : (s.resolved p .pageIn).cell =
    Function.update (Function.update s.cell victim (s.cell victim).unload) p
      ((s.cell p).load.setAccessed true)

/-- The number of resident pages after an absent page was loaded. -/
theorem Sound.residentCount_pageIn (h : s.Sound) (hr : (s.entry p).resident = false) :
    (s.resolved p .pageIn).table.residentCount = s.counted.roomMade.table.residentCount + 1 := by
  have habsent : (s.counted.roomMade.entry p).resident = false := by
    rw [← entry_cell, h.counted.cell_roomMade_of_absent (p := p) hr]
    exact hr
  have hused : ((s.counted.roomMade.loaded p).markAccessed p true).table.residentCount =
      (s.counted.roomMade.loaded p).table.residentCount := rfl
  simp only [Memory.resolved, hused]
  exact residentCount_loaded habsent

/-- Where there is room, an absent page is loaded at once. -/
theorem Sound.admission (h : s.Sound) (hr : (s.entry p).resident = false)
    (hroom : s.table.residentCount < s.budget) : s.Admission p := by
  obtain ⟨hstate, hevents⟩ := roomMade_of_room (s := s.counted) (Nat.not_le.mpr hroom) p
  have hcell := cell_pageIn s p
  have hcount := h.residentCount_pageIn hr
  rw [hstate] at hcell hcount
  constructor
  · exact hroom
  · have hnone : s.roomEvents p = #[] := hevents
    simp only [faultEvents, hnone]
    rfl
  · simp only [Memory.resolved, hstate]
    rfl
  · exact hcount
  · simp only [Memory.resolved, hstate]
    rfl
  · exact hcell

/-- Where the budget is used up, an absent page is loaded after another one left. -/
theorem Sound.exists_exchange (h : s.Sound) (hr : (s.entry p).resident = false)
    (hfull : s.budget ≤ s.table.residentCount) : ∃ victim rest, s.Exchange p victim rest := by
  obtain ⟨victim, rest, hevict, hperm, hstate, hevents⟩ := h.counted.roomMade_of_full hfull p
  have hvictim := h.resident_of_perm hperm
  have hbounded := h.bounded
  rw [← h.count] at hbounded
  refine ⟨victim, rest, by omega, hevict, hvictim, ?_, ?_, ?_, ?_, ?_⟩
  · have hroom : s.roomEvents p = #[.evicting victim p, .unmapped victim] := hevents
    simp only [faultEvents, hroom]
    rfl
  · have hcounters : (s.resolved p .pageIn).counters =
        { s.counted.roomMade.counters with loads := s.counted.roomMade.counters.loads + 1 } := rfl
    have hunloaded := counters_unloaded s.counted victim
    rw [hcounters, hstate]
    simp only [Memory.evicted, hunloaded]
    rfl
  · have hunloaded : s.counted.roomMade.table.residentCount = s.table.residentCount - 1 := by
      rw [hstate]
      exact residentCount_unloaded hvictim
    have hpositive := h.positive
    rw [h.residentCount_pageIn hr, hunloaded]
    omega
  · simp only [Memory.resolved, hstate]
    rfl
  · have hroom : s.counted.roomMade.cell =
        Function.update s.cell victim (s.cell victim).unload := by
      rw [hstate]
      exact cell_unloaded s.counted victim
    rw [cell_pageIn s p, h.counted.cell_roomMade_of_absent (p := p) hr, hroom]
    rfl

/-- What a fault on an absent page can do: the page is loaded where there is room, or a resident
page leaves before. -/
theorem Sound.pageIn_cases (h : s.Sound) (hr : (s.entry p).resident = false) :
    s.Admission p ∨ ∃ victim rest, s.Exchange p victim rest := by
  by_cases hfull : s.budget ≤ s.table.residentCount
  · exact Or.inr (h.exists_exchange hr hfull)
  · exact Or.inl (h.admission hr (Nat.lt_of_not_le hfull))

/-- Of the other pages, those that are still resident are untouched. -/
theorem Sound.entry_pageIn_of_ne (h : s.Sound) (hr : (s.entry p).resident = false) (hq : q ≠ p)
    (hres : ((s.resolved p .pageIn).entry q).resident = true) :
    (s.resolved p .pageIn).entry q = s.entry q := by
  rw [← entry_cell] at hres ⊢
  rcases h.pageIn_cases hr with hdirect | ⟨victim, rest, hexchange⟩
  · rw [hdirect.cell, Function.update_of_ne hq, entry_cell]
  · rw [hexchange.cell, Function.update_of_ne hq] at hres ⊢
    by_cases hv : q = victim
    · subst hv
      rw [Function.update_self] at hres
      cases hres
    · rw [Function.update_of_ne hv, entry_cell]

/-- A page that is loaded can be read, and was not written. -/
theorem Sound.entry_pageIn (h : s.Sound) (hr : (s.entry p).resident = false) :
    (s.resolved p .pageIn).entry p = .present .read false := by
  have hroom := h.counted.cell_roomMade_of_absent (p := p) hr
  have hempty : s.cell p = ⟨.empty, s.mapping.frame p, s.swap.slot p⟩ := by
    rw [← h.entry_eq_empty hr]
    rfl
  rw [entry_of_update (cell_pageIn s p), if_pos rfl, hroom, show s.counted.cell p = s.cell p from rfl,
    hempty]
  rfl

/-- A page that may be read again is remembered as written if it was. -/
theorem entry_grantRead {dirty : Bool} (he : s.entry p = .present .noAccess dirty) :
    (s.resolved p .grantRead).entry p = .present .read dirty := by
  rw [entry_of_update (cell_grantRead s p), if_pos rfl]
  change ({ (s.entry p).withPermission .read with accessed := true } : Entry) = _
  rw [he]
  rfl

/-- A page that becomes writable counts as written. -/
theorem entry_grantWrite {dirty : Bool} (he : s.entry p = .present .read dirty) :
    (s.resolved p .grantWrite).entry p = .present .readWrite true := by
  rw [entry_of_update (cell_grantWrite s p), if_pos rfl]
  change ({ (s.entry p).withPermission .readWrite with dirty := true, accessed := true } : Entry) = _
  rw [he]
  rfl

/-- A fault leaves sound memory. -/
theorem Sound.resolved (h : s.Sound) (hk : FaultKind.classify p (s.entry p) code = .ok kind) :
    (s.resolved p kind).Sound := by
  obtain ⟨rfl, hr⟩ | ⟨rfl, hr, hp⟩ | ⟨rfl, hr, -⟩ := resident_of_classify hk
  · obtain ⟨hsound, hroom⟩ := h.counted.roomMade
    have hcell := h.counted.cell_roomMade_of_absent (p := p) hr
    refine hsound.loaded ?_ hroom
    rw [← entry_cell, hcell]
    exact hr
  · refine h.of_update (cell_grantRead s p) ((h.cell p).grantRead hr hp) ?_ rfl rfl rfl
    rfl
  · refine h.of_update (cell_grantWrite s p) ((h.cell p).grantWrite hr) ?_ rfl rfl rfl
    rfl

/-- A fault changes the bytes of no page. -/
theorem Sound.contents_resolved (h : s.Sound)
    (hk : FaultKind.classify p (s.entry p) code = .ok kind) (q : Page) :
    (s.resolved p kind).contents q = s.contents q := by
  obtain ⟨rfl, hr⟩ | ⟨rfl, hr, hp⟩ | ⟨rfl, hr, -⟩ := resident_of_classify hk
  · have habsent : (s.counted.roomMade.cell p).entry.resident = false := by
      rw [h.counted.cell_roomMade_of_absent (p := p) hr]
      exact hr
    have hloaded := contents_of_update (cell_pageIn s p) (Cell.contents_load habsent) q
    exact hloaded.trans (h.counted.contents_roomMade q)
  · refine contents_of_update (cell_grantRead s p) ?_ q
    rw [Cell.contents_setAccessed, Cell.contents_withRights]
    rfl
  · refine contents_of_update (cell_grantWrite s p) ?_ q
    rw [Cell.contents_setAccessed, Cell.contents_setDirty, Cell.contents_withRights]
    rfl

/-- Of all faults, only the one that makes a page writable marks a page as written. -/
theorem Sound.dirty_of_resolved (h : s.Sound)
    (hk : FaultKind.classify p (s.entry p) code = .ok kind)
    (hd : ((s.resolved p kind).entry q).dirty = true) :
    (s.entry q).dirty = true ∨ kind = .grantWrite ∧ q = p := by
  obtain ⟨rfl, hr⟩ | ⟨rfl, -, -⟩ | ⟨rfl, -, -⟩ := resident_of_classify hk
  · left
    rw [entry_of_update (cell_pageIn s p)] at hd
    have hroom : (s.counted.roomMade.entry q).dirty = true := by
      split at hd
      · rename_i hq
        exact hq ▸ hd
      · exact hd
    obtain hsame | ⟨victim, -, hcell⟩ := h.counted.cell_roomMade
    · rwa [← entry_cell, hsame] at hroom
    · rw [entry_of_update hcell] at hroom
      split at hroom
      · cases hroom
      · exact hroom
  · left
    rw [entry_of_update (cell_grantRead s p)] at hd
    split at hd
    · rename_i hq
      exact hq ▸ hd
    · exact hd
  · by_cases hq : q = p
    · exact Or.inr ⟨rfl, hq⟩
    · left
      rwa [entry_of_update (cell_grantWrite s p), if_neg hq] at hd

/-- A fault on a resident page neither loads nor evicts, and it marks that page as written if it
makes it writable. -/
theorem entry_resolved_of_ne_pageIn (s : Memory) (p q : Page) (hkind : kind ≠ .pageIn) :
    ((s.resolved p kind).entry q).resident = (s.entry q).resident ∧
      ((s.resolved p kind).entry q).dirty =
        ((s.entry q).dirty || decide (kind = .grantWrite ∧ q = p)) := by
  cases kind with
  | pageIn => exact absurd rfl hkind
  | grantRead =>
    rw [entry_of_update (cell_grantRead s p)]
    by_cases hq : q = p
    · subst hq
      rw [if_pos rfl]
      exact ⟨rfl, by simp [Cell.setAccessed, Cell.withRights, Entry.withPermission]⟩
    · simp [hq]
  | grantWrite =>
    rw [entry_of_update (cell_grantWrite s p)]
    by_cases hq : q = p
    · subst hq
      rw [if_pos rfl]
      exact ⟨rfl, by simp [Cell.setAccessed, Cell.setDirty]⟩
    · simp [hq]

/-- A page that becomes writable counts as written at once. -/
theorem dirty_grantWrite (s : Memory) (p : Page) :
    ((s.resolved p .grantWrite).entry p).dirty = true := by
  rw [entry_of_update (cell_grantWrite s p), if_pos rfl]
  rfl

/-- A fault that cannot be classified is refused and changes nothing. -/
theorem handleFault_of_refused {e : PagerError} (host : Host)
    (hk : FaultKind.classify p (s.entry p) code = .error e) (journal : Array Event) :
    handleFault host p code ⟨s, journal⟩ = .error (.error e) ⟨s, journal⟩ := by
  have hq : query (·.entry p) ⟨s, journal⟩ = .ok (s.entry p) ⟨s, journal⟩ := rfl
  simp only [handleFault, bind, EStateM.bind, hq, hk]
  rfl

/-- A page that the policy does not hold is handed to it. -/
theorem yields_track (hp : p ∉ s.policy.tracked) :
    (track p).Yields s () { s with policy := s.policy.takeIn p } #[] := by
  refine (yields_query _ s).bind_silent ?_
  refine (yields_ofChecked (Policy.insert_eq_takeIn hp) s).bind_silent ?_
  exact yields_update _ s

/-- A page that is not resident is loaded where there is room, and the policy takes it in. -/
private theorem yields_pageIn (hh : host.Obliging) (h : s.Sound) (hr : (s.entry p).resident = false)
    (hroom : s.table.residentCount < s.budget) :
    Yields (do
      load host p .read
      record (·.setAccessed p true)
      track p
      return FaultKind.pageIn) s .pageIn
      { (s.loaded p).markAccessed p true with policy := s.policy.takeIn p } #[.mapped p .read] := by
  have htrack : (track p).Yields ((s.loaded p).markAccessed p true) ()
      { (s.loaded p).markAccessed p true with policy := s.policy.takeIn p } #[] :=
    yields_track (h.not_mem_tracked hr)
  refine (yields_load hh hroom).bind_last ?_
  refine (yields_update _ _).bind_silent ?_
  exact htrack.bind_silent (Yields.pure _ _)

/-- A fault that can be classified is resolved. -/
theorem yields_handleFault (hh : host.Obliging) (h : s.Sound)
    (hk : FaultKind.classify p (s.entry p) code = .ok kind) :
    (handleFault host p code).Yields s kind (s.resolved p kind) (s.faultEvents p kind) := by
  refine (yields_query _ s).bind_silent ?_
  refine (yields_ofExcept hk s).bind_silent ?_
  refine (yields_update _ s).bind_silent ?_
  refine (yields_report _ s.counted).bind ?_
  obtain ⟨rfl, hr⟩ | ⟨rfl, hr, hp⟩ | ⟨rfl, hr, -⟩ := resident_of_classify hk
  · refine (yields_query _ s.counted).bind_silent ?_
    obtain ⟨hsound, hroom⟩ := h.counted.roomMade
    have habsent : (s.counted.roomMade.entry p).resident = false := by
      rw [← entry_cell, h.counted.cell_roomMade_of_absent (p := p) hr]
      exact hr
    -- what follows is the same whether or not a page has to leave first
    have hrest := yields_pageIn hh hsound habsent hroom
    change Yields _ _ _ _ (s.counted.roomEvents p ++ #[.mapped p .read])
    by_cases hfull : s.counted.budget ≤ s.counted.table.residentCount
    · obtain ⟨victim, policy, hevict, hperm, hstate, hevents⟩ := h.counted.roomMade_of_full hfull p
      rw [if_pos (decide_eq_true hfull), hevents]
      rw [hstate] at hrest
      simp only [resolved, hstate]
      exact (yields_evictOne hh h.counted hevict hperm p).bind hrest
    · obtain ⟨hstate, hevents⟩ := roomMade_of_room hfull p
      rw [if_neg (by rwa [decide_eq_true_iff]), hevents, Array.empty_append]
      rw [hstate] at hrest
      simp only [resolved, hstate]
      exact hrest
  · refine (yields_protect hh (h.counted.isSome_frame p) .read).bind_silent ?_
    refine (yields_update _ _).bind_silent ?_
    exact Yields.pure _ _
  · refine (yields_protect hh (h.counted.isSome_frame p) .readWrite).bind_silent ?_
    refine (yields_update _ _).bind_silent ?_
    exact Yields.pure _ _

end DemandPaging.Memory
