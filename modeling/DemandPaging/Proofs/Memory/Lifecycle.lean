import DemandPaging.Proofs.Memory.Withdrawal

/-!
# The life of a page table entry

An entry begins empty. A load makes it readable, a fault of a store makes it writable and marks it
as written, a tick of a clock withdraws its rights, a further fault gives the right to read back,
and an eviction empties it again. `Entry.Changes` lists these changes; every step of memory on a
host that refuses nothing makes one of them at an entry, or none. The entries that can be reached
along them are six, and three under a policy that takes no notice of ticks. Each of them occurs at
every page.
-/

namespace DemandPaging

namespace Entry

/-- One change in the life of an entry under a policy of the given kind. -/
inductive Changes (kind : PolicyKind) : Entry → Entry → Prop
  /-- The page is loaded and can be read. -/
  | load : Changes kind .empty (.present .read false)
  /-- A page without rights may be read again. -/
  | grantRead (dirty : Bool) : Changes kind (.present .noAccess dirty) (.present .read dirty)
  /-- A readable page becomes writable and counts as written. -/
  | grantWrite (dirty : Bool) : Changes kind (.present .read dirty) (.present .readWrite true)
  /-- A clock withdraws the rights of a page that was used. -/
  | withdraw (perm : Permission) (dirty : Bool) (hkind : kind = .clock) :
      Changes kind (.present perm dirty) (.present .noAccess dirty)
  /-- The page leaves. -/
  | clear (perm : Permission) (dirty : Bool) : Changes kind (.present perm dirty) .empty

/-- The entries that occur under a policy of the given kind. -/
def states : PolicyKind → List Entry
  | .clock => [.empty, .present .read false, .present .read true, .present .readWrite true,
      .present .noAccess false, .present .noAccess true]
  | .fifo | .random => [.empty, .present .read false, .present .readWrite true]

variable {kind : PolicyKind} {e e' : Entry}

theorem empty_mem_states (kind : PolicyKind) : .empty ∈ states kind := by
  cases kind <;> decide

/-- No change leads to an entry that does not occur. -/
theorem Changes.mem_states (h : Changes kind e e') (he : e ∈ states kind) : e' ∈ states kind := by
  cases h with
  | load => cases kind <;> decide
  | grantRead dirty => revert he; cases kind <;> cases dirty <;> decide
  | grantWrite dirty => cases kind <;> decide
  | withdraw perm dirty hkind => subst hkind; cases dirty <;> decide
  | clear perm dirty => exact empty_mem_states kind

/-- The bytes in which the entries that occur are stored. -/
def stateBytes : PolicyKind → List Nat
  | .clock => [0x00, 0x13, 0x17, 0x27, 0x01, 0x05]
  | .fifo | .random => [0x00, 0x13, 0x27]

/-- No entry is lost in its byte. -/
theorem ofBits_bits (e : Entry) : ofBits e.bits = e := by
  have hall : ∀ (r a d : Bool) (rights : Fin 4) (spare : Fin 8),
      ofBits (bits ⟨r, a, d, rights, spare⟩) = ⟨r, a, d, rights, spare⟩ := by decide +kernel
  exact hall ..

theorem mem_states_iff : e ∈ states kind ↔ e.bits ∈ stateBytes kind := by
  have hbytes : (states kind).map bits = stateBytes kind := by cases kind <;> decide
  rw [← hbytes, List.mem_map]
  constructor
  · intro he
    exact ⟨e, he, rfl⟩
  · rintro ⟨e', he', hbits⟩
    rw [← ofBits_bits e, ← hbits, ofBits_bits]
    exact he'

end Entry


namespace Memory

variable {host host₀ : Host} {config : Config} {s t : Memory} {p : Page} {code : FaultCode}
  {dirty : Bool}

/-! ## The kind of the policy -/

@[simp] theorem kind_roomMade (s : Memory) : s.roomMade.policy.kind = s.policy.kind := by
  have hkind := s.policy.kind_evict
  unfold roomMade
  split
  · split
    · rename_i victim policy hevict
      rw [hevict] at hkind
      exact hkind
    · rfl
  · rfl

@[simp] theorem kind_resolved (s : Memory) (p : Page) (kind : FaultKind) :
    (s.resolved p kind).policy.kind = s.policy.kind := by
  cases kind with
  | pageIn => exact (Policy.kind_takeIn _ p).trans (kind_roomMade s.counted)
  | grantRead => rfl
  | grantWrite => rfl

/-- Memory keeps the kind of its policy. -/
theorem Next.kind (hn : Next s t) : t.policy.kind = s.policy.kind := by
  cases hn with
  | same => rfl
  | resolved hk => exact kind_resolved ..
  | ticked hh => exact Policy.kind_tick ..
  | allocated n => rfl
  | stored hp i b => rfl

/-! ## What faults and ticks make of an entry -/

/-- An entry stays as it is, or it changes in one of the ways listed. -/
def EntryStep (s t : Memory) (q : Page) : Prop :=
  t.entry q = s.entry q ∨ Entry.Changes s.policy.kind (s.entry q) (t.entry q)

/-- The entry of a resident page is determined by its rights and by whether it was written. -/
theorem Sound.entry_eq_present (h : s.Sound) (hr : (s.entry p).resident = true) :
    s.entry p = .present (s.entry p).permission (s.entry p).dirty :=
  (h.cell p).entry_eq_present hr

/-- Making room empties one entry or none. -/
theorem Sound.entryStep_roomMade (h : s.Sound) (q : Page) : EntryStep s s.roomMade q := by
  rcases h.cell_roomMade with hsame | ⟨victim, hvictim, hcell⟩
  · left
    rw [← entry_cell, hsame, entry_cell]
  · by_cases hq : q = victim
    · right
      rw [entry_of_update hcell, if_pos hq, hq, h.entry_eq_present hvictim]
      apply Entry.Changes.clear
    · left
      rw [entry_of_update hcell, if_neg hq]

theorem Sound.entryStep_resolved (h : s.Sound) {kind : FaultKind}
    (hk : FaultKind.classify p (s.entry p) code = .ok kind) (q : Page) :
    EntryStep s (s.resolved p kind) q := by
  rcases resident_of_classify hk with ⟨rfl, hr⟩ | ⟨rfl, hr, hp⟩ | ⟨rfl, hr, hp⟩
  · by_cases hq : q = p
    · subst hq
      right
      rw [h.entry_pageIn hr, h.entry_eq_empty hr]
      apply Entry.Changes.load
    · have hother : (s.resolved p .pageIn).entry q = s.counted.roomMade.entry q := by
        rw [entry_of_update (cell_pageIn s p), if_neg hq]
      have hroom := h.counted.entryStep_roomMade q
      rwa [EntryStep, ← hother] at hroom
  · by_cases hq : q = p
    · subst hq
      have he := h.entry_eq_present hr
      rw [hp] at he
      right
      rw [entry_grantRead he, he]
      apply Entry.Changes.grantRead
    · left
      rw [entry_of_update (cell_grantRead s p), if_neg hq]
  · by_cases hq : q = p
    · subst hq
      have he := h.entry_eq_present hr
      rw [hp] at he
      right
      rw [entry_grantWrite he, he]
      apply Entry.Changes.grantWrite
    · left
      rw [entry_of_update (cell_grantWrite s p), if_neg hq]

/-- A tick withdraws the rights of a resident page at most, and only a clock does. -/
theorem Sound.entryStep_ticked (h : s.Sound) (host : Host) (q : Page) :
    EntryStep s (s.ticked host) q := by
  by_cases hclock : s.policy.kind = .clock
  · have hw := (h.withdrawn_tickPass host).cell q
    have hresident : ((s.ticked host).entry q).resident = (s.entry q).resident := hw.resident
    cases hr : (s.entry q).resident with
    | false =>
      left
      rw [h.entry_eq_empty hr, (h.ticked host).entry_eq_empty (hresident.trans hr)]
    | true =>
      have hbefore := h.entry_eq_present hr
      have hafter := (h.ticked host).entry_eq_present (hresident.trans hr)
      rw [h.dirty_ticked host q] at hafter
      rcases h.permission_ticked host q with hkept | hlost
      · left
        rw [hafter, hkept, ← hbefore]
      · right
        have hwithdrawn := Entry.Changes.withdraw (s.entry q).permission (s.entry q).dirty hclock
        rwa [← hbefore, ← hlost, ← hafter] at hwithdrawn
  · left
    have hidle : s.tickPass host = ⟨s.policy, [], s.tickCounted, none⟩ :=
      Policy.tick_of_ne_clock _ hclock _
    change (s.tickPass host).state.entry q = s.entry q
    rw [hidle]
    rfl

/-- Every step of memory on a host that refuses nothing changes an entry in one of the ways listed,
or leaves it. -/
theorem Sound.entryStep (h : s.Sound) (hn : Next s t) (q : Page) : EntryStep s t q := by
  cases hn with
  | same => exact Or.inl rfl
  | resolved hk => exact h.entryStep_resolved hk q
  | ticked hh => exact h.entryStep_ticked _ q
  | allocated n => exact Or.inl rfl
  | stored hp i b => exact Or.inl rfl

/-! ## Every state occurs -/

/-- After a tick of a clock a resident page has no rights, and it counts as written as before. -/
theorem Sound.entry_ticked (hh : host.Obliging) (h : s.Sound) (hclock : s.policy.kind = .clock)
    {perm : Permission} (he : s.entry p = .present perm dirty) :
    (s.ticked host).entry p = .present .noAccess dirty := by
  obtain ⟨queue, hqueue⟩ := Policy.exists_eq_clock hclock
  obtain ⟨-, hperm⟩ := h.entry_ticked_of_clock hqueue (h.tickPass_refused hh) p
  have hr : ((s.ticked host).entry p).resident = true := by
    rw [(framed_ticked host s).resident, he]
    rfl
  rw [(h.ticked host).entry_eq_present hr, hperm, h.dirty_ticked host p, he]
  rfl

/-- After some incidents, none of which is refused anything, the entry of page `p` is `e`. -/
def Occurs (s : Memory) (p : Page) (e : Entry) : Prop :=
  ∃ incidents : List Incident, (∀ x ∈ incidents, x.Obliged) ∧ (s.lived incidents).entry p = e

/-- One more incident. -/
theorem lived_concat (s : Memory) (incidents : List Incident) (x : Incident) :
    s.lived (incidents ++ [x]) = (s.lived incidents).meet x := by
  simp only [lived, List.foldl_append, List.foldl_cons, List.foldl_nil]

/-- What one more action makes of an entry. -/
theorem Occurs.action {e e' : Entry} (ho : s.Occurs p e) (hh : host.Obliging) (h : s.Sound)
    (a : Action) (hnext : ∀ t : Memory, t.Sound → t.policy.kind = s.policy.kind → t.entry p = e →
      (t.perform host a).entry p = e') : s.Occurs p e' := by
  obtain ⟨incidents, hall, he⟩ := ho
  obtain ⟨hsound, hkind⟩ := h.lived_keeps (P := fun t => t.policy.kind = s.policy.kind) rfl
    (fun _ _ _ hk hn => hn.kind.trans hk) hall
  refine ⟨incidents ++ [.action host a], ?_, ?_⟩
  · intro x hx
    rcases List.mem_append.mp hx with hx | hx
    · exact hall x hx
    · rw [List.mem_singleton.mp hx]
      exact hh
  · rw [lived_concat]
    exact hnext _ hsound hkind he

/-- Every state of an entry is reached from the empty one by faults and ticks. -/
theorem Sound.occurs_of_mem_states (h : s.Sound) (hempty : s.entry p = .empty) {e : Entry}
    (he : e ∈ Entry.states s.policy.kind) : s.Occurs p e := by
  have hh : Host.willing.Obliging := Host.ready_willing.toObliging
  have start : s.Occurs p .empty := ⟨[], by simp, hempty⟩
  have loaded : s.Occurs p (.present .read false) := by
    refine start.action hh h (.fault p .notMapped) ?_
    intro t ht hkind he
    have hr : (t.entry p).resident = false := by
      rw [he]
      rfl
    rw [ht.perform_fault hh (classify_of_absent hr .notMapped), ht.entry_pageIn hr]
  have written : s.Occurs p (.present .readWrite true) := by
    refine loaded.action hh h (.fault p .accessDenied) ?_
    intro t ht hkind he
    have hk : FaultKind.classify p (t.entry p) .accessDenied = .ok .grantWrite := by
      rw [he]
      rfl
    rw [ht.perform_fault hh hk, entry_grantWrite he]
  have withdrawn {perm : Permission} {dirty : Bool} (ho : s.Occurs p (.present perm dirty))
      (hclock : s.policy.kind = .clock) : s.Occurs p (.present .noAccess dirty) := by
    refine ho.action hh h .tick ?_
    intro t ht hkind he
    rw [perform_tick, ht.entry_ticked hh (hkind.trans hclock) he]
  have restored {dirty : Bool} (ho : s.Occurs p (.present .noAccess dirty)) :
      s.Occurs p (.present .read dirty) := by
    refine ho.action hh h (.fault p .accessDenied) ?_
    intro t ht hkind he
    have hk : FaultKind.classify p (t.entry p) .accessDenied = .ok .grantRead := by
      rw [he]
      rfl
    rw [ht.perform_fault hh hk, entry_grantRead he]
  cases hkind : s.policy.kind with
  | clock =>
    rw [hkind] at he
    simp only [Entry.states, List.mem_cons, List.not_mem_nil, or_false] at he
    rcases he with rfl | rfl | rfl | rfl | rfl | rfl
    · exact start
    · exact loaded
    · exact restored (withdrawn written hkind)
    · exact written
    · exact withdrawn loaded hkind
    · exact withdrawn written hkind
  | fifo | random =>
    rw [hkind] at he
    simp only [Entry.states, List.mem_cons, List.not_mem_nil, or_false] at he
    rcases he with rfl | rfl | rfl
    · exact start
    · exact loaded
    · exact written

/-- As long as nothing is refused, no entry leaves the states that occur. -/
theorem Sound.entry_mem_states (h : s.Sound) (hs : ∀ q, s.entry q ∈ Entry.states s.policy.kind)
    {incidents : List Incident} (hall : ∀ x ∈ incidents, x.Obliged) (q : Page) :
    (s.lived incidents).entry q ∈ Entry.states s.policy.kind := by
  have hkept := h.lived_keeps (P := fun t => t.policy.kind = s.policy.kind ∧
    ∀ q, t.entry q ∈ Entry.states s.policy.kind) ⟨rfl, hs⟩ ?_ hall
  · exact hkept.2.2 q
  · rintro t u ht ⟨hkind, hstates⟩ hn
    refine ⟨hn.kind.trans hkind, ?_⟩
    intro q
    rcases ht.entryStep hn q with hsame | hchange
    · rw [hsame]
      exact hstates q
    · rw [hkind] at hchange
      exact hchange.mem_states (hstates q)

/-- Memory was set up, and then faults with any code, ticks, allocations and stores of programs
happened in any order, while the host refused nothing. Under a clock there are six bytes in which
the entry of a page can be stored, under the other policies three; at every page each of them
occurs, and no other one. Where the page is resident, it counts as used exactly if it has rights,
and it counts as written if it may be written. -/
theorem entry_occurs_iff_of_new {s₀ : Memory} {es : Array Event}
    (hnew : (new host₀ config).Yields () s₀ () es) (p : Page) :
    (∀ e : Entry, s₀.Occurs p e ↔ e.bits ∈ Entry.stateBytes config.policy) ∧
      ∀ incidents : List Incident, (∀ x ∈ incidents, x.Obliged) →
        ((s₀.lived incidents).entry p).resident = true →
          (((s₀.lived incidents).entry p).accessed = true ↔
            ((s₀.lived incidents).entry p).permission ≠ .noAccess) ∧
          (((s₀.lived incidents).entry p).permission = .readWrite →
            ((s₀.lived incidents).entry p).dirty = true) := by
  obtain ⟨hfresh, hvalid⟩ := fresh_of_new hnew
  have h := hfresh.sound hvalid
  constructor
  · intro e
    rw [← Entry.mem_states_iff, ← hfresh.kind]
    constructor
    · rintro ⟨incidents, hall, rfl⟩
      refine h.entry_mem_states ?_ hall p
      intro q
      rw [hfresh.entry]
      apply Entry.empty_mem_states
    · intro he
      exact h.occurs_of_mem_states (hfresh.entry p) he
  · intro incidents hall hr
    have hcell := (h.lived hall).cell p
    have hused : ((s₀.lived incidents).entry p).accessed =
        ((s₀.lived incidents).entry p).permission.allowsRead :=
      congrArg Entry.accessed (hcell.entry_eq_present hr)
    constructor
    · rw [hused]
      cases ((s₀.lived incidents).entry p).permission <;> decide
    · exact hcell.dirty_of_readWrite

/-- Under a clock a page may be written, readable and yet not writable. -/
theorem entry_occurs_iff_of_new_one_place : ∃ s₀ es,
    (new .willing { budget := 1, policy := .clock }).Yields () s₀ () es ∧
      s₀.Occurs 7 (.ofBits 0x17) ∧ ¬ s₀.Occurs 7 (.ofBits 0x03) := by
  have hvalid : ({ budget := 1, policy := .clock } : Config).validate = .ok () := rfl
  obtain ⟨s₀, es, hnew, -⟩ := exists_fresh Host.ready_willing hvalid ()
  obtain ⟨hoccurs, -⟩ := entry_occurs_iff_of_new hnew 7
  refine ⟨s₀, es, hnew, (hoccurs _).mpr (by decide), ?_⟩
  rw [hoccurs]
  decide

end Memory

end DemandPaging
