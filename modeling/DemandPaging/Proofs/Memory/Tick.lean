import DemandPaging.Proofs.Memory.Fault

/-!
# Ticks, stores and allocations on sound memory

A tick withdraws rights page by page in one pass of the policy. What a pass
leaves alone is collected in `Withdrawn`, which every single withdrawal keeps;
the statements about a whole tick follow from it. Stores go to writable pages
only, and an allocation concerns no page at all.
-/

namespace DemandPaging.Memory

open Step

variable {host : Host} {s t : Memory} {p q : Page}

/-! ## Ticks -/

/-- `t` is `s` after rights were withdrawn from some of the pages that were used. -/
structure Withdrawn (s t : Memory) : Prop where
  /-- Every page lost its rights at most. -/
  cell : ∀ q, (s.cell q).Withdrawn (t.cell q)
  /-- The stored number of resident pages is the same. -/
  count : t.table.residentCount = s.table.residentCount
  /-- The budget is the same. -/
  budget : t.budget = s.budget
  /-- The counts are the same. -/
  counters : t.counters = s.counters

theorem cell_revoke (host : Host) (s : Memory) (p : Page) :
    ((tracker host).revoke s p).cell = Function.update s.cell p (s.cell p).revoke := by
  have he : (tracker host).revoke s p = (s.withRights p .noAccess).markAccessed p false := rfl
  rw [he, cell_markAccessed, cell_withRights, Function.update_idem, Function.update_self]
  rfl

theorem Sound.withdrawn_self (h : s.Sound) : Withdrawn s s :=
  ⟨fun q => (h.cell q).withdrawn_self, rfl, rfl, rfl⟩

/-- One more page may lose its rights. -/
theorem Withdrawn.revoke (h : Withdrawn s t) (ha : (tracker host).accessed t p = true) :
    Withdrawn s ((tracker host).revoke t p) where
  cell q := by
    rw [cell_revoke]
    by_cases hq : q = p
    · subst hq
      rw [Function.update_self]
      exact (h.cell q).revoke ha
    · rw [Function.update_of_ne hq]
      exact h.cell q
  count := h.count
  budget := h.budget
  counters := h.counters

/-- No withdrawal is refused where every page has a mapping. -/
theorem Withdrawn.refusal (hh : host.Obliging) (h : Withdrawn s t) (p : Page) :
    (tracker host).refusal t p = none := by
  have hf : t.mapping.frame p = some ⟨(t.entry p).permission, t.mapping.image p⟩ :=
    (h.cell p).sound.frame_eq
  simp only [tracker, Mapping.protectRefusal, hf, hh.protect, Option.map_none]

/-- A tick is counted. -/
def tickCounted (s : Memory) : Memory :=
  { s with counters := { s.counters with ticks := s.counters.ticks + 1 } }

/-- The pass of the policy over memory that a tick brings about. -/
def tickPass (host : Host) (s : Memory) : TickResult Memory RevokeError :=
  s.policy.tick (tracker host) s.tickCounted

/-- The state after a tick. -/
def ticked (host : Host) (s : Memory) : Memory :=
  { (s.tickPass host).state with policy := (s.tickPass host).policy }

/-- What is reported about a tick. -/
def tickEvents (host : Host) (s : Memory) : Array Event :=
  if (s.tickPass host).revoked.length ≠ 0 then #[.rotated (s.tickPass host).revoked.length] else #[]

theorem Sound.tickCounted (h : s.Sound) : s.tickCounted.Sound := h.of_same_cells rfl rfl rfl rfl

/-- A pass withdraws rights and does nothing else. -/
theorem Sound.withdrawn_tickPass (h : s.Sound) (host : Host) :
    Withdrawn s.tickCounted (s.tickPass host).state :=
  s.policy.tick_keeps (tracker host) (fun _ _ hw ha => hw.revoke ha) h.tickCounted.withdrawn_self

/-- A pass is not refused. -/
theorem Sound.tickPass_refused (hh : host.Obliging) (h : s.Sound) :
    (s.tickPass host).refused = none :=
  s.policy.tick_refused (tracker host) (fun _ _ hw ha => hw.revoke ha)
    (fun _ page hw => hw.refusal hh page) h.tickCounted.withdrawn_self

/-- A tick leaves sound memory. -/
theorem Sound.ticked (h : s.Sound) (host : Host) : (s.ticked host).Sound := by
  have hw := h.withdrawn_tickPass host
  exact h.of_same_residents (fun q => (hw.cell q).sound) (fun q => (hw.cell q).resident)
    (s.policy.tick_perm _ _) hw.count hw.budget

@[simp] theorem Sound.budget_ticked (h : s.Sound) (host : Host) :
    (s.ticked host).budget = s.budget :=
  (h.withdrawn_tickPass host).budget

/-- A tick gives no rights. -/
theorem Sound.permission_ticked (h : s.Sound) (host : Host) (q : Page) :
    ((s.ticked host).entry q).permission = (s.entry q).permission ∨
      ((s.ticked host).entry q).permission = .noAccess :=
  ((h.withdrawn_tickPass host).cell q).permission

/-- A tick marks no page as written. -/
theorem Sound.dirty_ticked (h : s.Sound) (host : Host) (q : Page) :
    ((s.ticked host).entry q).dirty = (s.entry q).dirty :=
  ((h.withdrawn_tickPass host).cell q).dirty

/-- A tick changes the bytes of no page. -/
theorem Sound.contents_ticked (h : s.Sound) (host : Host) (q : Page) :
    (s.ticked host).contents q = s.contents q :=
  ((h.withdrawn_tickPass host).cell q).contents

/-- A tick counts, makes its pass, reports it and ends as the pass ended. -/
theorem tick_eq (host : Host) (s : Memory) (journal : Array Event) : tick host ⟨s, journal⟩ =
    match (s.tickPass host).refused with
    | none => .ok () ⟨s.ticked host, journal ++ s.tickEvents host⟩
    | some e => .error (.error (.revoke e)) ⟨s.ticked host, journal ++ s.tickEvents host⟩ := by
  have hpass : tick host ⟨s, journal⟩ = (do
      if (s.tickPass host).revoked.length ≠ 0 then
        report (.rotated (s.tickPass host).revoked.length)
      refuse ((s.tickPass host).refused.map .revoke) : Step Memory Unit) ⟨s.ticked host, journal⟩ := rfl
  have hevents : s.tickEvents host = if (s.tickPass host).revoked.length ≠ 0
      then #[.rotated (s.tickPass host).revoked.length] else #[] := rfl
  rw [hpass, hevents]
  by_cases hn : (s.tickPass host).revoked.length ≠ 0
  · cases (s.tickPass host).refused <;>
      simp [hn, report, refuse, fail, bind, EStateM.bind]
  · cases (s.tickPass host).refused <;> simp [hn, refuse, fail]

/-- A tick runs to its end. -/
theorem yields_tick (hh : host.Obliging) (h : s.Sound) :
    (tick host).Yields s () (s.ticked host) (s.tickEvents host) := by
  intro journal
  rw [tick_eq, h.tickPass_refused hh]

/-! ## Stores -/

/-- One byte of page `p` is replaced in memory. -/
def stored (s : Memory) (p : Page) (i : Offset) (b : UInt8) : Memory :=
  { s with mapping := s.mapping.store p i b }

theorem cell_stored (s : Memory) (p : Page) (i : Offset) (b : UInt8) :
    (s.stored p i b).cell = Function.update s.cell p ((s.cell p).store i b) := by
  refine Function.eq_update_iff.mpr ⟨?_, fun q h => ?_⟩
  · simp only [cell, stored, entry, Mapping.frame_store, ite_true, Cell.store]
  · simp only [cell, stored, entry, Mapping.frame_store, Ne.symm h, ite_false]

/-- A store to a writable page leaves sound memory. -/
theorem Sound.stored (h : s.Sound) (hp : (s.entry p).permission = .readWrite) (i : Offset)
    (b : UInt8) : (s.stored p i b).Sound :=
  h.of_update (cell_stored s p i b) ((h.cell p).store hp i b) rfl rfl rfl rfl

/-- A store replaces one byte of one page. -/
theorem Sound.get_contents_stored (h : s.Sound) (hr : (s.entry p).resident = true)
    (i j : Offset) (b : UInt8) (q : Page) :
    ((s.stored p i b).contents q).get j =
      if p = q ∧ i = j then b else (s.contents q).get j := by
  unfold contents
  rw [cell_stored]
  by_cases hq : p = q
  · subst hq
    rw [Function.update_self, (h.cell p).contents_store hr, PageImage.get_set]
    simp only [true_and]
  · rw [Function.update_of_ne (Ne.symm hq), if_neg (fun hand => hq hand.1)]

/-! ## Allocations -/

/-- Where there is room behind the bytes in use, the next of them are taken. -/
theorem yields_allocate_of_room {size : Nat} (hroom : alignUp s.allocated + size ≤ memorySize) :
    (allocate size).Yields s
      (some (Address.ofNat (s.mapping.range.base.toNat + alignUp s.allocated)))
      { s with allocated := alignUp s.allocated + size } #[] := by
  have hfits := s.mapping.range.fits
  have hword : ¬ wordLimit ≤ alignUp s.allocated + size := by
    simp only [wordLimit, memorySize] at *
    omega
  have hstart : s.mapping.range.base.add? (alignUp s.allocated) =
      some (Address.ofNat (s.mapping.range.base.toNat + alignUp s.allocated)) :=
    if_pos (by omega)
  refine (yields_query _ s).bind_silent ?_
  rw [if_neg hword, if_neg (Nat.not_lt.mpr hroom), ← hstart]
  exact (yields_update _ s).bind_silent (yields_query _ _)

/-- Where there is no room, nothing is taken. At most it is reported that there is none. -/
theorem exists_yields_allocate_of_full {size : Nat}
    (hfull : ¬ alignUp s.allocated + size ≤ memorySize) :
    ∃ es, (allocate size).Yields s none s es ∧
      (es = #[] ∨ es = #[.allocationRefused size (alignUp s.allocated)]) := by
  by_cases hword : wordLimit ≤ alignUp s.allocated + size
  · refine ⟨#[], (yields_query _ s).bind_silent ?_, Or.inl rfl⟩
    rw [if_pos hword]
    exact Yields.pure _ _
  · refine ⟨#[.allocationRefused size (alignUp s.allocated)], (yields_query _ s).bind_silent ?_,
      Or.inr rfl⟩
    rw [if_neg hword, if_pos (Nat.lt_of_not_le hfull)]
    exact (yields_report _ _).bind_last (Yields.pure _ _)

/-- An allocation changes the number of bytes in use and nothing else. It reports at most that there
are not enough of them. -/
theorem yields_allocate (s : Memory) (size : Nat) :
    ∃ r n es, (allocate size).Yields s r { s with allocated := n } es ∧
      (es = #[] ∨ es = #[.allocationRefused size (alignUp s.allocated)]) := by
  by_cases hroom : alignUp s.allocated + size ≤ memorySize
  · exact ⟨_, _, #[], yields_allocate_of_room hroom, Or.inl rfl⟩
  · obtain ⟨es, hrefused, hes⟩ := exists_yields_allocate_of_full hroom
    exact ⟨none, s.allocated, es, hrefused, hes⟩

end DemandPaging.Memory
