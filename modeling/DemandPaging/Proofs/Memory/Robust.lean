import DemandPaging.Proofs.Memory.Sound

/-!
# The invariant under refusals

A host that refuses a call stops a procedure halfway: a page may be resident without rights, bound
without being resident, saved without being unbound, or dropped by the policy while it stays in
memory. `Robust` is what no stop breaks. A page that the policy holds is as sound as ever, because a
procedure takes a page out of the policy before it touches it and hands one over only when it is
done. Of the other pages little is known: their mapping permits what is recorded, and nothing is
recorded of those that are not resident.
-/

namespace DemandPaging

namespace Permission

theorem le_refl (perm : Permission) : perm ≤ perm := Nat.le_refl perm.bits.val

theorem noAccess_le (perm : Permission) : noAccess ≤ perm := Nat.zero_le perm.bits.val

end Permission

namespace Cell

/-- The cells that arise whatever the host refuses; `held` says that the policy holds the page. -/
structure Robust (c : Cell) (held : Prop) : Prop where
  /-- The page has a mapping, and the rights in force are not below those recorded. -/
  rights : ∃ f, c.frame = some f ∧ c.entry.permission ≤ f.rights
  /-- Nothing is recorded of a page that is not resident. -/
  absent : c.entry.resident = false → c.entry = .empty
  /-- A page that the policy holds is resident, and nothing was left half done at it. -/
  held : held → c.Sound ∧ c.entry.resident = true

variable {c : Cell} {held held' : Prop} {f : Frame}

theorem Sound.robust (h : c.Sound) (hr : held → c.entry.resident = true) : c.Robust held where
  rights := ⟨_, h.frame_eq, Permission.le_refl _⟩
  absent := h.entry_eq_empty
  held hheld := ⟨h, hr hheld⟩

/-- A resident page that the policy does not hold only needs rights in force. -/
theorem robust_of_resident (hr : c.entry.resident = true) (hf : c.frame = some f)
    (hle : c.entry.permission ≤ f.rights) : c.Robust False where
  rights := ⟨f, hf, hle⟩
  absent habsent := nomatch hr.symm.trans habsent
  held := False.elim

/-- A page of which nothing is recorded only needs a mapping. -/
theorem robust_of_empty (he : c.entry = .empty) (hf : c.frame = some f) : c.Robust False where
  rights := ⟨f, hf, by rw [he]; exact Permission.noAccess_le _⟩
  absent _ := he
  held := False.elim

namespace Robust

theorem mono (h : c.Robust held) (himp : held' → held) : c.Robust held' :=
  ⟨h.rights, h.absent, fun hheld => h.held (himp hheld)⟩

theorem isSome_frame (h : c.Robust held) : c.frame.isSome = true := by
  obtain ⟨f, hf, -⟩ := h.rights
  rw [hf]
  rfl

/-- Only a resident page is marked as used. -/
theorem resident_of_accessed (h : c.Robust held) (ha : c.entry.accessed = true) :
    c.entry.resident = true := by
  by_contra hr
  rw [h.absent ((Bool.not_eq_true _).mp hr)] at ha
  cases ha

/-- New rights of a resident page are in force when they are recorded. What else is recorded, and
its slot, may change with them. -/
theorem withRights (h : c.Robust held) {d : Cell} {perm : Permission} (hr : d.entry.resident = true)
    (hperm : d.entry.rights = perm.bits) (hf : d.frame = (c.withRights perm).frame) :
    d.Robust False := by
  obtain ⟨f, hframe, -⟩ := h.rights
  have hrights : d.entry.permission = perm := by
    rw [Entry.permission, hperm, Permission.ofBits_bits]
  refine robust_of_resident hr (f := { f with rights := perm }) ?_ ?_
  · rw [hf, Cell.withRights, hframe]
    rfl
  · rw [hrights]
    exact Permission.le_refl perm

/-- A resident page without rights may be read again. -/
theorem grantRead (h : c.Robust held) (hr : c.entry.resident = true)
    (hp : c.entry.permission = .noAccess) : ((c.withRights .read).setAccessed true).Robust held := by
  have hloose := h.withRights (d := (c.withRights .read).setAccessed true) hr rfl rfl
  exact ⟨hloose.rights, hloose.absent, fun hheld => ⟨(h.held hheld).1.grantRead hr hp, hr⟩⟩

/-- A page that becomes writable counts as written from that moment on. -/
theorem grantWrite (h : c.Robust held) (hr : c.entry.resident = true) :
    (((c.withRights .readWrite).setDirty true).setAccessed true).Robust held := by
  have hloose := h.withRights (d := ((c.withRights .readWrite).setDirty true).setAccessed true) hr rfl rfl
  exact ⟨hloose.rights, hloose.absent, fun hheld => ⟨(h.held hheld).1.grantWrite hr, hr⟩⟩

/-- The rights of a used page are withdrawn. -/
theorem revoke (h : c.Robust held) (ha : c.entry.accessed = true) : c.revoke.Robust held := by
  have hr := h.resident_of_accessed ha
  have hloose := h.withRights (d := c.revoke) hr rfl rfl
  exact ⟨hloose.rights, hloose.absent, fun hheld => ⟨(h.held hheld).1.revoke ha, hr⟩⟩

/-- A byte is stored where the rights in force allow it. -/
theorem store (h : c.Robust held) (hf : c.frame = some f) (hw : f.rights = .readWrite) (i : Offset)
    (b : UInt8) : (c.store i b).Robust held := by
  obtain ⟨f', hf', hle⟩ := h.rights
  refine ⟨⟨⟨f'.rights, f'.image.set i b⟩, ?_, hle⟩, h.absent, fun hheld => ?_⟩
  · rw [Cell.store, hf']
    rfl
  · obtain ⟨hsound, hr⟩ := h.held hheld
    have hperm : c.entry.permission = .readWrite := by
      have hframe := hsound.frame_eq
      rw [hf, Option.some.injEq] at hframe
      rw [← hw, hframe]
    exact ⟨hsound.store hperm i b, hr⟩

end Robust

/-- A page of which nothing is recorded is loaded like one that is reserved. -/
theorem sound_load (he : c.entry = .empty) : (c.load.setAccessed true).Sound := by
  have hsame : c.load = (⟨.empty, some .reserved, c.slot⟩ : Cell).load := by
    rw [load, load, he]
  rw [hsame]
  exact (Sound.absent c.slot).load rfl

end Cell

namespace Memory

variable {host : Host} {s t u : Memory} {p q : Page} {c : Cell}

/-- The states that arise whatever the host refuses. -/
structure Robust (s : Memory) : Prop where
  /-- Entry, frame and slot of every page are robust. -/
  cell : ∀ p, (s.cell p).Robust (p ∈ s.policy.tracked)
  /-- The policy holds no page twice. -/
  nodup : s.policy.tracked.Nodup
  /-- The stored number of resident pages is right. -/
  count : s.table.residentCount = s.table.residentPages.length
  /-- The budget is kept. -/
  bounded : s.table.residentCount ≤ s.budget

/-- `t` is robust, and no page stands for other bytes than in `s`. -/
structure Retained (s t : Memory) : Prop where
  /-- The state is robust. -/
  robust : t.Robust
  /-- Every page stands for the same bytes. -/
  contents : ∀ q, t.contents q = s.contents q
  /-- The budget is the same. -/
  budget : t.budget = s.budget

/-- Sound memory is robust. -/
theorem Sound.robust (h : s.Sound) : s.Robust where
  cell p := (h.cell p).robust (h.mem_tracked p).mp
  nodup := h.nodup
  count := h.length_residentPages.symm
  bounded := h.count ▸ h.bounded

theorem Robust.retained (h : s.Robust) : Retained s s := ⟨h, fun _ => rfl, rfl⟩

theorem Retained.trans (hst : Retained s t) (htu : Retained t u) : Retained s u :=
  ⟨htu.robust, fun q => (htu.contents q).trans (hst.contents q), htu.budget.trans hst.budget⟩

/-- A change at one page changes the number of pages whose entry passes a test by that page. -/
theorem length_pagesWhere_of_update (f : Entry → Bool)
    (hcell : t.cell = Function.update s.cell p c) :
    (t.table.entries.pagesWhere f).length + (f (s.entry p)).toNat =
      (s.table.entries.pagesWhere f).length + (f c.entry).toNat := by
  have hp : f (t.entry p) = f c.entry := by
    rw [entry_of_update hcell, if_pos rfl]
  rw [← hp]
  apply PageMap.length_pagesWhere_of_agree f
  intro q hq
  change f (t.entry q) = f (s.entry q)
  rw [entry_of_update hcell, if_neg hq]

/-- A change at one page changes the number of resident pages by that page. -/
theorem length_residentPages_of_update (hcell : t.cell = Function.update s.cell p c) :
    t.table.residentPages.length + (s.entry p).resident.toNat =
      s.table.residentPages.length + c.entry.resident.toNat :=
  length_pagesWhere_of_update (·.resident) hcell

namespace Robust

theorem isSome_frame (h : s.Robust) (p : Page) : (s.mapping.frame p).isSome = true :=
  (h.cell p).isSome_frame

theorem entry_eq_empty (h : s.Robust) (hr : (s.entry p).resident = false) : s.entry p = .empty :=
  (h.cell p).absent hr

theorem resident_of_mem (h : s.Robust) (hp : p ∈ s.policy.tracked) : (s.entry p).resident = true :=
  ((h.cell p).held hp).2

theorem not_mem_tracked (h : s.Robust) (hr : (s.entry p).resident = false) : p ∉ s.policy.tracked :=
  fun hp => nomatch hr.symm.trans (h.resident_of_mem hp)

/-- While a page is resident, the stored number is not zero. -/
theorem count_pos (h : s.Robust) (hr : (s.entry p).resident = true) : 0 < s.table.residentCount := by
  rw [h.count]
  exact List.length_pos_of_mem (PageMap.mem_pagesWhere.mpr hr)

theorem isConsistent_entry (h : s.Robust) (p : Page) : (s.entry p).isConsistent = true := by
  cases hr : (s.entry p).resident with
  | true => rw [Entry.isConsistent, hr, Bool.true_or]
  | false =>
    rw [h.entry_eq_empty hr]
    rfl

theorem isConsistent_table (h : s.Robust) : s.table.isConsistent = true := by
  rw [PageTable.isConsistent, Bool.and_eq_true, List.all_eq_true, beq_iff_eq]
  exact ⟨fun p _ => h.isConsistent_entry p, h.count⟩

/-- A step that touches no cell may reorder the policy or drop pages from it. -/
theorem of_same_cells (h : s.Robust) (hcell : t.cell = s.cell)
    (hheld : ∀ q ∈ t.policy.tracked, q ∈ s.policy.tracked) (hnodup : t.policy.tracked.Nodup)
    (hcount : t.table.residentCount = s.table.residentCount) (hbudget : t.budget = s.budget) :
    Retained s t where
  robust := by
    have hentry (q : Page) : t.entry q = s.entry q := congrArg Cell.entry (congrFun hcell q)
    refine ⟨fun q => ?_, hnodup, ?_, ?_⟩
    · rw [hcell]
      exact (h.cell q).mono (hheld q)
    · rw [hcount, h.count, PageTable.residentPages, PageTable.residentPages, PageMap.pagesWhere,
        PageMap.pagesWhere]
      refine congrArg List.length (List.filter_congr fun q _ => ?_)
      exact congrArg Entry.resident (hentry q).symm
    · rw [hcount, hbudget]
      exact h.bounded
  contents q := congrArg Cell.contents (congrFun hcell q)
  budget := hbudget

/-- A step that touches neither cells nor policy. -/
theorem retained_of_same (h : s.Robust) (hcell : t.cell = s.cell) (hpolicy : t.policy = s.policy)
    (hcount : t.table.residentCount = s.table.residentCount) (hbudget : t.budget = s.budget) :
    Retained s t :=
  h.of_same_cells hcell (fun _ hq => hpolicy ▸ hq) (hpolicy ▸ h.nodup) hcount hbudget

/-- A step that changes one cell, and the place of that page in the policy. -/
theorem of_update (h : s.Robust) (hcell : t.cell = Function.update s.cell p c)
    (hc : c.Robust (p ∈ t.policy.tracked))
    (hheld : ∀ q ∈ t.policy.tracked, q ≠ p → q ∈ s.policy.tracked) (hnodup : t.policy.tracked.Nodup)
    (hcount : t.table.residentCount + (s.entry p).resident.toNat =
      s.table.residentCount + c.entry.resident.toNat)
    (hbounded : t.table.residentCount ≤ t.budget) : t.Robust where
  cell q := by
    rw [hcell]
    by_cases hq : q = p
    · subst hq
      rw [Function.update_self]
      exact hc
    · rw [Function.update_of_ne hq]
      exact (h.cell q).mono fun hm => hheld q hm hq
  nodup := hnodup
  count := by
    have hlength := length_residentPages_of_update hcell
    have hs := h.count
    omega
  bounded := hbounded

/-- The same where the page stays resident, or absent, and stands for the same bytes. -/
theorem retained_of_update (h : s.Robust) (hcell : t.cell = Function.update s.cell p c)
    (hc : c.Robust (p ∈ s.policy.tracked)) (hr : c.entry.resident = (s.entry p).resident)
    (hcontents : c.contents = s.contents p) (hpolicy : t.policy = s.policy)
    (hcount : t.table.residentCount = s.table.residentCount) (hbudget : t.budget = s.budget) :
    Retained s t where
  robust := by
    refine h.of_update hcell (hpolicy ▸ hc) (fun q hq _ => hpolicy ▸ hq) (hpolicy ▸ h.nodup)
      (by rw [hcount, hr]) ?_
    rw [hcount, hbudget]
    exact h.bounded
  contents := contents_of_update hcell hcontents
  budget := hbudget

end Robust

end Memory

end DemandPaging
