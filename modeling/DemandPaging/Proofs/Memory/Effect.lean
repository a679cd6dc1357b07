import DemandPaging.Memory
import DemandPaging.Proofs.Memory.Cell
import DemandPaging.Proofs.Policy.Tracked
import DemandPaging.Proofs.Yields
import Mathlib.Logic.Function.Basic

/-!
# What faults and ticks do to memory

On a host that refuses nothing, a procedure of managed memory is a function of
the state. Each of these functions is written down once, with two laws: the
procedure runs to its end and leaves exactly that state, and the cells of the
state differ from the former ones at most at the page that was worked on.
-/

namespace DemandPaging

open Step

/-- A host that refuses no call of a running pager. -/
structure Host.Obliging (host : Host) : Prop where
  /-- Pages get memory. -/
  bind : ∀ p, host.bind p = none
  /-- The memory of a page is taken back. -/
  unbind : ∀ p, host.unbind p = none
  /-- The rights of a page are changed. -/
  protect : ∀ p perm, host.protect p perm = none
  /-- Slots are read. -/
  readSlot : ∀ p, host.readSlot p = none
  /-- Slots are written as a whole. -/
  writeSlot : ∀ p, host.writeSlot p = none

namespace Memory

variable {host : Host} {s : Memory} {p q : Page}

/-- What is kept about page `p`. -/
def cell (s : Memory) (p : Page) : Cell := ⟨s.entry p, s.mapping.frame p, s.swap.slot p⟩

/-- The bytes that page `p` stands for. -/
def contents (s : Memory) (p : Page) : PageImage := (s.cell p).contents

@[simp] theorem entry_cell (s : Memory) (p : Page) : (s.cell p).entry = s.entry p := rfl

theorem image_cell (s : Memory) (p : Page) : (s.cell p).image = s.mapping.image p := rfl

/-- A change at one page that keeps what the page stands for changes the bytes of no page. -/
theorem contents_of_update {t : Memory} {c : Cell} (hcell : t.cell = Function.update s.cell p c)
    (hc : c.contents = s.contents p) (q : Page) : t.contents q = s.contents q := by
  rw [contents, hcell]
  by_cases hq : q = p
  · subst hq
    rw [Function.update_self, hc]
  · rw [Function.update_of_ne hq]
    rfl

/-- A change at one page leaves the entries of the others. -/
theorem entry_of_update {t : Memory} {c : Cell} (hcell : t.cell = Function.update s.cell p c)
    (q : Page) : t.entry q = if q = p then c.entry else s.entry q := by
  rw [← entry_cell, hcell]
  by_cases hq : q = p
  · subst hq
    rw [Function.update_self, if_pos rfl]
  · rw [Function.update_of_ne hq, if_neg hq]
    rfl

/-! ## Rights -/

/-- The rights of page `p` are put into force and recorded. -/
def withRights (s : Memory) (p : Page) (perm : Permission) : Memory :=
  { s with mapping := s.mapping.protect p perm, table := s.table.recordPermission p perm }

/-- Page `p` counts as used, or not. -/
def markAccessed (s : Memory) (p : Page) (used : Bool) : Memory :=
  { s with table := s.table.setAccessed p used }

/-- Page `p` counts as written, or not. -/
def markDirty (s : Memory) (p : Page) (written : Bool) : Memory :=
  { s with table := s.table.setDirty p written }

/-- Two states have the same cells but for one page if they agree in the three places on every
other page. -/
private theorem cell_eq_update {t : Memory} {c : Cell} (hp : t.cell p = c)
    (hq : ∀ q, p ≠ q → t.cell q = s.cell q) : t.cell = Function.update s.cell p c :=
  Function.eq_update_iff.mpr ⟨hp, fun q hne => hq q hne.symm⟩

theorem cell_withRights (s : Memory) (p : Page) (perm : Permission) :
    (s.withRights p perm).cell = Function.update s.cell p ((s.cell p).withRights perm) := by
  refine cell_eq_update ?_ fun q h => ?_
  · simp only [cell, withRights, entry, PageTable.recordPermission, PageTable.entry_modify,
      Mapping.frame_protect, ite_true, Cell.withRights]
  · simp only [cell, withRights, entry, PageTable.recordPermission, PageTable.entry_modify,
      Mapping.frame_protect, h, ite_false]

/-- A change of the table at one page is a change of the cell of that page. -/
private theorem cell_modify (s : Memory) (p : Page) (f : Entry → Entry) :
    ({ s with table := s.table.modify p f } : Memory).cell =
      Function.update s.cell p { s.cell p with entry := f (s.entry p) } := by
  refine cell_eq_update ?_ fun q h => ?_
  · simp only [cell, entry, PageTable.entry_modify, ite_true]
  · simp only [cell, entry, PageTable.entry_modify, h, ite_false]

theorem cell_markAccessed (s : Memory) (p : Page) (used : Bool) :
    (s.markAccessed p used).cell = Function.update s.cell p ((s.cell p).setAccessed used) :=
  cell_modify ..

theorem cell_markDirty (s : Memory) (p : Page) (written : Bool) :
    (s.markDirty p written).cell = Function.update s.cell p ((s.cell p).setDirty written) :=
  cell_modify ..

/-- A change of rights runs to its end on a page that has a mapping. -/
theorem yields_protect (hh : host.Obliging) (hf : (s.mapping.frame p).isSome = true)
    (perm : Permission) : (protect host p perm).Yields s () (s.withRights p perm) #[] := by
  have hfree : s.mapping.protectFailure host p perm = none := by
    obtain ⟨f, hf⟩ := Option.isSome_iff_exists.mp hf
    simp only [Mapping.protectFailure, Mapping.protectRefusal, hf, hh.protect, Option.map_none]
  refine (yields_query _ s).bind_silent ?_
  refine (yields_refuse (by rw [hfree]; rfl) s).bind_silent ?_
  refine (yields_update _ s).bind_silent ?_
  exact yields_update _ _

/-! ## Unloading -/

/-- Page `p` is saved to its slot and can only be read from then on. -/
def saved (s : Memory) (p : Page) : Memory :=
  { (s.withRights p .read).markDirty p false with
    swap := s.swap.store p (s.mapping.image p) pageSize
    counters := { s.counters with flushes := s.counters.flushes + 1 } }

/-- Page `p` is saved if it was written, and its memory is taken back. -/
def unloaded (s : Memory) (p : Page) : Memory :=
  let t := if (s.entry p).dirty then s.saved p else s
  { t with mapping := t.mapping.unbind p, table := t.table.clear p }

@[simp] theorem budget_unloaded (s : Memory) (p : Page) : (s.unloaded p).budget = s.budget := by
  unfold unloaded
  split <;> rfl

@[simp] theorem policy_unloaded (s : Memory) (p : Page) : (s.unloaded p).policy = s.policy := by
  unfold unloaded
  split <;> rfl

/-- Unloading does not look at the policy. -/
theorem unloaded_withPolicy (s : Memory) (policy : Policy) (p : Page) :
    ({ s with policy } : Memory).unloaded p = { s.unloaded p with policy } := by
  have he : ({ s with policy } : Memory).entry p = s.entry p := rfl
  unfold unloaded
  rw [he]
  split <;> rfl

/-- A written page is counted as saved. -/
theorem counters_unloaded (s : Memory) (p : Page) : (s.unloaded p).counters =
    { s.counters with flushes := s.counters.flushes + (s.entry p).dirty.toNat } := by
  cases hd : (s.entry p).dirty with
  | false => simp only [unloaded, hd, Bool.false_eq_true, ite_false, Bool.toNat_false, Nat.add_zero]
  | true =>
    simp only [unloaded, hd, ite_true, Bool.toNat_true]
    rfl

theorem image_withRights (s : Memory) (p q : Page) (perm : Permission) :
    (s.withRights p perm).mapping.image q = s.mapping.image q := by
  rw [← image_cell, ← image_cell, cell_withRights]
  by_cases h : q = p
  · subst h
    rw [Function.update_self, Cell.image_withRights]
  · rw [Function.update_of_ne h]

/-- The first `k` bytes of page `p` were saved to its slot, and the page can only be read from then on. -/
def torn (s : Memory) (p : Page) (k : Nat) : Memory :=
  { s.withRights p .read with swap := s.swap.store p (s.mapping.image p) k }

theorem cell_torn (s : Memory) (p : Page) (k : Nat) :
    (s.torn p k).cell = Function.update s.cell p
      { (s.cell p).withRights .read with slot := .splice (s.cell p).image (s.cell p).slot k } := by
  have hslot (q : Page) : (s.torn p k).swap.slot q =
      if p = q then .splice (s.mapping.image p) (s.swap.slot p) k else s.swap.slot q := by
    simp only [torn, SwapFile.slot_store]
  have hcell (q : Page) : (s.torn p k).cell q =
      { (s.withRights p .read).cell q with slot := (s.torn p k).swap.slot q } := rfl
  refine cell_eq_update ?_ fun q h => ?_
  · rw [hcell, hslot, if_pos rfl, cell_withRights, Function.update_self]
    rfl
  · rw [hcell, hslot, if_neg h, cell_withRights, Function.update_of_ne (Ne.symm h)]
    rfl

theorem cell_saved (s : Memory) (p : Page) :
    (s.saved p).cell = Function.update s.cell p (s.cell p).save := by
  have hsame : (s.saved p).cell = ((s.torn p pageSize).markDirty p false).cell := rfl
  rw [hsame, cell_markDirty, cell_torn, Function.update_idem, Function.update_self,
    PageImage.splice_of_pageSize_le (Nat.le_refl _)]
  rfl

theorem cell_unloaded (s : Memory) (p : Page) :
    (s.unloaded p).cell = Function.update s.cell p (s.cell p).unload := by
  have hsaved : (if (s.entry p).dirty then s.saved p else s).cell =
      Function.update s.cell p (if (s.entry p).dirty then (s.cell p).save else s.cell p) := by
    split
    · exact cell_saved s p
    · exact (Function.update_eq_self p s.cell).symm
  have hcell (q : Page) : (s.unloaded p).cell q =
      if p = q then
        { (if (s.entry p).dirty then s.saved p else s).cell q with
          entry := .empty, frame := some .reserved }
      else (if (s.entry p).dirty then s.saved p else s).cell q := by
    by_cases h : p = q
    · simp only [cell, entry, unloaded, PageTable.entry_clear, Mapping.frame_unbind, h, ite_true]
    · simp only [cell, entry, unloaded, PageTable.entry_clear, Mapping.frame_unbind, h, ite_false]
  refine cell_eq_update ?_ fun q h => ?_
  · rw [hcell, if_pos rfl, hsaved, Function.update_self]
    rfl
  · rw [hcell, if_neg h, hsaved, Function.update_of_ne (Ne.symm h)]

/-- Unloading brings no page into memory. -/
theorem resident_unloaded_of_absent (hq : (s.entry q).resident = false) :
    ((s.unloaded p).entry q).resident = false := by
  rw [entry_of_update (cell_unloaded s p)]
  split
  · rfl
  · exact hq

/-- Saving a written page changes its entry but leaves it resident until it is cleared. -/
theorem residentCount_unloaded (hr : (s.entry p).resident = true) :
    (s.unloaded p).table.residentCount = s.table.residentCount - 1 := by
  by_cases hd : (s.entry p).dirty = true
  · have hr' : ((s.saved p).entry p).resident = true := by
      rw [← entry_cell, cell_saved, Function.update_self]
      exact hr
    simp only [unloaded, if_pos hd, PageTable.clear]
    exact if_pos hr'
  · simp only [unloaded, if_neg hd, PageTable.clear]
    exact if_pos hr

theorem yields_flush (hh : host.Obliging) (hf : (s.mapping.frame p).isSome = true) :
    (flush host p).Yields s () (s.saved p) #[] := by
  have hw : SwapFile.writeFailure host p = none := by
    rw [SwapFile.writeFailure, hh.writeSlot]
    rfl
  have hs : s.saved p = { (s.withRights p .read).markDirty p false with
      swap := (s.withRights p .read).swap.write host p ((s.withRights p .read).mapping.image p)
      counters := { s.counters with flushes := s.counters.flushes + 1 } } := by
    rw [image_withRights, SwapFile.write, hh.writeSlot]
    rfl
  rw [hs]
  refine (yields_protect hh hf .read).bind_silent ?_
  refine (yields_update _ _).bind_silent ?_
  refine (yields_refuse (by rw [hw]; rfl) _).bind_silent ?_
  refine (yields_update _ _).bind_silent ?_
  exact yields_update _ _

/-- A resident page is unloaded. -/
theorem yields_unload (hh : host.Obliging) (hr : (s.entry p).resident = true)
    (hf : (s.mapping.frame p).isSome = true) :
    (unload host p).Yields s () (s.unloaded p) #[.unmapped p] := by
  have hu : Mapping.unbindFailure host p = none := by
    rw [Mapping.unbindFailure, hh.unbind]
    rfl
  refine (yields_query _ s).bind_silent ?_
  refine (yields_refuse (if_pos hr) s).bind_silent ?_
  have hrest (t : Memory) : Yields (do
      refuse ((Mapping.unbindFailure host p).map .map)
      update fun s => { s with mapping := s.mapping.unbind p }
      record (·.clear p)
      report (.unmapped p)) t () { t with mapping := t.mapping.unbind p, table := t.table.clear p }
      #[.unmapped p] := by
    refine (yields_refuse (by rw [hu]; rfl) t).bind_silent ?_
    refine (yields_update _ t).bind_silent ?_
    refine (yields_update _ _).bind_silent ?_
    exact yields_report _ _
  by_cases hd : (s.entry p).dirty = true
  · rw [if_pos hd, unloaded, if_pos hd]
    exact (yields_flush hh hf).bind_silent (hrest _)
  · rw [if_neg hd, unloaded, if_neg hd]
    exact (Yields.pure _ s).bind_silent (hrest _)

/-! ## Loading -/

/-- Page `p` gets memory with the bytes of its slot. -/
def filled (s : Memory) (p : Page) : Memory :=
  { s with
    mapping := (s.mapping.bind p).fill p (s.swap.slot p)
    table := s.table.setResident p }

/-- Page `p` gets memory with the bytes of its slot and can be read. -/
def loaded (s : Memory) (p : Page) : Memory :=
  { (s.filled p).withRights p .read with
    counters := { s.counters with loads := s.counters.loads + 1 } }

theorem cell_filled (s : Memory) (p : Page) :
    (s.filled p).cell = Function.update s.cell p
      { s.cell p with
        entry := { s.entry p with resident := true }
        frame := some ⟨.readWrite, s.swap.slot p⟩ } := by
  refine cell_eq_update ?_ fun q h => ?_
  · simp only [cell, entry, filled, PageTable.entry_setResident, Mapping.frame_fill,
      Mapping.frame_bind, ite_true]
    rfl
  · simp only [cell, entry, filled, PageTable.entry_setResident, Mapping.frame_fill,
      Mapping.frame_bind, h, ite_false]

theorem cell_loaded (s : Memory) (p : Page) :
    (s.loaded p).cell = Function.update s.cell p (s.cell p).load := by
  have hcount : (s.loaded p).cell = ((s.filled p).withRights p .read).cell := rfl
  rw [hcount, cell_withRights, cell_filled, Function.update_idem, Function.update_self]
  rfl

theorem residentCount_loaded (hr : (s.entry p).resident = false) :
    (s.loaded p).table.residentCount = s.table.residentCount + 1 :=
  if_neg (by rw [← Memory.entry, hr]; exact Bool.false_ne_true)

/-- The cells after a page was loaded and used. -/
theorem cell_loaded_used (s : Memory) (p : Page) : ((s.loaded p).markAccessed p true).cell =
    Function.update s.cell p ((s.cell p).load.setAccessed true) := by
  rw [cell_markAccessed, cell_loaded, Function.update_idem, Function.update_self]

/-- A page is loaded while the budget admits another one. -/
theorem yields_load (hh : host.Obliging) (hroom : s.table.residentCount < s.budget) :
    (load host p .read).Yields s () (s.loaded p) #[.mapped p .read] := by
  have hfull : decide (s.budget < s.table.residentCount + 1) = false := by
    rw [decide_eq_false_iff_not]
    omega
  have hb : Mapping.bindFailure host p = none := by
    rw [Mapping.bindFailure, hh.bind]
    rfl
  have hread : (s.swap.read host p).mapError PagerError.swap = .ok (s.swap.slot p) := by
    rw [SwapFile.read, hh.readSlot]
    rfl
  have hf : (((s.mapping.bind p).fill p (s.swap.slot p)).frame p).isSome = true := by
    rw [Mapping.frame_fill, Mapping.frame_bind, if_pos rfl, if_pos rfl]
    rfl
  refine (yields_query _ s).bind_silent ?_
  refine (yields_refuse (by rw [hfull]; rfl) s).bind_silent ?_
  refine (yields_refuse (by rw [hb]; rfl) s).bind_silent ?_
  refine (yields_update _ s).bind_silent ?_
  refine (yields_query _ _).bind_silent ?_
  refine (yields_ofExcept hread _).bind_silent ?_
  refine (yields_update _ _).bind_silent ?_
  refine (yields_update _ _).bind_silent ?_
  refine (yields_protect hh hf .read).bind_silent ?_
  refine (yields_update _ _).bind_silent ?_
  exact yields_report _ _

end Memory

end DemandPaging
