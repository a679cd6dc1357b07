import DemandPaging.PageTable

/-!
# What a page table represents

A page table is changed by calls only, and each call names one page. However the calls are mixed and
repeated, the stored number is the number of resident pages, so it is positive whenever a resident
page is about to be forgotten. A call leaves the entries of all other pages alone, and in the byte of
its own page it leaves alone every bit that is not its own. The bits without a meaning are never set;
that is why a consistent entry of a page that is not resident is the empty one.
-/

namespace DemandPaging

namespace Entry

/-- Bit `i` of the byte in which an entry is stored. -/
def bit (e : Entry) : Nat → Bool
  | 0 => e.resident
  | 1 => e.accessed
  | 2 => e.dirty
  | 3 => e.spare.val.testBit 0
  | 4 => e.rights.val.testBit 0
  | 5 => e.rights.val.testBit 1
  | 6 => e.spare.val.testBit 1
  | 7 => e.spare.val.testBit 2
  | _ => false

theorem bits_lt (e : Entry) : e.bits < 256 := by
  have hresident := e.resident.toNat_le
  have haccessed := e.accessed.toNat_le
  have hdirty := e.dirty.toNat_le
  have hrights := e.rights.isLt
  have hspare := e.spare.isLt
  unfold bits
  omega

/-- The parts of an entry do not overlap in its byte. -/
theorem testBit_bits (e : Entry) (i : Nat) : e.bits.testBit i = e.bit i := by
  by_cases hi : i < 8
  · have hbyte : ∀ (resident accessed dirty : Bool) (rights : Fin 4) (spare : Fin 8) (i : Fin 8),
        (bits ⟨resident, accessed, dirty, rights, spare⟩).testBit i.val =
          bit ⟨resident, accessed, dirty, rights, spare⟩ i.val := by decide +kernel
    exact hbyte e.resident e.accessed e.dirty e.rights e.spare ⟨i, hi⟩
  · have hzero : e.bit i = false := by
      unfold bit
      split <;> first | rfl | omega
    rw [hzero]
    have hpow : 2 ^ 8 ≤ 2 ^ i := Nat.pow_le_pow_right (by decide) (by omega)
    exact Nat.testBit_lt_two_pow (Nat.lt_of_lt_of_le e.bits_lt hpow)

/-- Rights are absent only if both of their bits are. -/
theorem permission_eq_noAccess_iff (e : Entry) : e.permission = .noAccess ↔ e.rights = 0 := by
  have hall : ∀ rights : Fin 4, Permission.ofBits rights.val = .noAccess ↔ rights = 0 := by decide
  exact hall e.rights

/-- Without spare bits, only the empty entry is consistent with a page that is not resident. -/
theorem isConsistent_iff {e : Entry} (h : e.spare = 0) :
    e.isConsistent = true ↔ (e.resident = false → e = empty) := by
  obtain ⟨resident, accessed, dirty, rights, spare⟩ := e
  obtain rfl : spare = 0 := h
  cases resident with
  | true => simp [isConsistent]
  | false => simp [isConsistent, empty, permission_eq_noAccess_iff, and_assoc]

end Entry

namespace PageTable

/-- Puts rights of a page into force, or fails. It may do anything to a world outside the table. -/
abbrev Protector (ε ω : Type) := Page → Permission → ExceptT ε (StateM ω) Unit

/-- What changes a page table. -/
inductive Call (ε ω : Type) where
  /-- A page is recorded as resident. -/
  | setResident (p : Page)
  /-- A page is forgotten. -/
  | clear (p : Page)
  /-- The use of a page is recorded or forgotten. -/
  | setAccessed (p : Page) (used : Bool)
  /-- A page is recorded as written or as saved. -/
  | setDirty (p : Page) (written : Bool)
  /-- Rights are put into force and recorded. -/
  | setPermission (p : Page) (perm : Permission) (protect : Protector ε ω)

variable {ε ω : Type} {t : PageTable} {c : Call ε ω} {w : ω} {p q : Page}

namespace Call

/-- The page that a call names. -/
def page : Call ε ω → Page
  | setResident p | clear p | setAccessed p _ | setDirty p _ | setPermission p _ _ => p

/-- Bit `i` of an entry belongs to the call. -/
def owns (c : Call ε ω) (i : Nat) : Bool :=
  match c with
  | setResident _ => i == 0
  | clear _ => true
  | setAccessed _ _ => i == 1
  | setDirty _ _ => i == 2
  | setPermission _ _ _ => i == 4 || i == 5

/-- What a call makes of the entry of its page. -/
def edit (c : Call ε ω) (w : ω) (e : Entry) : Entry :=
  match c with
  | setResident _ => { e with resident := true }
  | clear _ => .empty
  | setAccessed _ used => { e with accessed := used }
  | setDirty _ written => { e with dirty := written }
  | setPermission p perm protect =>
    match ((protect p perm).run.run w).1 with
    | .ok _ => e.withPermission perm
    | .error _ => e

/-- A call changes no bit that is not its own. -/
theorem bit_edit (c : Call ε ω) (w : ω) (e : Entry) {i : Nat} (hi : c.owns i = false) :
    (c.edit w e).bit i = e.bit i := by
  cases c with
  | clear p => cases hi
  | setResident p | setAccessed p used | setDirty p written =>
    simp only [owns, beq_eq_false_iff_ne] at hi
    unfold edit Entry.bit
    split <;> simp_all
  | setPermission p perm protect =>
    simp only [owns, Bool.or_eq_false_iff, beq_eq_false_iff_ne] at hi
    simp only [edit]
    split
    · unfold Entry.bit Entry.withPermission
      split <;> simp_all
    · rfl

/-- A call sets no spare bit. -/
theorem spare_edit (c : Call ε ω) (w : ω) {e : Entry} (h : e.spare = 0) :
    (c.edit w e).spare = 0 := by
  cases c with
  | setResident p => exact h
  | clear p => rfl
  | setAccessed p used => exact h
  | setDirty p written => exact h
  | setPermission p perm protect =>
    simp only [edit]
    split <;> exact h

end Call

/-- The table and the world that a call leaves behind. -/
def call (t : PageTable) (c : Call ε ω) (w : ω) : PageTable × ω :=
  match c with
  | .setResident p => (t.setResident p, w)
  | .clear p => (t.clear p, w)
  | .setAccessed p used => (t.setAccessed p used, w)
  | .setDirty p written => (t.setDirty p written, w)
  | .setPermission p perm protect =>
    let r := (t.setPermission protect p perm).run.run w
    (r.1.toOption.getD t, r.2)

/-- The table and the world after calls in a row. -/
def callAll (t : PageTable) : List (Call ε ω) → ω → PageTable × ω
  | [], w => (t, w)
  | c :: calls, w => (t.call c w).1.callAll calls (t.call c w).2

/-! ## Single calls -/

/-- Rights are recorded if they were put into force; that was tried once and in any case. -/
theorem run_setPermission (t : PageTable) (protect : Protector ε ω) (p : Page) (perm : Permission)
    (w : ω) : (t.setPermission protect p perm).run.run w =
      (((protect p perm).run.run w).1.map fun _ => t.recordPermission p perm,
        ((protect p perm).run.run w).2) := by
  simp only [setPermission, ExceptT.run_bind, StateT.run_bind]
  cases hrun : (protect p perm).run.run w with
  | mk r w' => cases r <;> rfl

/-- A failure to put rights into force changes nothing. -/
theorem call_of_failed {perm : Permission} {protect : Protector ε ω} {e : ε} {w' : ω}
    (h : (protect p perm).run.run w = (.error e, w')) :
    (t.setPermission protect p perm).run.run w = (.error e, w') ∧
      t.call (.setPermission p perm protect) w = (t, w') := by
  have hrun : (t.setPermission protect p perm).run.run w = (.error e, w') := by
    rw [run_setPermission, h]
    rfl
  refine ⟨hrun, ?_⟩
  simp only [call, hrun]
  rfl

/-- A call edits the entry of its page and no other. -/
theorem entry_call (t : PageTable) (c : Call ε ω) (w : ω) (q : Page) :
    (t.call c w).1.entry q = if c.page = q then c.edit w (t.entry q) else t.entry q := by
  cases c with
  | setResident p => exact entry_setResident t p q
  | clear p => exact entry_clear t p q
  | setAccessed p used => exact entry_modify t p q _
  | setDirty p written => exact entry_modify t p q _
  | setPermission p perm protect =>
    simp only [call, run_setPermission, Call.edit, Call.page]
    cases (protect p perm).run.run w with
    | mk r w' =>
      cases r with
      | ok u => exact entry_modify t p q _
      | error e => exact (ite_self _).symm

/-! ## Calls in a row -/

/-- The state of a table that was changed by calls only. -/
structure Represented (t : PageTable) : Prop where
  /-- The stored number is the number of resident pages. -/
  count : t.residentCount = t.residentPages.length
  /-- No bit without a meaning is set. -/
  spare : ∀ p, (t.entry p).spare = 0

theorem mem_residentPages : p ∈ t.residentPages ↔ (t.entry p).resident = true :=
  PageMap.mem_pagesWhere

/-- A call changes the number of resident pages by its own page at most. -/
theorem length_residentPages_call (t : PageTable) (c : Call ε ω) (w : ω) :
    (t.call c w).1.residentPages.length + (t.entry c.page).resident.toNat =
      t.residentPages.length + ((t.call c w).1.entry c.page).resident.toNat := by
  apply PageMap.length_pagesWhere_of_agree
  intro q hq
  have hentry := entry_call t c w q
  rw [if_neg hq.symm] at hentry
  exact congrArg Entry.resident hentry

namespace Represented

theorem new : Represented .new where
  count := by
    have hnone : PageTable.new.residentPages = [] := by
      simp [residentPages, PageMap.pagesWhere, PageTable.new, Entry.empty]
    rw [hnone]
    rfl
  spare p := by
    rw [entry_new]
    rfl

/-- A page that can be forgotten was counted. -/
theorem count_pos (h : t.Represented) (hp : (t.entry p).resident = true) : 0 < t.residentCount := by
  rw [h.count]
  exact List.length_pos_of_mem (mem_residentPages.mpr hp)

/-- The stored number follows the entry of the page that a call names. -/
theorem residentCount_call (h : t.Represented) (c : Call ε ω) (w : ω) :
    (t.call c w).1.residentCount + (t.entry c.page).resident.toNat =
      t.residentCount + ((t.call c w).1.entry c.page).resident.toNat := by
  rw [entry_call, if_pos rfl]
  cases c with
  | setResident p =>
    cases hp : (t.entry p).resident <;> simp [call, Call.page, Call.edit, setResident, hp]
  | clear p =>
    cases hp : (t.entry p).resident with
    | false => simp [call, Call.page, Call.edit, clear, hp, Entry.empty]
    | true =>
      have hpos := h.count_pos hp
      simp [call, Call.page, Call.edit, clear, hp, Entry.empty]
      omega
  | setAccessed p used => rfl
  | setDirty p written => rfl
  | setPermission p perm protect =>
    simp only [call, run_setPermission, Call.edit, Call.page]
    cases (protect p perm).run.run w with
    | mk r w' => cases r <;> rfl

/-- A call keeps the table in such a state. -/
theorem call (h : t.Represented) (c : Call ε ω) (w : ω) : (t.call c w).1.Represented where
  count := by
    have hcount := h.residentCount_call c w
    have hlength := length_residentPages_call t c w
    have hbefore := h.count
    omega
  spare p := by
    rw [entry_call]
    split
    · exact c.spare_edit w (h.spare p)
    · exact h.spare p

theorem callAll (h : t.Represented) (calls : List (Call ε ω)) (w : ω) :
    (t.callAll calls w).1.Represented := by
  induction calls generalizing t w with
  | nil => exact h
  | cons c calls ih => exact ih (h.call c w) _

/-- The consistency check decides the rule for entries alone, for the stored number is right. -/
theorem isConsistent_iff (h : t.Represented) :
    t.isConsistent = true ↔ ∀ p, (t.entry p).resident = false → t.entry p = .empty := by
  simp [isConsistent, h.count, Entry.isConsistent_iff, h.spare]

end Represented

/-- Calls in any order and repetition, whose changes of rights may fail, leave a table whose stored
number is the number of resident pages: if a resident page is forgotten next, one is taken off a
positive number. The resident pages are listed in ascending order, each of them once. The next call
edits the entry of its page and no other, and in its byte only the bits that are its own; a change of
rights that fails edits nothing. The table is consistent exactly if nothing is recorded of any page
that is not resident. -/
theorem represented_of_calls {calls : List (Call ε ω)} {w' : ω}
    (hrun : PageTable.new.callAll calls w = (t, w')) :
    t.residentCount = (Page.all.filter fun p => (t.entry p).resident).length ∧
      (∀ p, (t.entry p).resident = true → (t.clear p).residentCount + 1 = t.residentCount) ∧
      (∀ p, p ∈ t.residentPages ↔ (t.entry p).resident = true) ∧
      t.residentPages.Pairwise (· < ·) ∧
      (∀ (c : Call ε ω) w q,
        (t.call c w).1.entry q = if c.page = q then c.edit w (t.entry q) else t.entry q) ∧
      (∀ (c : Call ε ω) w i, c.owns i = false →
        ((t.call c w).1.entry c.page).bits.testBit i = (t.entry c.page).bits.testBit i) ∧
      (∀ p perm (protect : Protector ε ω) w e w',
        (protect p perm).run.run w = (.error e, w') →
          (t.setPermission protect p perm).run.run w = (.error e, w') ∧
            t.call (.setPermission p perm protect) w = (t, w')) ∧
      (t.isConsistent = true ↔ ∀ p, (t.entry p).resident = false → t.entry p = .empty) := by
  have h : t.Represented := by
    have := Represented.new.callAll calls w
    rwa [hrun] at this
  refine ⟨h.count, ?_, fun p => mem_residentPages, PageMap.pairwise_lt_pagesWhere .., entry_call t,
    ?_, fun p perm protect w e w' => call_of_failed, h.isConsistent_iff⟩
  · intro p hp
    have hpos := h.count_pos hp
    simp only [clear, hp, ite_true]
    omega
  · intro c w i hi
    rw [entry_call, if_pos rfl, Entry.testBit_bits, Entry.testBit_bits, c.bit_edit w _ hi]

/-- Page 1 is recorded twice, and page 2 is written without being resident. -/
theorem represented_of_calls_stray_write : ∃ (calls : List (Call String Unit)) (t : PageTable),
    calls = [.setResident 1, .setResident 1, .setDirty 2 true] ∧
      PageTable.new.callAll calls () = (t, ()) ∧
      (t.entry 1).resident = true ∧ (t.clear 1).residentCount + 1 = t.residentCount ∧
      t.call (.setPermission 1 .read fun _ _ => throw "refused" : Call String Unit) () = (t, ()) ∧
      (t.entry 2).resident = false ∧ t.isConsistent = false := by
  obtain ⟨t, ht⟩ : ∃ t : PageTable,
    t = ((PageTable.new.setResident 1).setResident 1).setDirty 2 true := ⟨_, rfl⟩
  let calls : List (Call String Unit) := [.setResident 1, .setResident 1, .setDirty 2 true]
  have hrun : PageTable.new.callAll calls () = (t, ()) := by
    rw [ht]
    rfl
  obtain ⟨-, hclear, -, -, -, -, hfailed, hconsistent⟩ := represented_of_calls hrun
  have h₁ : (t.entry 1).resident = true := by
    simp [ht, setDirty, entry_modify, entry_setResident]
  have h₂ : (t.entry 2).resident = false ∧ (t.entry 2).dirty = true := by
    simp [ht, setDirty, entry_modify, entry_setResident, Entry.empty]
  have hstray : ¬ t.isConsistent = true := by
    rw [hconsistent]
    intro hall
    rw [hall 2 h₂.1] at h₂
    cases h₂.2
  exact ⟨calls, t, rfl, hrun, h₁, hclear 1 h₁, (hfailed 1 .read _ () "refused" () rfl).2, h₂.1,
    Bool.not_eq_true _ ▸ hstray⟩

end PageTable

end DemandPaging
