import DemandPaging.Memory

/-!
# The state of one page

A `Cell` gathers what memory keeps about a single page in its three places:
the entry of the page table, the frame that the host holds, and the slot in
the swap file. `Cell.Sound` lists the cells that arise while the host refuses
nothing. An absent page is reserved and its entry is empty. The entry of a
present page is determined by its rights and by whether it was written since
it was loaded; the rights are those in force, a writable page counts as
written, and a page that was not written still equals its slot.
-/

namespace DemandPaging

/-- The entry of a resident page: it was used as long as it may be read. -/
def Entry.present (perm : Permission) (dirty : Bool) : Entry :=
  { Entry.empty with resident := true, accessed := perm.allowsRead, dirty, rights := perm.bits }

@[simp] theorem Entry.permission_present (perm : Permission) (dirty : Bool) :
    (Entry.present perm dirty).permission = perm :=
  Permission.ofBits_bits perm

/-- What is kept about one page. -/
structure Cell where
  /-- Its entry in the page table. -/
  entry : Entry
  /-- What the host holds behind it. -/
  frame : Option Frame
  /-- Its slot in the swap file. -/
  slot : PageImage

namespace Cell

/-- The bytes in memory; zero where there is no mapping. -/
def image (c : Cell) : PageImage :=
  match c.frame with
  | some f => f.image
  | none => .zero

/-- The bytes that the page stands for: those in memory if it is resident, else those in its slot.
-/
def contents (c : Cell) : PageImage := if c.entry.resident then c.image else c.slot

/-- The rights `perm` are put into force and recorded. -/
def withRights (c : Cell) (perm : Permission) : Cell :=
  { c with entry := c.entry.withPermission perm, frame := c.frame.map ({ · with rights := perm }) }

/-- The page counts as used, or not. -/
def setAccessed (c : Cell) (used : Bool) : Cell :=
  { c with entry := { c.entry with accessed := used } }

/-- The page counts as written, or not. -/
def setDirty (c : Cell) (written : Bool) : Cell :=
  { c with entry := { c.entry with dirty := written } }

/-- The rights are withdrawn and the use is forgotten. -/
def revoke (c : Cell) : Cell := (c.withRights .noAccess).setAccessed false

/-- The bytes in memory are saved to the slot, and the page can only be read from then on. -/
def save (c : Cell) : Cell := ({ c.withRights .read with slot := c.image }).setDirty false

/-- The page is saved if it was written, and its memory is taken back. -/
def unload (c : Cell) : Cell :=
  { (if c.entry.dirty then c.save else c) with entry := .empty, frame := some .reserved }

/-- The page gets memory with the bytes of its slot. -/
def load (c : Cell) : Cell :=
  ({ c with
    entry := { c.entry with resident := true }
    frame := some ⟨.readWrite, c.slot⟩ }).withRights .read

/-- The bytes in memory are replaced by others. -/
def rewrite (c : Cell) (f : PageImage → PageImage) : Cell :=
  { c with frame := c.frame.map fun frame => ⟨frame.rights, f frame.image⟩ }

/-- One byte in memory is replaced. -/
def store (c : Cell) (i : Offset) (b : UInt8) : Cell :=
  { c with frame := c.frame.map fun f => ⟨f.rights, f.image.set i b⟩ }

/-- The cells that arise while the host refuses nothing. -/
inductive Sound : Cell → Prop
  /-- The page is not resident. -/
  | absent (slot : PageImage) : Sound ⟨.empty, some .reserved, slot⟩
  /-- The page is resident. -/
  | present (perm : Permission) (dirty : Bool) (image slot : PageImage)
      (written : perm = .readWrite → dirty = true) (clean : dirty = false → image = slot) :
      Sound ⟨.present perm dirty, some ⟨perm, image⟩, slot⟩

variable {c : Cell}

/-- The entry of a resident page is determined by its rights and by whether it was written. -/
theorem Sound.entry_eq_present (h : c.Sound) (hr : c.entry.resident = true) :
    c.entry = .present c.entry.permission c.entry.dirty := by
  cases h with
  | absent slot => cases hr
  | present perm dirty image slot written clean =>
    rw [Entry.permission_present]
    rfl

/-- Nothing is recorded of a page that is not resident. -/
theorem Sound.entry_eq_empty (h : c.Sound) (hr : c.entry.resident = false) : c.entry = .empty := by
  cases h with
  | absent slot => rfl
  | present perm dirty image slot written clean => cases hr

/-- The host holds a frame behind every page, with the rights that are recorded. -/
theorem Sound.frame_eq (h : c.Sound) : c.frame = some ⟨c.entry.permission, c.image⟩ := by
  cases h with
  | absent slot => rfl
  | present perm dirty image slot written clean =>
    rw [Entry.permission_present]
    rfl

/-- A page that is not resident is reserved. -/
theorem Sound.frame_of_absent (h : c.Sound) (hr : c.entry.resident = false) :
    c.frame = some .reserved := by
  cases h with
  | absent slot => rfl
  | present perm dirty image slot written clean => cases hr

/-- A page that may be read is resident and counts as used. -/
theorem Sound.of_allowsRead (h : c.Sound) (hp : c.entry.permission.allowsRead = true) :
    c.entry.resident = true ∧ c.entry.accessed = true := by
  cases h with
  | absent slot => cases hp
  | present perm dirty image slot written clean =>
    rw [Entry.permission_present] at hp
    exact ⟨rfl, hp⟩

/-- A page that may be written counts as written. -/
theorem Sound.dirty_of_readWrite (h : c.Sound) (hp : c.entry.permission = .readWrite) :
    c.entry.dirty = true := by
  cases h with
  | absent slot => cases hp
  | present perm dirty image slot written clean =>
    rw [Entry.permission_present] at hp
    exact written hp

/-- A resident page that was not written equals its slot. -/
theorem Sound.image_eq_slot (h : c.Sound) (hr : c.entry.resident = true)
    (hd : c.entry.dirty = false) : c.image = c.slot := by
  cases h with
  | absent slot => cases hr
  | present perm dirty image slot written clean => exact clean hd

/-- Withdrawing the rights of a used page leaves a sound cell. -/
theorem Sound.revoke (h : c.Sound) (ha : c.entry.accessed = true) : c.revoke.Sound := by
  cases h with
  | absent slot => cases ha
  | present perm dirty image slot written clean =>
    exact .present .noAccess dirty image slot (fun hw => nomatch hw) clean

/-- An unloaded page is absent. -/
theorem sound_unload (c : Cell) : c.unload.Sound := .absent _

/-- A page that is loaded equals its slot and can be read. -/
theorem Sound.load (h : c.Sound) (hr : c.entry.resident = false) :
    (c.load.setAccessed true).Sound := by
  cases h with
  | absent slot => exact .present .read false slot slot (fun hw => nomatch hw) fun _ => rfl
  | present perm dirty image slot written clean => cases hr

/-- A resident page without rights may be read again. -/
theorem Sound.grantRead (h : c.Sound) (hr : c.entry.resident = true)
    (hp : c.entry.permission = .noAccess) : ((c.withRights .read).setAccessed true).Sound := by
  cases h with
  | absent slot => cases hr
  | present perm dirty image slot written clean =>
    exact .present .read dirty image slot (fun hw => nomatch hw) clean

/-- A page that becomes writable counts as written from that moment on. -/
theorem Sound.grantWrite (h : c.Sound) (hr : c.entry.resident = true) :
    (((c.withRights .readWrite).setDirty true).setAccessed true).Sound := by
  cases h with
  | absent slot => cases hr
  | present perm dirty image slot written clean =>
    exact .present .readWrite true image slot (fun _ => rfl) fun hd => nomatch hd

/-- Bytes can be replaced where the rights allow it. -/
theorem Sound.rewrite (h : c.Sound) (hp : c.entry.permission = .readWrite)
    (f : PageImage → PageImage) : (c.rewrite f).Sound := by
  cases h with
  | absent slot => cases hp
  | present perm dirty image slot written clean =>
    rw [Entry.permission_present] at hp
    subst hp
    have hd : dirty = true := written rfl
    refine .present .readWrite dirty (f image) slot written fun hc => ?_
    rw [hd] at hc
    cases hc

theorem Sound.store (h : c.Sound) (hp : c.entry.permission = .readWrite) (i : Offset) (b : UInt8) :
    (c.store i b).Sound :=
  h.rewrite hp (·.set i b)

/-! ## What the page stands for -/

@[simp] theorem image_withRights (c : Cell) (perm : Permission) :
    (c.withRights perm).image = c.image := by
  unfold image withRights
  cases c.frame <;> rfl

@[simp] theorem contents_withRights (c : Cell) (perm : Permission) :
    (c.withRights perm).contents = c.contents := by
  rw [contents, image_withRights]
  rfl

@[simp] theorem contents_setAccessed (c : Cell) (used : Bool) :
    (c.setAccessed used).contents = c.contents := rfl

@[simp] theorem contents_setDirty (c : Cell) (written : Bool) :
    (c.setDirty written).contents = c.contents := rfl

@[simp] theorem contents_revoke (c : Cell) : c.revoke.contents = c.contents := by
  rw [revoke, contents_setAccessed, contents_withRights]

theorem contents_of_resident (hr : c.entry.resident = true) : c.contents = c.image := if_pos hr

theorem contents_of_absent (hr : c.entry.resident = false) : c.contents = c.slot :=
  if_neg (by rw [hr]; exact Bool.false_ne_true)

/-- Unloading keeps what the page stands for: a written page is saved, another one equals its
slot. -/
theorem Sound.contents_unload (h : c.Sound) (hr : c.entry.resident = true) :
    c.unload.contents = c.contents := by
  cases h with
  | absent slot => cases hr
  | present perm dirty image slot written clean =>
    cases dirty with
    | false => exact (clean rfl).symm
    | true => rfl

/-- Loading keeps what an absent page stands for. -/
theorem contents_load (hr : c.entry.resident = false) : c.load.contents = c.contents := by
  rw [load, contents_withRights]
  simp only [contents, hr, Bool.false_eq_true, ite_false]
  rfl

/-- `d` is `c` after its rights were withdrawn or left. -/
structure Withdrawn (c d : Cell) : Prop where
  /-- The cell is sound. -/
  sound : d.Sound
  /-- The page is resident as before. -/
  resident : d.entry.resident = c.entry.resident
  /-- The page counts as written as before. -/
  dirty : d.entry.dirty = c.entry.dirty
  /-- The rights are the same or none. -/
  permission : d.entry.permission = c.entry.permission ∨ d.entry.permission = .noAccess
  /-- The page stands for the same bytes. -/
  contents : d.contents = c.contents

theorem Sound.withdrawn_self (h : c.Sound) : c.Withdrawn c := ⟨h, rfl, rfl, Or.inl rfl, rfl⟩

/-- The rights of a used page are withdrawn. -/
theorem Withdrawn.revoke {d : Cell} (h : c.Withdrawn d) (ha : d.entry.accessed = true) :
    c.Withdrawn d.revoke where
  sound := h.sound.revoke ha
  resident := h.resident
  dirty := h.dirty
  permission := Or.inr (Entry.permission_withPermission d.entry .noAccess)
  contents := (contents_revoke d).trans h.contents

/-- Bytes that are replaced in a resident page are replaced in what the page stands for. -/
theorem Sound.contents_rewrite (h : c.Sound) (hr : c.entry.resident = true)
    (f : PageImage → PageImage) : (c.rewrite f).contents = f c.contents := by
  cases h with
  | absent slot => cases hr
  | present perm dirty image slot written clean => rfl

theorem Sound.contents_store (h : c.Sound) (hr : c.entry.resident = true) (i : Offset) (b : UInt8) :
    (c.store i b).contents = c.contents.set i b :=
  h.contents_rewrite hr (·.set i b)

end Cell

end DemandPaging
