import DemandPaging.Proofs.Memory.Fresh
import DemandPaging.Proofs.Memory.Request
import DemandPaging.Proofs.Memory.Word
import DemandPaging.Region

/-!
# What managed memory shows

A program sees managed memory as bytes in a row, of which some are in use by
regions. `Memory.Shows` relates a sound state to this view. Faults and ticks
leave the view alone, and every access to an address of the range is one to the
byte, or to the word, at its position in the row.
-/

namespace DemandPaging

open Step

/-- Managed memory as a program sees it. Positions are counted from the start of the range. -/
structure FlatMemory where
  /-- Where the bytes are. -/
  range : Range
  /-- Bytes in use by allocations. -/
  used : Nat
  /-- The byte at each position. -/
  bytes : Nat → UInt8

namespace FlatMemory

variable {f : FlatMemory} {j k : Nat}

/-- One byte is replaced. -/
def store (f : FlatMemory) (k : Nat) (b : UInt8) : FlatMemory :=
  { f with bytes := Function.update f.bytes k b }

/-- The word at a position. -/
def word (f : FlatMemory) (k : Nat) : UInt32 := Word.ofBytes fun i => f.bytes (k + i)

/-- The four bytes at a position are replaced by those of a word. -/
def storeWord (f : FlatMemory) (k : Nat) (w : UInt32) : FlatMemory :=
  { f with bytes := fun j => if k ≤ j ∧ j < k + 4 then Word.byte w (j - k) else f.bytes j }

@[simp] theorem range_storeWord (f : FlatMemory) (k : Nat) (w : UInt32) :
    (f.storeWord k w).range = f.range := rfl

/-- A word that was stored is found again. -/
theorem word_storeWord_self (f : FlatMemory) (k : Nat) (w : UInt32) : (f.storeWord k w).word k = w := by
  refine Eq.trans (Word.ofBytes_congr fun i hi => ?_) (Word.ofBytes_byte w)
  have hin : k ≤ k + i ∧ k + i < k + 4 := by omega
  simp only [storeWord, if_pos hin, Nat.add_sub_cancel_left]

/-- A stored word leaves the words alone that do not overlap it. -/
theorem word_storeWord_of_apart (f : FlatMemory) (w : UInt32) (h : j + 4 ≤ k ∨ k + 4 ≤ j) :
    (f.storeWord k w).word j = f.word j := by
  refine Word.ofBytes_congr fun i hi => if_neg ?_
  omega

end FlatMemory

namespace Memory

variable {host : Host} {config : Config} {s t : Memory} {f : FlatMemory} {p : Page} {es : Array Event}

/-! ## Where memory lies -/

/-- The addresses of the range and the bytes of it that are in use. -/
def extent (s : Memory) : Range × Nat := (s.mapping.range, s.allocated)

theorem extent_unloaded (s : Memory) (p : Page) : (s.unloaded p).extent = s.extent := by
  unfold unloaded
  split <;> rfl

theorem extent_roomMade (s : Memory) : s.roomMade.extent = s.extent := by
  unfold roomMade
  split
  · split
    · exact extent_unloaded ..
    · rfl
  · rfl

/-- A fault moves no memory. -/
theorem extent_resolved (s : Memory) (p : Page) (kind : FaultKind) :
    (s.resolved p kind).extent = s.extent := by
  cases kind with
  | pageIn =>
    have hsame (t : Memory) : ({ (t.loaded p).markAccessed p true with
        policy := t.policy.takeIn p } : Memory).extent = t.extent := rfl
    exact (hsame s.counted.roomMade).trans (extent_roomMade s.counted)
  | grantRead => rfl
  | grantWrite => rfl

/-- A tick moves no memory. -/
theorem extent_ticked (host : Host) (s : Memory) : (s.ticked host).extent = s.extent :=
  s.policy.tick_keeps (tracker host) (P := fun t => t.extent = s.extent) (fun _ _ h _ => h) rfl

/-! ## What memory shows -/

/-- A sound state shows the view `f`. -/
structure Shows (s : Memory) (f : FlatMemory) : Prop where
  /-- The state is sound. -/
  sound : s.Sound
  /-- The range and the bytes in use are those of the view. -/
  extent : s.extent = (f.range, f.used)
  /-- Every page stands for its part of the bytes. -/
  bytes : ∀ p i, (s.contents p).get i = f.bytes (p.val * pageSize + i.val)

theorem Shows.range (h : s.Shows f) : s.mapping.range = f.range := congrArg Prod.fst h.extent

theorem Shows.used (h : s.Shows f) : s.allocated = f.used := congrArg Prod.snd h.extent

/-- Fresh memory shows zeros, none of them in use. -/
theorem Fresh.shows (h : Fresh host config s) (hc : config.validate = .ok ()) :
    s.Shows ⟨s.mapping.range, 0, fun _ => 0⟩ where
  sound := h.sound hc
  extent := by rw [Memory.extent, h.allocated]
  bytes p i := by rw [h.contents, PageImage.get_zero]

theorem Shows.resolved (h : s.Shows f) {code : FaultCode} {kind : FaultKind}
    (hk : FaultKind.classify p (s.entry p) code = .ok kind) : (s.resolved p kind).Shows f where
  sound := h.sound.resolved hk
  extent := (extent_resolved s p kind).trans h.extent
  bytes q i := by rw [h.sound.contents_resolved hk, h.bytes]

theorem Shows.ticked (h : s.Shows f) (host : Host) : (s.ticked host).Shows f where
  sound := h.sound.ticked host
  extent := (extent_ticked host s).trans h.extent
  bytes q i := by rw [h.sound.contents_ticked, h.bytes]

theorem Faults.shows (hf : Faults p s es t) (h : s.Shows f) : t.Shows f := by
  induction hf with
  | none s => exact h
  | fault hk rest ih => exact ih (h.resolved hk)

/-! ## Accesses -/

/-- Different places have different positions. -/
private theorem place_eq_iff {p q : Page} {i j : Offset} :
    p.val * pageSize + i.val = q.val * pageSize + j.val ↔ p = q ∧ i = j := by
  have hi := i.isLt
  have hj := j.isLt
  simp only [pageSize, Fin.ext_iff] at *
  omega

/-- An address of the range is found at its place. -/
theorem Shows.exists_locate (h : s.Shows f) {x : Address} {k : Nat}
    (hx : x.toNat = f.range.base.toNat + k) (hk : k < memorySize) :
    ∃ p i, (locate x).Yields s (p, i) s #[] ∧ f.range.pageOf? x = some p ∧ x.pageOffset = i ∧
      p.val * pageSize + i.val = k := by
  have haligned := (Address.isPageAligned_iff _).mp f.range.aligned
  have hcontains : f.range.contains x = true := by
    rw [Range.contains, Range.toNat_stop, Bool.and_eq_true, decide_eq_true_iff, decide_eq_true_iff]
    omega
  have hpage : k / pageSize < pageCount := Nat.div_lt_of_lt_mul hk
  have hfound : f.range.pageOf? x = some ⟨k / pageSize, hpage⟩ := by
    rw [Range.pageOf?, if_pos hcontains, Page.ofNat?_eq_some_iff, hx, Nat.add_sub_cancel_left]
  refine ⟨⟨k / pageSize, hpage⟩, x.pageOffset, ?_, hfound, rfl, ?_⟩
  · refine (yields_query _ s).bind_silent ?_
    rw [h.range, hfound]
    exact Yields.pure _ s
  · rw [Address.val_pageOffset, hx, Nat.add_mod, haligned, Nat.zero_add, Nat.mod_mod]
    exact Nat.div_add_mod' k pageSize

/-- A byte that may be read is the one that the view has there. -/
theorem Shows.yields_fetch (h : s.Shows f) {i : Offset} {k : Nat}
    (hk : p.val * pageSize + i.val = k) (ha : Access.read.allowedBy (s.entry p).permission = true) :
    (fetch p i).Yields s (f.bytes k) s #[] := by
  obtain ⟨hr, -⟩ := (h.sound.cell p).of_allowsRead ha
  have himage : s.contents p = s.mapping.image p := if_pos hr
  rw [← hk, ← h.bytes, himage]
  exact (yields_query _ s).bind_silent (Yields.pure _ s)

/-- A word that may be read is the one that the view has there. -/
theorem Shows.yields_fetchWord (h : s.Shows f) {i : Offset} {k : Nat}
    (hk : p.val * pageSize + i.val = k) (hi : i.val + 4 ≤ pageSize)
    (ha : Access.read.allowedBy (s.entry p).permission = true) :
    (fetchWord p i).Yields s (f.word k) s #[] := by
  obtain ⟨hr, -⟩ := (h.sound.cell p).of_allowsRead ha
  have himage : s.contents p = s.mapping.image p := if_pos hr
  have hword : (s.mapping.image p).word i = f.word k := by
    refine PageImage.word_eq_ofBytes _ hi fun n _ j hj => ?_
    rw [← himage, h.bytes, hj, ← hk, Nat.add_assoc]
  rw [← hword]
  exact (yields_query _ s).bind_silent (Yields.pure _ s)

/-- Storing a byte where it is allowed replaces the byte that the view has there. -/
theorem Shows.stored (h : s.Shows f) {i : Offset} {k : Nat} (hk : p.val * pageSize + i.val = k)
    (ha : Access.write.allowedBy (s.entry p).permission = true) (b : UInt8) :
    (s.stored p i b).Shows (f.store k b) where
  sound := h.sound.stored (Access.eq_readWrite_of_allowedBy ha) i b
  extent := h.extent
  bytes q j := by
    obtain ⟨hr, -⟩ := (h.sound.cell p).of_allowsRead (Access.allowsRead_of_allowedBy ha)
    change _ = Function.update f.bytes k b _
    rw [h.sound.get_contents_stored hr, h.bytes, Function.update_apply, ← hk]
    simp only [place_eq_iff, eq_comm]

/-- Storing a word where it is allowed replaces the word that the view has there. -/
theorem Shows.storedWord (h : s.Shows f) {i : Offset} {k : Nat} (hk : p.val * pageSize + i.val = k)
    (hi : i.val + 4 ≤ pageSize) (ha : Access.write.allowedBy (s.entry p).permission = true)
    (w : UInt32) : (s.storedWord p i w).Shows (f.storeWord k w) where
  sound := h.sound.storedWord (Access.eq_readWrite_of_allowedBy ha) i w
  extent := h.extent
  bytes q j := by
    obtain ⟨hr, -⟩ := (h.sound.cell p).of_allowsRead (Access.allowsRead_of_allowedBy ha)
    have hj := j.isLt
    simp only [pageSize] at hi hj hk
    have hinside : (p = q ∧ i.val ≤ j.val ∧ j.val < i.val + 4) ↔
        (k ≤ q.val * pageSize + j.val ∧ q.val * pageSize + j.val < k + 4) := by
      simp only [pageSize, Fin.ext_iff]
      omega
    rw [h.sound.get_contents_storedWord hr hi, h.bytes, FlatMemory.storeWord]
    by_cases hin : p = q ∧ i.val ≤ j.val ∧ j.val < i.val + 4
    · have hsub : j.val - i.val = q.val * pageSize + j.val - k := by
        have hpage := congrArg Fin.val hin.1
        simp only [pageSize]
        omega
      rw [if_pos hin, hsub]
      exact (if_pos (hinside.mp hin)).symm
    · rw [if_neg hin]
      exact (if_neg (mt hinside.mpr hin)).symm

end Memory

/-! ## Regions -/

/-- The region lies in the range, from position `k` on. -/
structure Region.Lies (r : Region) (range : Range) (k : Nat) : Prop where
  /-- The region starts at the position. -/
  start : r.start.toNat = range.base.toNat + k
  /-- The start is aligned. -/
  aligned : k % allocationAlignment = 0
  /-- The region ends inside the range. -/
  inside : k + r.length ≤ memorySize

namespace Region

variable {r : Region} {range : Range} {k offset size index : Nat}

/-- An element inside the region has an address. -/
theorem Lies.exists_address (h : r.Lies range k) (hsize : 0 < size)
    (hin : offset + size ≤ r.length) :
    ∃ x, r.address offset size = .ok x ∧ x.toNat = range.base.toNat + (k + offset) ∧
      k + offset < memorySize := by
  have hinside := h.inside
  have hfits := range.fits
  have hword : r.start.toNat + offset < wordLimit := by
    rw [h.start]
    omega
  refine ⟨Address.ofNat (r.start.toNat + offset), ?_, ?_, by omega⟩
  · rw [address, if_pos hin, Address.add, Address.add?, if_pos hword]
  · rw [Address.toNat_ofNat hword, h.start, Nat.add_assoc]

/-- A word inside the region has an address, and all of it is in one page. -/
theorem Lies.exists_wordAddress (h : r.Lies range k) (hin : index * wordSize + wordSize ≤ r.length) :
    ∃ x, r.wordAddress index = .ok x ∧ x.toNat = range.base.toNat + (k + index * wordSize) ∧
      k + index * wordSize < memorySize ∧ x.pageOffset.val + wordSize ≤ pageSize := by
  have hinside := h.inside
  have haligned := h.aligned
  have hbase := (Address.isPageAligned_iff _).mp range.aligned
  obtain ⟨x, hx, hplace, hlt⟩ := h.exists_address (by decide) hin
  have hword : ¬ wordLimit ≤ index * wordSize := by
    simp only [wordLimit, memorySize] at *
    omega
  refine ⟨x, by rw [wordAddress, if_neg hword, hx], hplace, hlt, ?_⟩
  rw [Address.val_pageOffset, hplace]
  simp only [pageSize, wordSize, allocationAlignment] at *
  omega

/-- An element that does not lie inside the region has no address. -/
theorem address_of_outside (r : Region) (hout : ¬ offset + size ≤ r.length) :
    r.address offset size = .error (.outOfBounds offset r.length) := if_neg hout

/-- A word that does not lie inside the region has no address. -/
theorem exists_wordAddress_of_outside (r : Region) (hout : ¬ index * wordSize + wordSize ≤ r.length) :
    ∃ panic, r.wordAddress index = .error panic := by
  unfold wordAddress
  split
  · exact ⟨_, rfl⟩
  · exact ⟨_, r.address_of_outside hout⟩

end Region

namespace Memory

theorem le_alignUp (n : Nat) : n ≤ alignUp n := by
  simp only [alignUp, allocationAlignment]
  omega

theorem alignUp_mod (n : Nat) : alignUp n % allocationAlignment = 0 := Nat.mul_mod_left ..

end Memory

namespace FlatMemory

/-- The region that is allocated next. -/
def next (f : FlatMemory) (size : Nat) : Region :=
  ⟨Address.ofNat (f.range.base.toNat + Memory.alignUp f.used), size⟩

/-- The next region is in use. -/
def reserve (f : FlatMemory) (size : Nat) : FlatMemory :=
  { f with used := Memory.alignUp f.used + size }

/-- The next region lies behind those in use, if there is room for it. -/
theorem lies_next {f : FlatMemory} {size : Nat} (hroom : Memory.alignUp f.used + size ≤ memorySize) :
    (f.next size).Lies f.range (Memory.alignUp f.used) where
  start := by
    have hfits := f.range.fits
    exact Address.toNat_ofNat (by omega)
  aligned := Memory.alignUp_mod _
  inside := hroom

end FlatMemory

namespace Memory

variable {s : Memory} {f : FlatMemory} {size : Nat}

/-- A region is allocated while there is room for it behind those in use. -/
theorem Shows.yields_allocateRegion (h : s.Shows f) (hroom : alignUp f.used + size ≤ memorySize) :
    (allocateRegion size).Yields s (some (f.next size))
      { s with allocated := alignUp f.used + size } #[] := by
  rw [← h.used] at hroom
  have hallocate := yields_allocate_of_room hroom
  rw [h.used, h.range] at hallocate
  exact hallocate.bind_silent (Yields.pure _ _)

/-- The bytes of a new region are in use from then on. -/
theorem Shows.reserved (h : s.Shows f) (size : Nat) :
    ({ s with allocated := alignUp f.used + size } : Memory).Shows (f.reserve size) :=
  ⟨h.sound.of_same_cells rfl rfl rfl rfl, Prod.ext h.range rfl, h.bytes⟩

/-- Nothing is allocated where there is no room. -/
theorem Shows.exists_allocateRegion_none (h : s.Shows f)
    (hroom : ¬ alignUp f.used + size ≤ memorySize) :
    ∃ es, (allocateRegion size).Yields s none s es := by
  rw [← h.used] at hroom
  obtain ⟨es, hallocate, -⟩ := exists_yields_allocate_of_full hroom
  exact ⟨es, hallocate.bind_last (Yields.pure _ _)⟩

end Memory

end DemandPaging
