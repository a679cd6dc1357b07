import DemandPaging.Host
import DemandPaging.Overwrite
import DemandPaging.Page.Image
import DemandPaging.Step

/-!
# The swap file

A flat file with one slot of `pageSize` bytes for every page, in page order.
Reads and writes are positioned: they touch the bytes of one slot. The laws at
the end say that slots are independent of each other, and what a write that
was cut short leaves behind.
-/

namespace DemandPaging

/-- The contents of the swap file. -/
structure SwapFile where
  /-- The bytes of the file. -/
  bytes : ByteArray
  /-- The file never changes its size. -/
  size_eq : bytes.size = swapSize

namespace SwapFile

/-- `b` followed by itself, `n` times over. -/
def doubled (b : ByteArray) : Nat → ByteArray
  | 0 => b
  | n + 1 => doubled b n ++ doubled b n

theorem size_doubled (b : ByteArray) (n : Nat) : (doubled b n).size = b.size <<< n := by
  induction n with
  | zero => simp [doubled]
  | succ n ih =>
    rw [doubled, ByteArray.size_append, ih, Nat.shiftLeft_succ, Nat.two_mul]

/-- A file that was just extended: all its bytes are zero. -/
def blank : SwapFile where
  bytes := doubled PageImage.zero.bytes 12
  size_eq := by rw [size_doubled, PageImage.zero.size_eq]; rfl

/-- The slot of page `p` lies inside the file. -/
theorem slot_fits (p : Page) : Host.slotOffset p + pageSize ≤ swapSize := by
  have h := p.isLt
  simp only [Host.slotOffset, pageSize, pageCount, swapSize, memorySize] at *
  omega

/-- The contents of the slot of page `p`. -/
def slot (f : SwapFile) (p : Page) : PageImage where
  bytes := f.bytes.extract (Host.slotOffset p) (Host.slotOffset p + pageSize)
  size_eq := by
    rw [ByteArray.size_extract, f.size_eq, Nat.min_eq_left (slot_fits p)]
    exact Nat.add_sub_cancel_left ..

/-- The bytes that a write of `k` bytes to a slot stores lie inside the file and inside the image. -/
theorem store_fits (f : SwapFile) (p : Page) (image : PageImage) (k : Nat) :
    Host.slotOffset p + min k pageSize ≤ f.bytes.size ∧ min k pageSize ≤ image.bytes.size := by
  have h := slot_fits p
  rw [f.size_eq, image.size_eq]
  exact ⟨by omega, Nat.min_le_right ..⟩

/-- Store the first `k` bytes of `image` in the slot of page `p`. -/
def store (f : SwapFile) (p : Page) (image : PageImage) (k : Nat) : SwapFile where
  bytes := overwrite image.bytes f.bytes (Host.slotOffset p) (min k pageSize)
  size_eq := (size_overwrite (store_fits f p image k).1 (store_fits f p image k).2).trans f.size_eq

/-- Create the swap file in the given directory. -/
def create {σ : Type} (host : Host) (directory : Option String) : Step σ SwapFile := do
  Step.refuse ((host.createFile directory).map fun cause => .swap (.create cause))
  Step.refuse (host.extendFile.map fun cause => .swap (.extend swapSize cause))
  Step.report .swapReady
  return blank

/-- Read the slot of page `p`. -/
def read (host : Host) (f : SwapFile) (p : Page) : Except SwapError PageImage :=
  match host.readSlot p with
  | some cause => .error (.read p cause)
  | none => .ok (f.slot p)

/-- The failure of a write to the slot of page `p`, if there is one. -/
def writeFailure (host : Host) (p : Page) : Option SwapError :=
  (host.writeSlot p).map fun torn => .write p torn.cause

/-- The file after a write to the slot of page `p`, which may have been cut short. -/
def write (host : Host) (f : SwapFile) (p : Page) (image : PageImage) : SwapFile :=
  match host.writeSlot p with
  | some torn => f.store p image torn.stored
  | none => f.store p image pageSize

/-- The byte at position `j` of the file. -/
def byte (f : SwapFile) (j : Fin swapSize) : UInt8 :=
  getElem f.bytes j.val (by rw [f.size_eq]; exact j.isLt)

/-- The position in the file of a byte of the slot of page `p`. -/
def position (p : Page) (i : Offset) : Fin swapSize :=
  ⟨Host.slotOffset p + i.val, Nat.lt_of_lt_of_le (Nat.add_lt_add_left i.isLt _) (slot_fits p)⟩

@[simp] theorem get_slot (f : SwapFile) (p : Page) (i : Offset) :
    (f.slot p).get i = f.byte (position p i) := by
  simp only [slot, PageImage.get, byte, position, ByteArray.getElem_extract]

/-- A positioned write changes the bytes that it stores and no others. -/
theorem byte_store (f : SwapFile) (p : Page) (image : PageImage) (k : Nat) (j : Fin swapSize) :
    (f.store p image k).byte j =
      if h : Host.slotOffset p ≤ j.val ∧ j.val < Host.slotOffset p + min k pageSize then
        image.get ⟨j.val - Host.slotOffset p, by omega⟩
      else f.byte j :=
  getElem_overwrite (store_fits f p image k).1 (store_fits f p image k).2
    (by rw [f.size_eq]; exact j.isLt)

/-- Slots do not overlap. -/
theorem slotOffset_disjoint {p q : Page} (h : p ≠ q) :
    Host.slotOffset p + pageSize ≤ Host.slotOffset q ∨
      Host.slotOffset q + pageSize ≤ Host.slotOffset p := by
  have hne : p.val ≠ q.val := fun e => h (Fin.ext e)
  simp only [Host.slotOffset, pageSize]
  omega

/-- A write leaves in its slot the bytes that it stored, followed by the former ones, and no other slot changes. -/
theorem slot_store (f : SwapFile) (p q : Page) (image : PageImage) (k : Nat) :
    (f.store p image k).slot q = if p = q then .splice image (f.slot p) k else f.slot q := by
  apply PageImage.ext
  intro i
  have hi := i.isLt
  rw [get_slot, byte_store]
  by_cases h : p = q
  · subst h
    rw [if_pos rfl, PageImage.get_splice, get_slot]
    simp only [position, Nat.le_add_right, true_and, Nat.add_lt_add_iff_left, Nat.lt_min, hi, and_true,
      Nat.add_sub_cancel_left]
    split <;> rfl
  · rw [if_neg h, get_slot, dif_neg]
    have hd := slotOffset_disjoint h
    simp only [position]
    omega

theorem getElem_doubled {b : ByteArray} {x : UInt8} (h : ∀ i (hi : i < b.size), b[i] = x) (n : Nat) :
    ∀ i (hi : i < (doubled b n).size), (doubled b n)[i] = x := by
  induction n with
  | zero => exact h
  | succ n ih =>
    intro i hi
    simp only [doubled] at hi ⊢
    by_cases g : i < (doubled b n).size
    · rw [ByteArray.getElem_append_left g]
      exact ih i g
    · rw [ByteArray.getElem_append_right (Nat.le_of_not_lt g)]
      exact ih _ _

/-- Every slot of a fresh file holds the image of a fresh page. -/
theorem slot_blank (p : Page) : blank.slot p = .zero := by
  apply PageImage.ext
  intro i
  rw [get_slot, PageImage.get_zero]
  refine getElem_doubled (fun i hi => ?_) 12 _ _
  exact PageImage.get_zero ⟨i, by rw [← PageImage.zero.size_eq]; exact hi⟩

end SwapFile

end DemandPaging
