import DemandPaging.Address

/-!
# The managed range

A range of `memorySize` bytes that starts at a page boundary and ends inside
the address space. Both conditions are part of the type, so the bounds below
never wrap.
-/

namespace DemandPaging

/-- The addresses of the managed pages. -/
structure Range where
  /-- The first address. -/
  base : Address
  /-- The range starts at a page boundary. -/
  aligned : base.isPageAligned = true
  /-- The end of the range is an address. -/
  fits : base.toNat + memorySize < wordLimit

namespace Range

/-- The range that starts at `base`, unless `base` lies inside a page or too close to the end. -/
def ofBase (base : Address) : Except Panic Range :=
  if h : base.isPageAligned = true then
    if g : base.toNat + memorySize < wordLimit then .ok ⟨base, h, g⟩ else .error .rangeWraps
  else .error .baseNotAligned

/-- One past the last address. -/
def stop (r : Range) : Address := Address.ofNat (r.base.toNat + memorySize)

/-- `a` lies in the range. -/
def contains (r : Range) (a : Address) : Bool :=
  r.base.toNat ≤ a.toNat && a.toNat < r.stop.toNat

/-- The first address of page `p`. -/
def addressOf (r : Range) (p : Page) : Address :=
  Address.ofNat (r.base.toNat + p.val <<< pageShift)

/-- The page that holds `a`, if `a` lies in the range. -/
def pageOf? (r : Range) (a : Address) : Option Page :=
  if r.contains a then Page.ofNat? ((a.toNat - r.base.toNat) / pageSize) else none

/-- No address lies in both ranges: neither starts inside the other. -/
def disjoint (r s : Range) : Bool := !r.contains s.base && !s.contains r.base

/-- The range as a field value. -/
def fieldText (r : Range) : String := "VirtualRange \x7b base: " ++ r.base.fieldText ++ " \x7d"

/-- The range at the preferred base. -/
def preferred : Range where
  base := Address.ofNat preferredBase
  aligned := by decide
  fits := by decide

theorem toNat_stop (r : Range) : r.stop.toNat = r.base.toNat + memorySize :=
  Address.toNat_ofNat r.fits

theorem toNat_addressOf (r : Range) (p : Page) :
    (r.addressOf p).toNat = r.base.toNat + p.val * pageSize := by
  have hf := r.fits
  have hp := p.isLt
  have hs : p.val <<< pageShift = p.val * pageSize := Nat.shiftLeft_eq ..
  unfold addressOf
  rw [hs]
  exact Address.toNat_ofNat (by simp only [pageCount, pageSize, wordLimit, memorySize] at *; omega)

end Range

end DemandPaging
