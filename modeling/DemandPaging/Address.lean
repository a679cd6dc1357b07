import DemandPaging.Page
import DemandPaging.Panic
import DemandPaging.Text.Hexadecimal

/-!
# Addresses

A virtual address is a machine word. Its low bits give the position inside a
page; clearing them gives the start of the page.
-/

namespace DemandPaging

/-- A virtual address. -/
structure Address where
  /-- The address as a machine word. -/
  word : UInt64
  deriving DecidableEq, Repr

namespace Address

/-- The address as a natural number. -/
def toNat (a : Address) : Nat := a.word.toNat

/-- The address with number `n`, taken modulo the size of the address space. -/
def ofNat (n : Nat) : Address := ⟨UInt64.ofNat n⟩

/-- The mask of the bits that select a byte inside a page. -/
def offsetMask : UInt64 := UInt64.ofNat (pageSize - 1)

/-- The start of the page that holds `a`. -/
def alignDown (a : Address) : Address := ⟨a.word &&& ~~~offsetMask⟩

/-- The position of `a` inside its page. -/
def pageOffset (a : Address) : Offset :=
  ⟨(a.word &&& offsetMask).toNat, Nat.lt_of_le_of_lt Nat.and_le_right (by decide)⟩

/-- `a` is the first byte of a page. -/
def isPageAligned (a : Address) : Bool := a.pageOffset.val == 0

/-- The address `n` bytes after `a`, if there is one. -/
def add? (a : Address) (n : Nat) : Option Address :=
  if a.toNat + n < wordLimit then some (ofNat (a.toNat + n)) else none

/-- The address `n` bytes after `a`; leaving the address space is refused. -/
def add (a : Address) (n : Nat) : Except Panic Address :=
  match a.add? n with
  | some b => .ok b
  | none => .error .addOverflow

/-- The form of an address in messages: a whole word in capital hexadecimal digits. -/
def text (a : Address) : String := Text.hexWord a.toNat

/-- An address as a field value. -/
def fieldText (a : Address) : String := "VA(" ++ a.text ++ ")"

theorem toNat_ofNat {n : Nat} (h : n < wordLimit) : (ofNat n).toNat = n :=
  UInt64.toNat_ofNat_of_lt' h

/-- The low bits of an address are its remainder by the page size. -/
theorem val_pageOffset (a : Address) : a.pageOffset.val = a.toNat % pageSize := by
  have mask : offsetMask.toNat = pageSize - 1 := by decide
  simp only [pageOffset, UInt64.toNat_and, mask]
  exact Nat.and_two_pow_sub_one_eq_mod _ 12

theorem isPageAligned_iff (a : Address) : a.isPageAligned = true ↔ a.toNat % pageSize = 0 := by
  rw [isPageAligned, val_pageOffset, beq_iff_eq]

theorem ext {a b : Address} (h : a.toNat = b.toNat) : a = b := by
  obtain ⟨a⟩ := a
  obtain ⟨b⟩ := b
  exact congrArg mk (UInt64.toNat.inj h)

end Address

end DemandPaging
