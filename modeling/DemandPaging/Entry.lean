import DemandPaging.Permission

/-!
# Page table entries

What the table knows of one page. An entry is stored in one byte; the three
bits without a meaning are carried along unchanged.
-/

namespace DemandPaging

/-- The recorded state of one page. -/
structure Entry where
  /-- The page has memory of its own. -/
  resident : Bool
  /-- The page was used since its rights were last withdrawn. -/
  accessed : Bool
  /-- The page was written since it was last loaded. -/
  dirty : Bool
  /-- The two bits that hold the rights. -/
  rights : Fin 4
  /-- The bits without a meaning: number 3, then 6 and 7. -/
  spare : Fin 8
  deriving DecidableEq, Repr

namespace Entry

/-- The entry of a page that is not resident. -/
def empty : Entry := ⟨false, false, false, ⟨0, by decide⟩, ⟨0, by decide⟩⟩

/-- The entry stored in the byte `n`. -/
def ofBits (n : Nat) : Entry where
  resident := n.testBit 0
  accessed := n.testBit 1
  dirty := n.testBit 2
  rights := ⟨n / 16 % 4, Nat.mod_lt _ (by decide)⟩
  spare := ⟨(n / 8 % 2 + n / 64 * 2) % 8, Nat.mod_lt _ (by decide)⟩

/-- The byte in which the entry is stored. -/
def bits (e : Entry) : Nat :=
  e.resident.toNat + 2 * e.accessed.toNat + 4 * e.dirty.toNat + 8 * (e.spare.val % 2) +
    16 * e.rights.val + 64 * (e.spare.val / 2)

/-- The rights that the entry records. -/
def permission (e : Entry) : Permission := Permission.ofBits e.rights.val

/-- Record the rights `p`. -/
def withPermission (e : Entry) (p : Permission) : Entry := { e with rights := p.bits }

/-- Only a resident page may be used, dirty or accessible. -/
def isConsistent (e : Entry) : Bool :=
  e.resident || (!e.accessed && !e.dirty && e.permission == .noAccess)

/-- The entry as a record. -/
def text (e : Entry) : String :=
  "PageTableEntry \x7b resident: " ++ toString e.resident ++ ", accessed: " ++ toString e.accessed ++
    ", dirty: " ++ toString e.dirty ++ ", permission: " ++ e.permission.fieldText ++ " \x7d"

@[simp] theorem permission_withPermission (e : Entry) (p : Permission) :
    (e.withPermission p).permission = p :=
  Permission.ofBits_bits p

end Entry

end DemandPaging
