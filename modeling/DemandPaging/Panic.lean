import DemandPaging.Page

/-!
# Refused calls

A call that breaks a rule its caller has to keep is refused with a panic. The
causes are kept apart; the wording stands in `Panic.message`.
-/

namespace DemandPaging

/-- Why a call was refused. -/
inductive Panic where
  /-- A page number beyond the last page. -/
  | pageOutOfRange
  /-- A range base inside a page. -/
  | baseNotAligned
  /-- A range that does not fit below the end of the address space. -/
  | rangeWraps
  /-- A sum beyond the largest machine word. -/
  | addOverflow
  /-- A product beyond the largest machine word. -/
  | multiplyOverflow
  /-- A page that a policy was given while it already holds it. -/
  | mappedTwice (page : Page)
  /-- An element that does not lie inside its region. -/
  | outOfBounds (offset length : Nat)
  /-- A byte position beyond the end of a page. -/
  | offsetOutsidePage
  /-- A region too small for the matrix it should hold. -/
  | regionTooSmall
  /-- A copy between matrices of different shapes. -/
  | shapesDiffer (source target : Nat × Nat)
  /-- A product of matrices that do not conform. -/
  | innerSizesDiffer (columns rows : Nat)
  /-- A vector longer than the address space admits. -/
  | capacityOverflow
  /-- A closure that gave up with a text of its own. -/
  | raised (text : String)
  deriving DecidableEq, Repr

namespace Panic

/-- The wording of a failed comparison of two values that should be equal. -/
def unequal (left right : String) : String :=
  "assertion \x60left == right\x60 failed\n  left: " ++ left ++ "\n right: " ++ right

/-- A pair of sizes, in the form used in messages. -/
def shapeText (shape : Nat × Nat) : String :=
  "(" ++ toString shape.1 ++ ", " ++ toString shape.2 ++ ")"

/-- The wording of a refusal. -/
def message : Panic → String
  | pageOutOfRange => "page number out of range"
  | baseNotAligned => "range base not page aligned"
  | rangeWraps => "range wraps around"
  | addOverflow => "attempt to add with overflow"
  | multiplyOverflow => "attempt to multiply with overflow"
  | mappedTwice page => toString page.val ++ " mapped twice"
  | outOfBounds offset length =>
      "offset " ++ toString offset ++ " out of bounds for a region of " ++ toString length ++ " bytes"
  | offsetOutsidePage => "assertion failed: off < PAGE_SIZE"
  | regionTooSmall => "assertion failed: region.len() >= rows * cols * size_of::<i32>()"
  | shapesDiffer source target => unequal (shapeText source) (shapeText target)
  | innerSizesDiffer columns rows => unequal (toString columns) (toString rows)
  | capacityOverflow => "capacity overflow"
  | raised text => text

end Panic

/-- The page with number `n`; a number beyond the last page is refused. -/
def Page.ofNat (n : Nat) : Except Panic Page :=
  match Page.ofNat? n with
  | some page => .ok page
  | none => .error .pageOutOfRange

/-- The offset `n`; a position beyond the end of a page is refused. -/
def Offset.ofNat (n : Nat) : Except Panic Offset :=
  match Offset.ofNat? n with
  | some offset => .ok offset
  | none => .error .offsetOutsidePage

end DemandPaging
