import DemandPaging.Entry
import DemandPaging.Error

/-!
# Faults on managed pages

A fault is resolved by what the page table knows of the page. The code that
the host gives with the fault serves only as a cross-check.
-/

namespace DemandPaging

/-- What the host says about a fault. -/
inductive FaultCode where
  /-- Nothing is mapped at the address. -/
  | notMapped
  /-- The mapping does not allow the access. -/
  | accessDenied
  /-- Any other code. -/
  | other (code : Int)
  deriving DecidableEq, Repr

namespace FaultCode

/-- The meaning of a code of the host. -/
def ofNumber (code : Int) : FaultCode :=
  if code = 1 then notMapped else if code = 2 then accessDenied else other code

/-- The name of the code as a field value. -/
def fieldText : FaultCode → String
  | notMapped => "NotMapped"
  | accessDenied => "AccessDenied"
  | other code => "Other(" ++ toString code ++ ")"

end FaultCode

/-- What is done about a fault. -/
inductive FaultKind where
  /-- The page is loaded and may be read. -/
  | pageIn
  /-- The page may be read again. -/
  | grantRead
  /-- The page may be written from now on, and counts as written. -/
  | grantWrite
  deriving DecidableEq, Repr

namespace FaultKind

/-- The name of the resolution as a field value. -/
def fieldText : FaultKind → String
  | pageIn => "PageIn"
  | grantRead => "GrantRead"
  | grantWrite => "GrantWrite"

/-- The reason for the resolution. -/
def reason : FaultKind → String
  | pageIn => "non-resident page, loading from swap"
  | grantRead => "access to a page with its rights revoked"
  | grantWrite => "write to a read-only page"

/-- How a fault on page `p` with entry `e` is resolved. A resident page cannot be unmapped, and a page with
full rights cannot fault at all. -/
def classify (p : Page) (e : Entry) (code : FaultCode) : Except PagerError FaultKind :=
  if e.resident then
    if code = .notMapped then .error (.invariant p .residentUnmapped)
    else match e.permission with
      | .noAccess => .ok grantRead
      | .read => .ok grantWrite
      | .readWrite => .error (.invariant p .alreadyReadWrite)
  else .ok pageIn

end FaultKind

end DemandPaging
