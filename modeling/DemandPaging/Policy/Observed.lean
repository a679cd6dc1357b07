import DemandPaging.Policy

/-!
# A policy under observation

A policy together with the set of pages that were used and the set of pages
whose rights cannot be withdrawn. Unlike in managed memory both sets can be
changed at will, so every behaviour of a policy can be brought about.
-/

namespace DemandPaging

/-- A policy and the pages that it is told about. -/
structure Observed where
  /-- The policy. -/
  policy : Policy
  /-- The pages that were used. -/
  accessed : List Page := []
  /-- The pages whose rights cannot be withdrawn. -/
  refusing : List Page := []

namespace Observed

/-- Why a withdrawal is refused. -/
def refusalText : String := "protection change refused"

/-- A set of used pages as a policy sees it, when the rights of the pages in `refusing` cannot be withdrawn. -/
def tracker (refusing : List Page) : Tracker (List Page) RevokeError where
  accessed used p := used.contains p
  refusal _ p := if refusing.contains p then some ⟨p, .custom refusalText⟩ else none
  revoke used p := used.filter (· != p)

/-- Hand a page to the policy. A refused page changes nothing. -/
def insert (o : Observed) (p : Page) : Except Panic Observed :=
  return { o with policy := ← o.policy.insert p }

/-- Use a page; tells whether it was not used before. -/
def touch (o : Observed) (p : Page) : Bool × Observed :=
  if o.accessed.contains p then (false, o) else (true, { o with accessed := p :: o.accessed })

/-- Deliver a tick; hands out the pages whose rights were withdrawn, and the refusal that ended the tick. -/
def tick (o : Observed) : (List Page × Option RevokeError) × Observed :=
  let r := o.policy.tick (tracker o.refusing) o.accessed
  ((r.revoked, r.refused), { o with policy := r.policy, accessed := r.state })

/-- Let the policy choose a victim, whose use is forgotten. -/
def evict (o : Observed) : Option Page × Observed :=
  let r := o.policy.evict
  (r.1, { o with policy := r.2, accessed := o.accessed.filter fun p => r.1 != some p })

end Observed

end DemandPaging
