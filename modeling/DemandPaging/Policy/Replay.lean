import DemandPaging.Policy

/-!
# Replay of access traces

The smallest model of demand paging: a set of resident pages, a set of pages
that were used, and a policy. It knows neither rights nor contents, and serves
to count what a policy loads and evicts over a trace.
-/

namespace DemandPaging

/-- The state of a replay. -/
structure Replay where
  /-- The policy that chooses the victims. -/
  policy : Policy
  /-- Pages that may be resident at once. -/
  budget : Nat
  /-- The resident pages. -/
  resident : List Page := []
  /-- The pages used since their rights were last withdrawn. -/
  accessed : List Page := []
  /-- Loads so far. -/
  loads : Nat := 0
  /-- Evicted pages, in order. -/
  victims : Array Page := #[]
  /-- Withdrawals so far. -/
  revocations : Nat := 0

namespace Replay

/-- The policy sees the pages of `accessed`; no withdrawal is refused. -/
def tracker : Tracker (List Page) Empty where
  accessed used page := used.contains page
  refusal _ _ := none
  revoke used page := used.filter (· != page)

/-- Make room for one page, if there is none. -/
def makeRoom (r : Replay) : Replay :=
  if r.resident.length = r.budget then
    match r.policy.evict with
    | (some victim, policy) =>
      { r with
        policy
        resident := r.resident.filter (· != victim)
        accessed := r.accessed.filter (· != victim)
        victims := r.victims.push victim }
    | (none, policy) => { r with policy }
  else r

/-- Make a page resident. -/
def load (r : Replay) (page : Page) : Except Panic Replay := do
  if r.resident.contains page then return r
  let r := r.makeRoom
  let policy ← r.policy.insert page
  return { r with policy, resident := page :: r.resident, loads := r.loads + 1 }

/-- Mark a page as used. -/
def touch (r : Replay) (page : Page) : Replay :=
  { r with accessed := if r.accessed.contains page then r.accessed else page :: r.accessed }

/-- Deliver a tick. -/
def tick (r : Replay) : Replay :=
  let result := r.policy.tick tracker r.accessed
  { r with
    policy := result.policy
    accessed := result.state
    revocations := r.revocations + result.revoked.length }

/-- Access a page. -/
def access (r : Replay) (page : Page) : Except Panic Replay :=
  return (← r.load page).touch page

/-- Access the pages of a trace in order, with a tick after every `period`-th one; without a tick if `period` is zero.
`done` accesses came before the trace. -/
def run (period : Nat) : Nat → List Page → Replay → Except Panic Replay
  | _, [], r => .ok r
  | done, page :: trace, r => do
    let r ← r.access page
    let r := if period ≠ 0 ∧ (done + 1) % period = 0 then r.tick else r
    run period (done + 1) trace r

end Replay

end DemandPaging
