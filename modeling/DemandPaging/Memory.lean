import DemandPaging.Config
import DemandPaging.Mapping
import DemandPaging.PageTable
import DemandPaging.Policy
import DemandPaging.Swap

/-!
# Managed memory

Page table, mapping, swap file and policy, and the steps that keep them in
agreement: resolving a fault, delivering a tick and allocating memory. A step
that the host refuses stops at once and leaves what was done so far.
-/

namespace DemandPaging

/-- Everything that faults and ticks work on. -/
structure Memory where
  /-- What is recorded of each page. -/
  table : PageTable
  /-- What the host holds behind each page. -/
  mapping : Mapping
  /-- The contents of pages that are not resident. -/
  swap : SwapFile
  /-- The order in which resident pages leave. -/
  policy : Policy
  /-- Pages that may be resident at once. -/
  budget : Nat
  /-- What was counted so far. -/
  counters : Counters
  /-- Bytes of the range in use by allocations. -/
  allocated : Nat

namespace Memory

/-- Set up managed memory without resident pages. -/
def new {σ : Type} (host : Host) (config : Config) : Step σ Memory := do
  Step.ofExcept config.validate
  let policy ← Step.ofOutcome (Policy.build host config.policy config.budget config.seed)
  Step.report (.policyBuilt config.policy config.budget)
  let swap ← SwapFile.create host config.swapDirectory
  let mapping ← Mapping.reserve host
  return {
    table := .new, mapping, swap, policy
    budget := config.budget
    counters := {}
    allocated := 0 }

/-- The entry of page `p`. -/
def entry (s : Memory) (p : Page) : Entry := s.table.entry p

/-- The counts and the number of resident pages. -/
def stats (s : Memory) : Stats := { s.counters with resident := s.table.residentCount }

/-- Change the counters. -/
def count (f : Counters → Counters) : Step Memory Unit :=
  Step.update fun s => { s with counters := f s.counters }

/-- Change the page table. -/
def record (f : PageTable → PageTable) : Step Memory Unit :=
  Step.update fun s => { s with table := f s.table }

/-- The bytes of page `p`. -/
def image (p : Page) : Step Memory PageImage := Step.query (·.mapping.image p)

/-- Replace one byte of page `p`. -/
def store (p : Page) (i : Offset) (b : UInt8) : Step Memory Unit :=
  Step.update fun s => { s with mapping := s.mapping.store p i b }

/-- Replace the word at offset `i` of page `p`. -/
def storeWordAt (p : Page) (i : Offset) (w : UInt32) : Step Memory Unit :=
  Step.update fun s => { s with mapping := s.mapping.storeWord p i w }

/-- Replace the bytes of page `p`. -/
def fill (p : Page) (image : PageImage) : Step Memory Unit :=
  Step.update fun s => { s with mapping := s.mapping.fill p image }

/-- Put the rights of a page into force and record them. -/
def protect (host : Host) (p : Page) (perm : Permission) : Step Memory Unit := do
  Step.refuse ((← Step.query fun s => s.mapping.protectFailure host p perm).map .map)
  Step.update fun s => { s with mapping := s.mapping.protect p perm }
  record (·.recordPermission p perm)

/-- Save a written page to its slot. It can only be read from then on, so that a later write is noticed. -/
def flush (host : Host) (p : Page) : Step Memory Unit := do
  protect host p .read
  Step.update fun s => { s with swap := s.swap.write host p (s.mapping.image p) }
  Step.refuse ((SwapFile.writeFailure host p).map .swap)
  record (·.setDirty p false)
  count fun c => { c with flushes := c.flushes + 1 }

/-- Save a page if it was written, and take its memory back. -/
def unload (host : Host) (p : Page) : Step Memory Unit := do
  let e ← Step.query (·.entry p)
  Step.refuse (if e.resident then none else some (.invariant p .victimNotResident))
  if e.dirty then
    flush host p
  Step.refuse ((Mapping.unbindFailure host p).map .map)
  Step.update fun s => { s with mapping := s.mapping.unbind p }
  record (·.clear p)
  Step.report (.unmapped p)

/-- Give a page memory, load it from its slot and put its rights into force. -/
def load (host : Host) (p : Page) (perm : Permission) : Step Memory Unit := do
  let full ← Step.query fun s => decide (s.budget < s.table.residentCount + 1)
  Step.refuse (if full then some (.invariant p .noRoom) else none)
  Step.refuse ((Mapping.bindFailure host p).map .map)
  Step.update fun s => { s with mapping := s.mapping.bind p }
  let image ← Step.ofExcept ((← Step.query fun s => s.swap.read host p).mapError .swap)
  fill p image
  record (·.setResident p)
  protect host p perm
  count fun c => { c with loads := c.loads + 1 }
  Step.report (.mapped p perm)

/-- Unload the page that the policy chooses, to make room for `faulting`. -/
def evictOne (host : Host) (faulting : Page) : Step Memory Unit := do
  let victim? ← Step.apply fun s =>
    let choice := s.policy.evict
    (choice.1, { s with policy := choice.2 })
  match victim? with
  | none => Step.fail (.invariant faulting .noVictim)
  | some victim =>
    Step.report (.evicting victim faulting)
    unload host victim
    count fun c => { c with evictions := c.evictions + 1 }

/-- Hand a loaded page to the policy. -/
def track (p : Page) : Step Memory Unit := do
  let policy ← Step.ofChecked (← Step.query fun s => s.policy.insert p)
  Step.update fun s => { s with policy }

/-- Resolve a fault on page `p`. -/
def handleFault (host : Host) (p : Page) (code : FaultCode) : Step Memory FaultKind := do
  let kind ← Step.ofExcept (FaultKind.classify p (← Step.query (·.entry p)) code)
  count fun c => { c with faults := c.faults + 1 }
  Step.report (.fault p kind)
  match kind with
  | .pageIn =>
    if ← Step.query fun s => decide (s.budget ≤ s.table.residentCount) then
      evictOne host p
    load host p .read
    record (·.setAccessed p true)
    track p
  | .grantRead =>
    protect host p .read
    record (·.setAccessed p true)
  | .grantWrite =>
    protect host p .readWrite
    record fun t => (t.setDirty p true).setAccessed p true
  return kind

/-- What a policy sees of managed memory: the use of a page is recorded in its entry, and its rights are withdrawn in the
mapping first. -/
def tracker (host : Host) : Tracker Memory RevokeError where
  accessed s p := (s.entry p).accessed
  refusal s p := (s.mapping.protectRefusal host p .noAccess).map (RevokeError.mk p)
  revoke s p :=
    { s with
      mapping := s.mapping.protect p .noAccess
      table := (s.table.recordPermission p .noAccess).setAccessed p false }

/-- Deliver a tick to the policy. -/
def tick (host : Host) : Step Memory Unit := do
  count fun c => { c with ticks := c.ticks + 1 }
  let result ← Step.apply fun s =>
    let result := s.policy.tick (tracker host) s
    ((result.revoked.length, result.refused), { result.state with policy := result.policy })
  if result.1 ≠ 0 then
    Step.report (.rotated result.1)
  Step.refuse (result.2.map .revoke)

/-- `n` rounded up to a multiple of the allocation alignment. -/
def alignUp (n : Nat) : Nat :=
  (n + (allocationAlignment - 1)) / allocationAlignment * allocationAlignment

/-- Take `size` bytes from the unused end of the range. Memory is never given back. -/
def allocate (size : Nat) : Step Memory (Option Address) := do
  let start ← Step.query fun s => alignUp s.allocated
  if wordLimit ≤ start + size then
    return none
  if memorySize < start + size then
    Step.report (.allocationRefused size start)
    return none
  Step.update fun s => { s with allocated := start + size }
  Step.query fun s => s.mapping.range.base.add? start

/-- The first rule that a state breaks: the budget, then the entries, then the stored number of resident pages, then
the pages held by the policy. -/
def violation? (s : Memory) : Option PagerError :=
  if s.budget < s.table.residentCount then some (.invariant .first .budgetExceeded)
  else if let some p := Page.all.find? fun p => !(s.entry p).isConsistent then
    some (.invariant p .entryInconsistent)
  else if !s.table.isConsistent then some (.invariant .first .countDisagrees)
  else if let some p := Page.all.find? fun p => s.policy.tracked.contains p != (s.entry p).resident then
    some (.invariant p .policyDisagrees)
  else none

/-- Stop if the state breaks a rule. -/
def check : Step Memory Unit := do
  Step.refuse (← Step.query violation?)

end Memory

end DemandPaging
