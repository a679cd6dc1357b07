import DemandPaging.Address
import DemandPaging.HostError
import DemandPaging.Interval
import DemandPaging.Permission
import DemandPaging.Signal

/-!
# Failures of the pager

Every failure as its cause. Wording is kept apart from causes: `message` gives
the text of a failure and `sources` the texts of what it was caused by.
-/

namespace DemandPaging

/-- A policy that cannot be built. -/
inductive PolicyError where
  /-- No page may be resident. -/
  | zeroCapacity
  /-- No policy has this name. -/
  | unknownPolicy (name : String)
  deriving DecidableEq, Repr

/-- A page whose rights the host refused to withdraw. -/
structure RevokeError where
  /-- The page. -/
  page : Page
  /-- The refusal. -/
  cause : HostError
  deriving DecidableEq, Repr

/-- A failure of the swap file. -/
inductive SwapError where
  /-- The file was not created. -/
  | create (cause : HostError)
  /-- The file did not get its size. -/
  | extend (size : Nat) (cause : HostError)
  /-- A slot was not read. -/
  | read (page : Page) (cause : HostError)
  /-- A slot was not written as a whole. -/
  | write (page : Page) (cause : HostError)
  deriving DecidableEq, Repr

/-- A failure of the mapping of the managed range. -/
inductive MapError where
  /-- The range was not reserved. -/
  | reserve (size : Nat) (cause : HostError)
  /-- The host placed the range inside a page. -/
  | misaligned (base : Address)
  /-- A page did not get memory. -/
  | bind (page : Page) (cause : HostError)
  /-- The memory of a page was not given back. -/
  | unbind (page : Page) (cause : HostError)
  /-- The rights of a page were not changed. -/
  | protect (page : Page) (permission : Permission) (cause : HostError)
  deriving DecidableEq, Repr

/-- A rule that a state of the pager breaks. -/
inductive Violation where
  /-- More pages are resident than the budget admits. -/
  | budgetExceeded
  /-- An entry of a page that is not resident records more than that. -/
  | entryInconsistent
  /-- The stored number of resident pages is not their number. -/
  | countDisagrees
  /-- The policy holds other pages than those that are resident. -/
  | policyDisagrees
  /-- The policy holds no page that could be evicted. -/
  | noVictim
  /-- Another resident page would exceed the budget. -/
  | noRoom
  /-- The victim of an eviction is not resident. -/
  | victimNotResident
  /-- The host reports a resident page as unmapped. -/
  | residentUnmapped
  /-- The host reports a fault on a page that has full rights. -/
  | alreadyReadWrite
  deriving DecidableEq, Repr

/-- A failure of the pager. -/
inductive PagerError where
  /-- A budget that admits no page, or more pages than there are. -/
  | residentBudget (requested : Nat)
  /-- A timer interval finer than the timer. -/
  | timerInterval (interval : Interval)
  /-- A host with pages of another size. -/
  | pageSize (host : Nat)
  /-- A second pager beside an active one. -/
  | alreadyInitialized
  /-- A call without an active pager. -/
  | inactive
  /-- A signal handler that the host refused. -/
  | signal (which : Signal) (cause : HostError)
  /-- A timer that the host refused. -/
  | timer (cause : HostError)
  /-- A state that must not arise. -/
  | invariant (page : Page) (what : Violation)
  /-- A policy that cannot be built. -/
  | policy (cause : PolicyError)
  /-- Rights that were not withdrawn. -/
  | revoke (cause : RevokeError)
  /-- A failure of the swap file. -/
  | swap (cause : SwapError)
  /-- A failure of the mapping. -/
  | map (cause : MapError)
  deriving DecidableEq, Repr

namespace PolicyError

/-- The text of a failure. -/
def message : PolicyError → String
  | zeroCapacity => "a policy needs room for at least one resident page"
  | unknownPolicy name =>
      "unknown eviction policy \x60" ++ name ++ "\x60 (expected fifo, clock or random)"

end PolicyError

namespace RevokeError

/-- The text of a failure. -/
def message (e : RevokeError) : String :=
  "failed to revoke access to " ++ toString e.page.val ++ ": " ++ e.cause.text

end RevokeError

namespace SwapError

/-- The text of a failure. -/
def message : SwapError → String
  | create cause => "failed to create the swap file: " ++ cause.text
  | .extend size cause =>
      "failed to extend the swap file to " ++ toString size ++ " bytes: " ++ cause.text
  | read page cause => "failed to read swap slot of " ++ toString page.val ++ ": " ++ cause.text
  | write page cause => "failed to write swap slot of " ++ toString page.val ++ ": " ++ cause.text

/-- The refusal behind a failure. -/
def cause : SwapError → HostError
  | create cause | .extend _ cause | read _ cause | write _ cause => cause

end SwapError

namespace MapError

/-- The text of a failure. -/
def message : MapError → String
  | reserve size cause =>
      "failed to reserve " ++ Text.hex size ++ " bytes of address space: " ++ cause.text
  | misaligned base => "reservation at " ++ base.text ++ " is not page aligned"
  | .bind page cause => "failed to map " ++ toString page.val ++ ": " ++ cause.text
  | unbind page cause => "failed to unmap " ++ toString page.val ++ ": " ++ cause.text
  | protect page permission cause =>
      "failed to set " ++ permission.text ++ " on " ++ toString page.val ++ ": " ++ cause.text

/-- The refusal behind a failure, if the host gave one. -/
def cause? : MapError → Option HostError
  | misaligned _ => none
  | reserve _ cause | .bind _ cause | unbind _ cause | protect _ _ cause => some cause

/-- The failure as a refusal of the host; a misplaced range counts as a bad argument. -/
def toHostError (e : MapError) : HostError := e.cause?.getD .invalidArgument

end MapError

namespace Violation

/-- The rule in words. -/
def text : Violation → String
  | budgetExceeded => "resident budget exceeded"
  | entryInconsistent => "entry state is inconsistent"
  | countDisagrees => "resident count disagrees with the entries"
  | policyDisagrees => "policy and page table disagree"
  | noVictim => "policy has no victim to evict"
  | noRoom => "mapping would exceed the resident budget"
  | victimNotResident => "evicting a page that is not resident"
  | residentUnmapped => "resident page reported as unmapped"
  | alreadyReadWrite => "fault on a page that is already read-write"

end Violation

namespace PagerError

/-- The text of a failure. -/
def message : PagerError → String
  | residentBudget requested =>
      "resident budget " ++ toString requested ++ " is outside 1..=" ++ toString pageCount
  | timerInterval interval =>
      "timer interval " ++ interval.text ++ " is below the " ++
        (Interval.mk timerResolution).text ++ " timer resolution"
  | pageSize host =>
      "host page size " ++ toString host ++ " does not match the pager's " ++
        toString DemandPaging.pageSize
  | alreadyInitialized => "a pager is already active in this process"
  | inactive => "the pager has been shut down"
  | signal which cause => "failed to install the " ++ which.text ++ " handler: " ++ cause.text
  | timer cause => "failed to program the interval timer: " ++ cause.text
  | invariant page what => "invariant violated at " ++ toString page.val ++ ": " ++ what.text
  | policy cause => cause.message
  | revoke cause => cause.message
  | swap cause => cause.message
  | map cause => cause.message

/-- The name of the kind of a failure: its own, or the part that failed and what failed there. -/
def name : PagerError → String
  | residentBudget _ => "ResidentBudget"
  | timerInterval _ => "TimerInterval"
  | pageSize _ => "PageSize"
  | alreadyInitialized => "AlreadyInitialized"
  | inactive => "Inactive"
  | signal .. => "Signal"
  | timer _ => "Timer"
  | invariant .. => "Invariant"
  | policy .zeroCapacity => "Policy.ZeroCapacity"
  | policy (.unknownPolicy _) => "Policy.UnknownPolicy"
  | revoke _ => "Revoke"
  | swap (.create _) => "Swap.Create"
  | swap (.extend ..) => "Swap.Extend"
  | swap (.read ..) => "Swap.Read"
  | swap (.write ..) => "Swap.Write"
  | map (.reserve ..) => "Map.Reserve"
  | map (.misaligned _) => "Map.Misaligned"
  | map (.bind ..) => "Map.Bind"
  | map (.unbind ..) => "Map.Unbind"
  | map (.protect ..) => "Map.Protect"

/-- The texts of what caused a failure, the nearest cause first. -/
def sources : PagerError → List String
  | signal _ cause | timer cause => [cause.text]
  | revoke e => [e.cause.text]
  | swap e => [e.cause.text]
  | map e => (e.cause?.map HostError.text).toList
  | _ => []

end PagerError

end DemandPaging
