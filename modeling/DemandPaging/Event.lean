import DemandPaging.Address.Range
import DemandPaging.Counters
import DemandPaging.Fault
import DemandPaging.Log.Record
import DemandPaging.Policy.Kind

/-!
# Events

What the pager reports while it works. Events are data; `Event.line` gives the
log line of each.
-/

namespace DemandPaging

/-- Something that the pager reports. -/
inductive Event where
  /-- A policy was built for a number of resident pages. -/
  | policyBuilt (kind : PolicyKind) (budget : Nat)
  /-- The swap file has its size. -/
  | swapReady
  /-- The range was not placed at the preferred base. -/
  | baseMoved (base : Address)
  /-- A fault was classified. -/
  | fault (page : Page) (kind : FaultKind)
  /-- A victim was chosen to make room for another page. -/
  | evicting (victim faulting : Page)
  /-- A page was loaded with the given rights. -/
  | mapped (page : Page) (permission : Permission)
  /-- The memory of a page was given back. -/
  | unmapped (page : Page)
  /-- A tick withdrew the rights of this many pages. -/
  | rotated (count : Nat)
  /-- An allocation did not fit behind the bytes in use. -/
  | allocationRefused (size used : Nat)
  /-- A pager took charge of a range. -/
  | started (range : Range)
  /-- The settings of a pager that was started. -/
  | configured (budget : Nat) (kind : PolicyKind) (timer : Option Interval)
  /-- A pager was shut down in a state that breaks a rule. -/
  | leftInconsistent (e : PagerError)
  /-- A pager was shut down. -/
  | stopped (stats : Stats)
  /-- A pager that was dropped could not be shut down without a failure. -/
  | teardownFailed (e : PagerError)
  /-- A failure that the process does not survive. -/
  | fatal (e : PagerError)
  /-- The process gives up. -/
  | gaveUp
  /-- An access outside the managed range. -/
  | violation (address : Address)

namespace Event

/-- The log line of an event. -/
def line : Event → Log.Line
  | policyBuilt kind budget => .record ⟨.debug, "uvm_policy::kind",
      "building " ++ kind.text ++ " policy for " ++ toString budget ++ " resident pages"⟩
  | swapReady => .record ⟨.debug, "uvm_swap",
      "swap store ready: " ++ toString swapSize ++ " bytes"⟩
  | baseMoved base => .record ⟨.debug, "uvm_pager::mapper",
      "preferred base unavailable, reserved at " ++ base.text⟩
  | fault page kind => .record ⟨.trace, "uvm_pager::system",
      "fault on " ++ toString page.val ++ ": " ++ kind.reason⟩
  | evicting victim faulting => .record ⟨.debug, "uvm_pager::system",
      "evicting " ++ toString victim.val ++ " to make room for " ++ toString faulting.val⟩
  | mapped page permission => .record ⟨.debug, "uvm_pager::system",
      "mapped " ++ toString page.val ++ " (" ++ permission.text ++ ")"⟩
  | unmapped page => .record ⟨.debug, "uvm_pager::system", "unmapped " ++ toString page.val⟩
  | rotated count => .record ⟨.trace, "uvm_policy::clock",
      "clock tick rotated " ++ toString count ++ " page(s)"⟩
  | allocationRefused size used => .record ⟨.warn, "uvm_pager::system",
      "allocation of " ++ toString size ++ " bytes does not fit, " ++ Text.hex used ++
        " already in use"⟩
  | started range => .record ⟨.info, "uvm_pager::pager",
      "\"physical memory\" is in the range " ++ range.base.text ++ ".." ++ range.stop.text ++ " (" ++
        toString pageCount ++ " pages of " ++ toString pageSize ++ " bytes)"⟩
  | configured budget kind timer => .record ⟨.info, "uvm_pager::pager",
      "resident budget " ++ toString budget ++ " pages, " ++ kind.text ++ " eviction, timer " ++
        (match timer with
          | some interval => "Some(" ++ interval.text ++ ")"
          | none => "None")⟩
  | leftInconsistent e => .record ⟨.warn, "uvm_pager::pager",
      "inconsistent state at shutdown: " ++ e.message⟩
  | stopped stats => .record ⟨.info, "uvm_pager::pager",
      "shutdown after " ++ toString stats.faults ++ " faults, " ++ toString stats.loads ++
        " page loads, " ++ toString stats.evictions ++ " evictions, " ++ toString stats.flushes ++
        " flushes"⟩
  | teardownFailed e => .record ⟨.error, "uvm_pager::pager", "pager teardown failed: " ++ e.message⟩
  | fatal e => .record ⟨.error, "uvm_pager::signals", e.message⟩
  | gaveUp => .bare "uvm: unrecoverable paging error, aborting"
  | violation address => .record ⟨.error, "uvm_pager::signals",
      "segmentation violation at " ++ address.text ++ ", outside the managed range"⟩

/-- The log lines of a journal that the threshold lets through, in order. -/
def logLines (threshold : Log.Threshold) (journal : Array Event) : List String :=
  journal.toList.filterMap fun e => e.line.text? threshold

end Event

end DemandPaging
