import DemandPaging.Entry
import DemandPaging.Page.Map

/-!
# The page table

One entry for every page, and the number of resident pages kept beside them.
-/

namespace DemandPaging

/-- The recorded state of every page. -/
structure PageTable where
  /-- The entry of each page. -/
  entries : PageMap Entry
  /-- The stored number of resident pages. -/
  residentCount : Nat

namespace PageTable

/-- The table of a range without resident pages. -/
def new : PageTable := ⟨.const .empty, 0⟩

/-- The entry of page `p`. -/
def entry (t : PageTable) (p : Page) : Entry := t.entries.get p

/-- Change the entry of page `p` and leave the stored number alone. -/
def modify (t : PageTable) (p : Page) (f : Entry → Entry) : PageTable :=
  { t with entries := t.entries.modify p f }

/-- Forget page `p`: it is no longer resident. -/
def clear (t : PageTable) (p : Page) : PageTable where
  residentCount := if (t.entry p).resident then t.residentCount - 1 else t.residentCount
  entries := t.entries.set p .empty

/-- Record page `p` as resident. -/
def setResident (t : PageTable) (p : Page) : PageTable where
  residentCount := if (t.entry p).resident then t.residentCount else t.residentCount + 1
  entries := t.entries.modify p ({ · with resident := true })

/-- Record that page `p` was used, or that its use was forgotten. -/
def setAccessed (t : PageTable) (p : Page) (used : Bool) : PageTable :=
  t.modify p ({ · with accessed := used })

/-- Record that page `p` was written, or that it was saved. -/
def setDirty (t : PageTable) (p : Page) (written : Bool) : PageTable :=
  t.modify p ({ · with dirty := written })

/-- Record the rights of page `p`. -/
def recordPermission (t : PageTable) (p : Page) (perm : Permission) : PageTable :=
  t.modify p (·.withPermission perm)

/-- Let `protect` put the rights of page `p` into force, then record them. If it fails, nothing is recorded. -/
def setPermission {m : Type → Type} [Monad m] (protect : Page → Permission → m Unit)
    (t : PageTable) (p : Page) (perm : Permission) : m PageTable := do
  protect p perm
  return t.recordPermission p perm

/-- The resident pages, in ascending order. -/
def residentPages (t : PageTable) : List Page := t.entries.pagesWhere (·.resident)

/-- Every entry is consistent and the stored number is right. -/
def isConsistent (t : PageTable) : Bool :=
  Page.all.all (fun p => (t.entry p).isConsistent) && t.residentCount == t.residentPages.length

@[simp] theorem entry_new (p : Page) : new.entry p = .empty := PageMap.get_const _ p

theorem entry_modify (t : PageTable) (p q : Page) (f : Entry → Entry) :
    (t.modify p f).entry q = if p = q then f (t.entry q) else t.entry q :=
  PageMap.get_modify ..

theorem entry_clear (t : PageTable) (p q : Page) :
    (t.clear p).entry q = if p = q then .empty else t.entry q :=
  PageMap.get_set ..

theorem entry_setResident (t : PageTable) (p q : Page) :
    (t.setResident p).entry q =
      if p = q then { t.entry q with resident := true } else t.entry q :=
  PageMap.get_modify ..

end PageTable

end DemandPaging
