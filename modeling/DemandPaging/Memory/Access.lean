import DemandPaging.Memory

/-!
# Accesses to managed pages

An access that is denied raises a fault; once the fault is resolved it is tried
again. A load needs one fault at most and a store needs two: the first makes
the page readable, the second makes it writable. An access is carried out only
after it was found not to be denied any more.

The denial may be read off the page table or off the mapping. The host only
knows the mapping, and a failure while it resolves a fault ends the process.
-/

namespace DemandPaging

/-- Faults after which an access is permitted. -/
def Access.faultBound : Access → Nat
  | .read => 1
  | .write => 2

/-- The faults that an access raised, and the stop that ended it. -/
structure Resolution where
  /-- How the faults were resolved, in order. -/
  faults : List FaultKind
  /-- Why a fault was not resolved. -/
  stopped : Option Stop

namespace Memory

/-- The denial of an access, as the page table records it. -/
def recordedDenial (p : Page) (a : Access) (s : Memory) : Option FaultCode :=
  if (s.entry p).resident && a.allowedBy (s.entry p).permission then none else some .accessDenied

/-- The denial of an access by the host. -/
def hostDenial (p : Page) (a : Access) (s : Memory) : Option FaultCode := s.mapping.denial p a

/-- Raise faults on page `p` while the access is denied, at most `bound` of them. The fault of an access that is
denied even then is not handled, and ends the process. -/
def resolve (host : Host) (p : Page) (denial : Memory → Option FaultCode) :
    Nat → Step Memory Resolution
  | 0 => do
    match ← Step.query denial with
    | none => return ⟨[], none⟩
    | some _ => return ⟨[], some (.killed .segmentation)⟩
  | bound + 1 => do
    match ← Step.query denial with
    | none => return ⟨[], none⟩
    | some code =>
      match ← Step.attempt (handleFault host p code) with
      | .error stop => return ⟨[], some stop⟩
      | .ok kind =>
        let rest ← resolve host p denial bound
        return { rest with faults := kind :: rest.faults }

/-- Bring an access about by the page table and carry it out at the given position; nothing comes of it if a fault
was not resolved or the page has lost its mapping. -/
def demand {α : Type} (host : Host) (p : Page) (a : Access) (position : Nat)
    (carryOut : Offset → Step Memory α) : Step Memory (Resolution × Option α) := do
  let r ← resolve host p (recordedDenial p a) a.faultBound
  if r.stopped.isSome then
    return (r, none)
  if ← Step.query fun s => (s.mapping.frame p).isNone then
    return (r, none)
  let i ← Step.ofChecked (Offset.ofNat position)
  return (r, some (← carryOut i))

/-- End the process because of a failure that it does not survive. -/
def die {σ α : Type} (e : PagerError) : Step σ α := do
  Step.report (.fatal e)
  Step.report .gaveUp
  throw (.killed .abort)

/-- End the process if a step that nobody waits for stopped. -/
def survive {σ : Type} : Option Stop → Step σ Unit
  | some (.error e) => die e
  | some stop => throw stop
  | none => return ()

/-- Handle a fault. The process does not survive a failure. -/
def settle (host : Host) (p : Page) (code : FaultCode) : Step Memory Unit := do
  match ← Step.attempt (handleFault host p code) with
  | .ok _ => return ()
  | .error stop => survive (some stop)

/-- Bring an access about as the host does it. -/
def reach (host : Host) (p : Page) (a : Access) : Step Memory Unit := do
  let r ← resolve host p (hostDenial p a) a.faultBound
  survive r.stopped

/-- The page and the offset of an address. An address outside the managed range ends the process. -/
def locate (a : Address) : Step Memory (Page × Offset) := do
  match ← Step.query fun s => s.mapping.range.pageOf? a with
  | some p => return (p, a.pageOffset)
  | none =>
    Step.report (.violation a)
    throw (.killed .segmentation)

/-- The byte at offset `i` of page `p`. -/
def fetch (p : Page) (i : Offset) : Step Memory UInt8 := do
  return (← image p).get i

/-- The word at offset `i` of page `p`. -/
def fetchWord (p : Page) (i : Offset) : Step Memory UInt32 := do
  return (← image p).word i

/-- Load the byte at an address. -/
def loadByte (host : Host) (a : Address) : Step Memory UInt8 := do
  let (p, i) ← locate a
  reach host p .read
  fetch p i

/-- Store a byte at an address. -/
def storeByte (host : Host) (a : Address) (b : UInt8) : Step Memory Unit := do
  let (p, i) ← locate a
  reach host p .write
  store p i b

/-- Load the word at an aligned address. -/
def loadWord (host : Host) (a : Address) : Step Memory UInt32 := do
  let (p, i) ← locate a
  reach host p .read
  fetchWord p i

/-- Store a word at an aligned address. -/
def storeWord (host : Host) (a : Address) (w : UInt32) : Step Memory Unit := do
  let (p, i) ← locate a
  reach host p .write
  storeWordAt p i w

/-- The host drops the mapping of page `p`. -/
def lose (p : Page) : Step Memory Unit :=
  Step.update fun s => { s with mapping := s.mapping.lose p }

end Memory

end DemandPaging
