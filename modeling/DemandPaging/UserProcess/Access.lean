import DemandPaging.Matrix
import DemandPaging.UserProcess

/-!
# Accesses while the timer runs

The timer signal falls between any two moves of an access: before it is tried,
before the fault of a denied access is handled, and before it is tried again.
Where no signal is due any more, an access is one of the managed memory alone.
-/

namespace DemandPaging

namespace UserProcess

/-- Bring an access about while the timer signal is raised so many times before each move; `denied` is the code of the
fault on its way, if there is one. Hands out what is left of the timing. -/
def bringAbout (host : Host) (p : Page) (a : Access) : Option FaultCode → List Nat → Step UserProcess (List Nat)
  | none, [] => do
    run (Memory.reach host p a)
    return []
  | some code, [] => do
    run (Memory.settle host p code)
    run (Memory.reach host p a)
    return []
  | none, n :: timing => do
    raiseTimes host n
    match ← run (Step.query (Memory.hostDenial p a)) with
    | none => return timing
    | some code => bringAbout host p a (some code) timing
  | some code, n :: timing => do
    raiseTimes host n
    run (Memory.settle host p code)
    bringAbout host p a none timing

/-- Bring an access about while the timer runs. -/
def reach (host : Host) (p : Page) (a : Access) : Step UserProcess Unit := do
  let timing ← Step.apply fun u => (u.timing, { u with timing := [] })
  let timing ← bringAbout host p a none timing
  Step.update ({ · with timing })

/-- Bring an access to an address about and carry it out. -/
def access {α : Type} (host : Host) (x : Address) (a : Access) (carryOut : Page → Offset → Step Memory α) :
    Step UserProcess α := do
  let (p, i) ← run (Memory.locate x)
  reach host p a
  run (carryOut p i)

/-- Load the byte at an offset of a region. -/
def readByte (host : Host) (r : Region) (offset : Nat) : Step UserProcess UInt8 := do
  access host (← Step.ofChecked (r.address offset 1)) .read Memory.fetch

/-- Store a byte at an offset of a region. -/
def writeByte (host : Host) (r : Region) (offset : Nat) (b : UInt8) : Step UserProcess Unit := do
  access host (← Step.ofChecked (r.address offset 1)) .write fun p i => Memory.store p i b

/-- Load the signed word with number `index` of a region. -/
def readWord (host : Host) (r : Region) (index : Nat) : Step UserProcess Int32 := do
  return (← access host (← Step.ofChecked (r.wordAddress index)) .read Memory.fetchWord).toInt32

/-- Store the signed word with number `index` of a region. -/
def writeWord (host : Host) (r : Region) (index : Nat) (w : Int32) : Step UserProcess Unit := do
  access host (← Step.ofChecked (r.wordAddress index)) .write fun p i => Memory.storeWordAt p i w.toUInt32

end UserProcess

/-- A matrix in managed memory, seen through the accesses of a process. -/
def PagedMatrix.shared (host : Host) (a : PagedMatrix) : Matrix (Step UserProcess) where
  rows := a.rows
  columns := a.columns
  get r c := UserProcess.readWord host a.region (r * a.columns + c)
  set r c x := UserProcess.writeWord host a.region (r * a.columns + c) x

end DemandPaging
