import DemandPaging.Memory.Access

/-!
# Regions

A block of managed memory handed out by an allocation. Every access is checked
against the bounds of its region before it touches memory.
-/

namespace DemandPaging

/-- A block of managed memory. -/
structure Region where
  /-- The first address. -/
  start : Address
  /-- Bytes in the block. -/
  length : Nat
  deriving DecidableEq, Repr

namespace Region

/-- Bytes in one element of a region that is seen as words. -/
abbrev wordSize : Nat := 4

/-- The address of an element of `size` bytes at `offset`, which has to lie inside the region as a whole. -/
def address (r : Region) (offset size : Nat) : Except Panic Address :=
  if offset + size ≤ r.length then r.start.add offset else .error (.outOfBounds offset r.length)

/-- The address of the word with number `index`. -/
def wordAddress (r : Region) (index : Nat) : Except Panic Address :=
  if wordLimit ≤ index * wordSize then .error .multiplyOverflow
  else r.address (index * wordSize) wordSize

/-- Load the byte at `offset`. -/
def readByte (host : Host) (r : Region) (offset : Nat) : Step Memory UInt8 := do
  Memory.loadByte host (← Step.ofChecked (r.address offset 1))

/-- Store a byte at `offset`. -/
def writeByte (host : Host) (r : Region) (offset : Nat) (b : UInt8) : Step Memory Unit := do
  Memory.storeByte host (← Step.ofChecked (r.address offset 1)) b

/-- Load the signed word with number `index`. -/
def readWord (host : Host) (r : Region) (index : Nat) : Step Memory Int32 := do
  return (← Memory.loadWord host (← Step.ofChecked (r.wordAddress index))).toInt32

/-- Store the signed word with number `index`. -/
def writeWord (host : Host) (r : Region) (index : Nat) (w : Int32) : Step Memory Unit := do
  Memory.storeWord host (← Step.ofChecked (r.wordAddress index)) w.toUInt32

/-- The offsets `start`, `start + stride` and so on below `stop`, up to the first that lies outside the region: an
access there is the last one. -/
def offsets (r : Region) (start stop stride : Nat) : List Nat :=
  let count (limit : Nat) := (limit - start + (stride - 1)) / stride
  (List.range (min (count stop) (count r.length + 1))).map fun k => start + k * stride

/-- Store `f i` at each of the offsets. -/
def writeEach (host : Host) (r : Region) (f : Nat → UInt8) (offsets : List Nat) : Step Memory Unit :=
  offsets.forM fun i => r.writeByte host i (f i)

/-- Load the bytes at the offsets, in order. -/
def readEach (host : Host) (r : Region) (offsets : List Nat) : Step Memory (List UInt8) := do
  let bytes ← offsets.foldlM (fun (bytes : List UInt8) i => do
    return (← r.readByte host i) :: bytes) []
  return bytes.reverse

end Region

namespace Memory

/-- Allocate a region of `size` bytes; nothing, if the range is used up. -/
def allocateRegion (size : Nat) : Step Memory (Option Region) := do
  return (← allocate size).map fun start => ⟨start, size⟩

end Memory

end DemandPaging
