import DemandPaging.Log.Descriptor

/-!
# The line buffer

Text is collected so that a short line reaches the descriptor in one call. Text
that does not fit behind the collected one sends that off first, and text
longer than the buffer goes past it.
-/

namespace DemandPaging.Log

/-- Bytes that the buffer collects. -/
abbrev lineCapacity : Nat := 256

/-- A buffer in front of a descriptor. -/
structure LineBuffer where
  /-- Where the text goes. -/
  sink : Descriptor
  /-- Collected bytes. -/
  pending : List UInt8 := []
  deriving DecidableEq, Repr

namespace LineBuffer

/-- Send off what was collected; tells whether it was stored. What was not stored is given up. -/
def flush (b : LineBuffer) : Bool × LineBuffer :=
  let r := b.sink.write b.pending
  (r.1, ⟨r.2, []⟩)

/-- Collect `bytes`; tells whether nothing was lost. -/
def write (b : LineBuffer) (bytes : List UInt8) : Bool × LineBuffer :=
  if lineCapacity < b.pending.length + bytes.length then
    match b.flush with
    | (false, b) => (false, b)
    | (true, b) =>
      if lineCapacity < bytes.length then
        let r := b.sink.write bytes
        (r.1, { b with sink := r.2 })
      else (true, { b with pending := bytes })
  else (true, { b with pending := b.pending ++ bytes })

/-- Collect fragments one after the other, up to the first that is lost. -/
def writeEach : List (List UInt8) → LineBuffer → Bool × LineBuffer
  | [], b => (true, b)
  | bytes :: fragments, b =>
    match b.write bytes with
    | (true, b) => writeEach fragments b
    | (false, b) => (false, b)

end LineBuffer

namespace Descriptor

/-- Write fragments through a line buffer of their own; tells whether everything was stored. -/
def writeLine (d : Descriptor) (fragments : List (List UInt8)) : Bool × Descriptor :=
  match LineBuffer.writeEach fragments { sink := d } with
  | (true, b) =>
    let r := b.flush
    (r.1, r.2.sink)
  | (false, b) => (false, b.sink)

end Descriptor

end DemandPaging.Log
