/-!
# File descriptors

A descriptor answers every call that writes to it: a call may be interrupted,
may store only a part of its bytes, or may fail. Whoever writes goes on until
everything is stored or a call fails.
-/

namespace DemandPaging.Log

/-- The answer to one call that writes. -/
inductive Reply where
  /-- Nothing was stored; the call may be repeated. -/
  | interrupted
  /-- At least one byte was stored, and at most `extra` more. -/
  | stored (extra : Nat)
  /-- The call failed. -/
  | failed
  deriving DecidableEq, Repr

/-- A descriptor and what it received. -/
structure Descriptor where
  /-- The answers to the next calls. -/
  replies : List Reply := []
  /-- After the last of `replies`, calls store all their bytes; otherwise they fail. -/
  isOpen : Bool := true
  /-- The bytes stored by each call that stored some, in order. -/
  writes : List (List UInt8) := []
  /-- The calls made, those that stored nothing among them. -/
  calls : Nat := 0
  deriving DecidableEq, Repr

namespace Descriptor

/-- Everything that the descriptor received. -/
def received (d : Descriptor) : List UInt8 := d.writes.flatten

/-- Record that a call was made. -/
def called (d : Descriptor) : Descriptor := { d with calls := d.calls + 1 }

/-- Record the bytes stored by one call. -/
def receive (d : Descriptor) (bytes : List UInt8) : Descriptor :=
  { d with writes := d.writes ++ [bytes] }

/-- Write `bytes` with the given answers to come; tells whether everything was stored. -/
def writeWith : List Reply → List UInt8 → Descriptor → Bool × Descriptor
  | replies, [], d => (true, { d with replies })
  | [], b :: bytes, d =>
    if d.isOpen then (true, { d.called with replies := [] }.receive (b :: bytes))
    else (false, { d.called with replies := [] })
  | .interrupted :: replies, b :: bytes, d => writeWith replies (b :: bytes) d.called
  | .stored extra :: replies, b :: bytes, d =>
    writeWith replies (bytes.drop extra) (d.called.receive (b :: bytes.take extra))
  | .failed :: replies, _ :: _, d => (false, { d.called with replies })

/-- Write all of `bytes`; tells whether everything was stored. -/
def write (d : Descriptor) (bytes : List UInt8) : Bool × Descriptor :=
  writeWith d.replies bytes d

end Descriptor

end DemandPaging.Log
