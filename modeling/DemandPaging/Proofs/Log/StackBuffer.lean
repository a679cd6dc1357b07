import DemandPaging.Log.LineBuffer

/-!
# The line buffer as an array

The bytes that a line buffer collects lie at the start of an array of fixed length. Here every
slice is taken with its bounds checked, and one that reaches outside gives nothing. The array buffer
does what the line buffer does, so that no slice ever reaches outside.
-/

namespace DemandPaging.Log

/-- The bytes from position `lo` up to `hi`, if they all exist. -/
def slice? (bytes : List UInt8) (lo hi : Nat) : Option (List UInt8) :=
  if lo ≤ hi ∧ hi ≤ bytes.length then some ((bytes.take hi).drop lo) else none

/-- Copy `bytes` into an array from position `start` on, if they fit there. -/
def copyAt? {n : Nat} (cells : Vector UInt8 n) (start : Nat) (bytes : List UInt8) :
    Option (Vector UInt8 n) :=
  if h : start + bytes.length ≤ n then
    some ⟨(cells.toList.take start ++ bytes ++ cells.toList.drop (start + bytes.length)).toArray,
      by
        simp only [List.size_toArray, List.length_append, List.length_take, List.length_drop,
          Vector.length_toList]
        omega⟩
  else none

namespace Descriptor

/-- Write `bytes`, each time from the first that was not stored yet. -/
def writeWith? : List Reply → List UInt8 → Descriptor → Option (Bool × Descriptor)
  | replies, [], d => some (true, { d with replies })
  | [], b :: bytes, d =>
    if d.isOpen then some (true, { d.called with replies := [] }.receive (b :: bytes))
    else some (false, { d.called with replies := [] })
  | .interrupted :: replies, b :: bytes, d => writeWith? replies (b :: bytes) d.called
  | .stored extra :: replies, b :: bytes, d => do
    let written := min (extra + 1) (bytes.length + 1)
    let rest ← slice? (b :: bytes) written (bytes.length + 1)
    writeWith? replies rest (d.called.receive ((b :: bytes).take written))
  | .failed :: replies, _ :: _, d => some (false, { d.called with replies })

/-- Write all of `bytes`. -/
def write? (d : Descriptor) (bytes : List UInt8) : Option (Bool × Descriptor) :=
  writeWith? d.replies bytes d

end Descriptor

/-- A buffer in front of a descriptor, with the collected bytes at the start of an array. -/
structure StackBuffer where
  /-- Where the text goes. -/
  sink : Descriptor
  /-- Room for the collected bytes. -/
  cells : Vector UInt8 lineCapacity := Vector.replicate lineCapacity 0
  /-- Bytes collected. -/
  used : Nat := 0

namespace StackBuffer

/-- Send off what was collected. -/
def flush? (b : StackBuffer) : Option (Bool × StackBuffer) := do
  let pending ← slice? b.cells.toList 0 b.used
  let r ← b.sink.write? pending
  return (r.1, { b with sink := r.2, used := 0 })

/-- Copy `bytes` behind what was collected. -/
def keep? (b : StackBuffer) (bytes : List UInt8) : Option (Bool × StackBuffer) := do
  let cells ← copyAt? b.cells b.used bytes
  return (true, { b with cells, used := b.used + bytes.length })

/-- Collect `bytes`. -/
def write? (b : StackBuffer) (bytes : List UInt8) : Option (Bool × StackBuffer) :=
  if lineCapacity < b.used + bytes.length then do
    match ← b.flush? with
    | (false, b) => return (false, b)
    | (true, b) =>
      if lineCapacity < bytes.length then
        let r ← b.sink.write? bytes
        return (r.1, { b with sink := r.2 })
      else b.keep? bytes
  else b.keep? bytes

/-- Collect fragments one after the other, up to the first that is lost. -/
def writeEach? : List (List UInt8) → StackBuffer → Option (Bool × StackBuffer)
  | [], b => some (true, b)
  | bytes :: fragments, b => do
    match ← b.write? bytes with
    | (true, b) => writeEach? fragments b
    | (false, b) => return (false, b)

end StackBuffer

/-- Write fragments through an array buffer of their own. -/
def Descriptor.writeLine? (d : Descriptor) (fragments : List (List UInt8)) :
    Option (Bool × Descriptor) := do
  match ← StackBuffer.writeEach? fragments { sink := d } with
  | (true, b) =>
    let r ← b.flush?
    return (r.1, r.2.sink)
  | (false, b) => return (false, b.sink)

/-! ## Slices that lie inside -/

theorem slice?_eq_drop {bytes : List UInt8} {lo : Nat} (h : lo ≤ bytes.length) :
    slice? bytes lo bytes.length = some (bytes.drop lo) := by
  rw [slice?, if_pos ⟨h, Nat.le_refl _⟩, List.take_length]

theorem slice?_zero {bytes : List UInt8} {hi : Nat} (h : hi ≤ bytes.length) :
    slice? bytes 0 hi = some (bytes.take hi) := by
  rw [slice?, if_pos ⟨Nat.zero_le _, h⟩, List.drop_zero]

/-- A copy that fits lies behind what was there before. -/
theorem exists_copyAt? {n : Nat} (cells : Vector UInt8 n) {start : Nat} {bytes : List UInt8}
    (h : start + bytes.length ≤ n) :
    ∃ cells', copyAt? cells start bytes = some cells' ∧
      cells'.toList.take (start + bytes.length) = cells.toList.take start ++ bytes := by
  refine ⟨_, dif_pos h, ?_⟩
  have hlen : (cells.toList.take start ++ bytes).length = start + bytes.length := by
    rw [List.length_append, List.length_take, Vector.length_toList, Nat.min_eq_left (by omega)]
  change List.take _ (cells.toList.take start ++ bytes ++ _) = _
  rw [← hlen, List.take_left]

/-! ## In step with the line buffer -/

/-- A descriptor never takes more than it was given. -/
theorem Descriptor.writeWith?_eq (replies : List Reply) (bytes : List UInt8) (d : Descriptor) :
    writeWith? replies bytes d = some (writeWith replies bytes d) := by
  fun_induction writeWith replies bytes d with
  | case1 replies d => rw [writeWith?]
  | case2 b bytes d hopen => rw [writeWith?, if_pos hopen]
  | case3 b bytes d hopen => rw [writeWith?, if_neg hopen]
  | case4 replies b bytes d ih => exact ih
  | case5 extra replies b bytes d ih =>
    have hstored : (b :: bytes).take (min (extra + 1) (bytes.length + 1)) = b :: bytes.take extra := by
      rw [← List.length_cons (a := b), ← List.take_eq_take_min, List.take_succ_cons]
    have hrest : slice? (b :: bytes) (min (extra + 1) (bytes.length + 1)) (bytes.length + 1) =
        some (bytes.drop extra) := by
      rw [← List.length_cons (a := b), slice?_eq_drop (Nat.min_le_right ..), ← List.drop_eq_drop_min,
        List.drop_succ_cons]
    simp only [writeWith?, hrest, hstored, Option.bind_eq_bind, Option.bind_some, ih]
  | case6 replies b bytes d => rfl

theorem Descriptor.write?_eq (d : Descriptor) (bytes : List UInt8) :
    d.write? bytes = some (d.write bytes) :=
  writeWith?_eq d.replies bytes d

namespace StackBuffer

/-- The line buffer that the array stands for. -/
def line (b : StackBuffer) : LineBuffer := ⟨b.sink, b.cells.toList.take b.used⟩

/-- No slice reached outside, and the outcome is the one of the line buffer. -/
def Follows (r : Option (Bool × StackBuffer)) (r' : Bool × LineBuffer) : Prop :=
  ∃ b : StackBuffer, r = some (r'.1, b) ∧ b.line = r'.2 ∧ b.used ≤ lineCapacity

variable {b : StackBuffer}

theorem length_pending_line (h : b.used ≤ lineCapacity) : b.line.pending.length = b.used := by
  rw [line, List.length_take, Vector.length_toList, Nat.min_eq_left h]

theorem follows_flush (h : b.used ≤ lineCapacity) : Follows b.flush? b.line.flush := by
  have hslice : slice? b.cells.toList 0 b.used = some b.line.pending :=
    slice?_zero ((Vector.length_toList ..).symm ▸ h)
  refine ⟨{ b with sink := (b.sink.write b.line.pending).2, used := 0 }, ?_, rfl, Nat.zero_le _⟩
  simp only [flush?, hslice, Option.bind_eq_bind, Option.bind_some, Descriptor.write?_eq]
  rfl

theorem follows_keep {bytes : List UInt8} (h : b.used + bytes.length ≤ lineCapacity) :
    Follows (b.keep? bytes) (true, { b.line with pending := b.line.pending ++ bytes }) := by
  obtain ⟨cells, hcells, hstored⟩ := exists_copyAt? b.cells h
  refine ⟨{ b with cells, used := b.used + bytes.length }, ?_, ?_, h⟩
  · rw [keep?, hcells]
    rfl
  · rw [line, hstored]
    rfl

theorem follows_write (h : b.used ≤ lineCapacity) (bytes : List UInt8) :
    Follows (b.write? bytes) (b.line.write bytes) := by
  have hlen := length_pending_line h
  rw [write?, LineBuffer.write, hlen]
  by_cases hroom : lineCapacity < b.used + bytes.length
  · rw [if_pos hroom, if_pos hroom]
    obtain ⟨b', hflush, hline, hused⟩ := follows_flush h
    have hpending : b'.line.pending = [] := congrArg LineBuffer.pending hline
    have hempty : b'.used = 0 := by
      rw [← length_pending_line hused, hpending, List.length_nil]
    rw [hflush, ← Prod.eta b.line.flush, ← hline]
    cases b.line.flush.1 with
    | false => exact ⟨b', rfl, rfl, hused⟩
    | true =>
      by_cases hlong : lineCapacity < bytes.length
      · simp only [Option.bind_eq_bind, Option.bind_some, if_pos hlong, Descriptor.write?_eq]
        exact ⟨{ b' with sink := (b'.sink.write bytes).2 }, rfl, rfl, hused⟩
      · simp only [Option.bind_eq_bind, Option.bind_some, if_neg hlong]
        have hsmall : b'.used + bytes.length ≤ lineCapacity := by omega
        have hkeep := follows_keep hsmall
        rwa [hpending, List.nil_append] at hkeep
  · rw [if_neg hroom, if_neg hroom]
    exact follows_keep (Nat.le_of_not_lt hroom)

theorem follows_writeEach (fragments : List (List UInt8)) (h : b.used ≤ lineCapacity) :
    Follows (writeEach? fragments b) (LineBuffer.writeEach fragments b.line) := by
  induction fragments generalizing b with
  | nil => exact ⟨b, rfl, rfl, h⟩
  | cons bytes fragments ih =>
    obtain ⟨b', hwrite, hline, hused⟩ := follows_write h bytes
    rw [writeEach?, LineBuffer.writeEach, hwrite, ← Prod.eta (b.line.write bytes), ← hline]
    cases (b.line.write bytes).1 with
    | false => exact ⟨b', rfl, rfl, hused⟩
    | true => exact ih hused

end StackBuffer

/-- No slice reaches outside while a line is written through an array buffer. -/
theorem Descriptor.writeLine?_eq (d : Descriptor) (fragments : List (List UInt8)) :
    d.writeLine? fragments = some (d.writeLine fragments) := by
  have hnew : StackBuffer.line { sink := d } = { sink := d } := rfl
  obtain ⟨b, heach, hline, hused⟩ :=
    StackBuffer.follows_writeEach fragments (b := { sink := d }) (Nat.zero_le _)
  rw [hnew] at heach hline
  rw [writeLine?, writeLine, heach, ← Prod.eta (LineBuffer.writeEach fragments _), ← hline]
  cases (LineBuffer.writeEach fragments { sink := d }).1 with
  | false => rfl
  | true =>
    obtain ⟨b', hflush, hline', -⟩ := StackBuffer.follows_flush hused
    simp only [Option.bind_eq_bind, Option.bind_some, hflush, ← hline']
    rfl

end DemandPaging.Log
