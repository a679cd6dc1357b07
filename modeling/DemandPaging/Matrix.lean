import DemandPaging.Random.Stream
import DemandPaging.Region

/-!
# Matrices of signed words

Matrices are used through a view that reads and writes single elements, so the
same definitions work on matrices in ordinary memory and in managed memory.
Sums and products of elements are taken modulo the size of a word.
-/

namespace DemandPaging

/-- A matrix as it is seen in the monad `m`. -/
structure Matrix (m : Type → Type) where
  /-- The number of rows. -/
  rows : Nat
  /-- The number of columns. -/
  columns : Nat
  /-- Read the element in a row and a column. -/
  get : Nat → Nat → m Int32
  /-- Replace the element in a row and a column. -/
  set : Nat → Nat → Int32 → m Unit

namespace Matrix

variable {m : Type → Type} [Monad m]

/-- The number of rows and columns. -/
def shape (a : Matrix m) : Nat × Nat := (a.rows, a.columns)

/-- Do something for every element, row by row. -/
@[specialize] def forElements (rows columns : Nat) (f : Nat → Nat → m Unit) : m Unit :=
  (List.range rows).forM fun r => (List.range columns).forM fun c => f r c

/-- The largest absolute value of a drawn element. -/
abbrev elementBound : Nat := 1000

/-- Draw one element. -/
def drawElement (s : Random.Stream) : Int32 × Random.Stream :=
  let draw := s.below .narrow (2 * elementBound + 1)
  (Int32.ofInt (draw.1 - elementBound), draw.2)

/-- Fill a matrix with drawn elements, row by row; hands out the rest of the stream. -/
@[specialize] def generate (a : Matrix m) (s : Random.Stream) : m Random.Stream :=
  (List.range a.rows).foldlM (fun s r =>
    (List.range a.columns).foldlM (fun s c => do
      let draw := drawElement s
      a.set r c draw.1
      return draw.2) s) s

/-- Only matrices of one shape can be copied. -/
def copyable (source target : Nat × Nat) : Except Panic Unit :=
  if source = target then .ok () else .error (.shapesDiffer source target)

/-- Copy the elements of `source`, row by row. -/
@[specialize] def copy (source target : Matrix m) : m Unit :=
  forElements source.rows source.columns fun r c => do
    target.set r c (← source.get r c)

/-- Only conforming matrices can be multiplied. -/
def conforming (left right : Nat × Nat) : Except Panic Unit :=
  if left.2 = right.1 then .ok () else .error (.innerSizesDiffer left.2 right.1)

/-- The product of a row and a column. -/
@[specialize] def dot (left right : Matrix m) (r c : Nat) : m Int32 :=
  (List.range left.columns).foldlM (fun sum k => do
    return sum + (← left.get r k) * (← right.get k c)) 0

/-- Write the product of `left` and `right` to `out`, and call `onRow` after each row. -/
@[specialize] def multiply (left right out : Matrix m) (onRow : Nat → m Unit) : m Unit :=
  (List.range left.rows).forM fun r => do
    (List.range right.columns).forM fun c => do
      out.set r c (← dot left right r c)
    onRow r

/-- All the elements for which `f` is asked agree; stops at the first that does not. -/
@[specialize] def allM (f : Nat → m Bool) : List Nat → m Bool
  | [] => return true
  | i :: rest => do
    if ← f i then allM f rest else return false

/-- Two matrices have the same shape and the same elements. -/
@[specialize] def equal (a b : Matrix m) : m Bool :=
  if a.shape = b.shape then
    allM (fun r => allM (fun c => return (← a.get r c) == (← b.get r c)) (List.range a.columns))
      (List.range a.rows)
  else return false

end Matrix

/-- A matrix in ordinary memory. Elements beyond the stored ones are zero. -/
structure HeapMatrix where
  /-- The number of rows. -/
  rows : Nat
  /-- The number of columns. -/
  columns : Nat
  /-- The elements, row by row, up to the last that was written. -/
  stored : Array Int32
  deriving DecidableEq, Repr

namespace HeapMatrix

/-- Bytes in one element. -/
abbrev elementSize : Nat := 4

/-- A matrix of zeros. The number of elements has to be a machine word, and their bytes have to fit into a vector. -/
def zero (rows columns : Nat) : Except Panic HeapMatrix :=
  if wordLimit ≤ rows * columns then .error .multiplyOverflow
  else if capacityLimit ≤ rows * columns * elementSize then .error .capacityOverflow
  else .ok ⟨rows, columns, #[]⟩

/-- The element with number `i`, row by row. -/
def element (a : HeapMatrix) (i : Nat) : Int32 := a.stored.getD i 0

/-- The element in row `r` and column `c`. -/
def get (a : HeapMatrix) (r c : Nat) : Int32 := a.element (r * a.columns + c)

/-- Replace the element with number `i`. -/
def setElement (stored : Array Int32) (i : Nat) (x : Int32) : Array Int32 :=
  if h : i < stored.size then stored.set i x
  else (stored ++ Array.replicate (i - stored.size) 0).push x

/-- Replace the element in row `r` and column `c`. -/
def set : HeapMatrix → Nat → Nat → Int32 → HeapMatrix
  | ⟨rows, columns, stored⟩, r, c, x => ⟨rows, columns, setElement stored (r * columns + c) x⟩

/-- The elements, row by row. -/
def toList (a : HeapMatrix) : List Int32 := (List.range (a.rows * a.columns)).map a.element

/-- The matrix with the given elements, followed by zeros. -/
def ofArray (rows columns : Nat) (elements : Array Int32) : Except Panic HeapMatrix := do
  return { ← zero rows columns with stored := elements }

/-- A matrix that is only read. -/
def view {m : Type → Type} [Monad m] (a : HeapMatrix) : Matrix m where
  rows := a.rows
  columns := a.columns
  get r c := return a.get r c
  set _ _ _ := return ()

/-- The matrix that is the state of the monad, with the given shape. -/
def current (rows columns : Nat) : Matrix (StateM HeapMatrix) where
  rows := rows
  columns := columns
  get r c := return (← getThe HeapMatrix).get r c
  set r c x := modify (·.set r c x)

/-- Draw the elements of a matrix. -/
def generate (a : HeapMatrix) (s : Random.Stream) : Random.Stream × HeapMatrix :=
  ((current a.rows a.columns).generate s).run a

/-- A matrix of elements drawn from the stream of a seed. -/
def ofSeed (rows columns : Nat) (seed : UInt64) : Except Panic HeapMatrix := do
  return ((← zero rows columns).generate (.ofSeed seed)).2

/-- Copy a matrix over `target`. -/
def copyTo (source target : HeapMatrix) : Except Panic HeapMatrix := do
  Matrix.copyable (source.rows, source.columns) (target.rows, target.columns)
  return ((source.view.copy (current target.rows target.columns)).run target).2

/-- The product of two matrices, written over `out`. -/
def multiply (left right out : HeapMatrix) : Except Panic HeapMatrix := do
  Matrix.conforming (left.rows, left.columns) (right.rows, right.columns)
  return ((Matrix.multiply left.view right.view (current out.rows out.columns)
    fun _ => return ()).run out).2

/-- The rows that a product of the given matrices reports, in order. -/
def reportedRows (left right out : HeapMatrix) : List Nat :=
  ((Matrix.multiply left.view right.view out.view
    fun r => modify (· ++ [r]) : StateM (List Nat) Unit).run []).2

/-- Two matrices have the same shape and the same elements. -/
def equal (a b : HeapMatrix) : Bool := Id.run (Matrix.equal a.view b.view)

end HeapMatrix

/-- A matrix in managed memory, row by row in a region. -/
structure PagedMatrix where
  /-- The number of rows. -/
  rows : Nat
  /-- The number of columns. -/
  columns : Nat
  /-- The memory of the elements. -/
  region : Region
  deriving DecidableEq, Repr

namespace PagedMatrix

/-- A matrix in the given region, which has to have room for it. -/
def ofRegion (rows columns : Nat) (region : Region) : Except Panic PagedMatrix :=
  if wordLimit ≤ rows * columns ∨ wordLimit ≤ rows * columns * Region.wordSize then
    .error .multiplyOverflow
  else if region.length < rows * columns * Region.wordSize then .error .regionTooSmall
  else .ok ⟨rows, columns, region⟩

/-- The matrix, seen through the accesses of a pager. -/
def view (host : Host) (a : PagedMatrix) : Matrix (Step Memory) where
  rows := a.rows
  columns := a.columns
  get r c := a.region.readWord host (r * a.columns + c)
  set r c x := a.region.writeWord host (r * a.columns + c) x

/-- Copy a matrix to newly allocated memory of which the last `short` bytes are missing; nothing, if the range is used
up. -/
def store? (host : Host) (a : HeapMatrix) (short : Nat) : Step Memory (Option PagedMatrix) := do
  match ← Memory.allocateRegion (a.rows * a.columns * Region.wordSize - short) with
  | none => return none
  | some region =>
    let paged ← Step.ofChecked (ofRegion a.rows a.columns region)
    a.view.copy (paged.view host)
    return some paged

/-- The elements of a matrix, row by row. -/
def toList (host : Host) (a : PagedMatrix) : Step Memory (List Int32) := do
  let elements ← (List.range a.rows).foldlM (fun (elements : List Int32) r =>
    (List.range a.columns).foldlM (fun elements c => do
      return (← (a.view host).get r c) :: elements) elements) []
  return elements.reverse

/-- Write the product of two matrices to `out`; hands out the rows that were reported. -/
def multiply (host : Host) (left right out : PagedMatrix) : Step Memory (List Nat) := do
  Step.ofChecked (Matrix.conforming (left.rows, left.columns) (right.rows, right.columns))
  let lift (a : Matrix (Step Memory)) : Matrix (StateT (List Nat) (Step Memory)) := {
    rows := a.rows
    columns := a.columns
    get := fun r c => StateT.lift (a.get r c)
    set := fun r c x => StateT.lift (a.set r c x) }
  let (_, rows) ← (Matrix.multiply (lift (left.view host)) (lift (right.view host))
    (lift (out.view host)) fun r => modify (· ++ [r])).run []
  return rows

end PagedMatrix

end DemandPaging
